import SeeHandshake.Tracker.Runs

/-!
# What happens after a fatal error

Which records still change the extracted handshake of an errored connection, and which segments leave
it alone.
-/

namespace SeeHandshake

section Messages

variable (tp : TlsParser)

/-- The handshake messages at the front of a payload, in at most `fuel` turns. -/
def messagesOfLoop : Nat → Bytes → List TlsMessage
  | 0, _ => []
  | fuel + 1, remaining =>
    if remaining.isEmpty then []
    else
      match tp.parseTlsMessageHandshake remaining with
      | .ok (rest, msg) => msg :: messagesOfLoop fuel rest
      | .error _ => []

/-- The handshake messages at the front of a payload, up to the first one that does not parse. -/
def messagesOf (payload : Bytes) : List TlsMessage := messagesOfLoop tp payload.length payload

end Messages

/-- Whether a handshake message of the direction is one that moves the stage, given the version of the
connection. -/
def TlsMessage.movesStage (direction : Direction) (version : Option TlsVersion) :
    TlsMessage → Bool
  | .handshake (.clientHello _) => direction = .clientToServer
  | .handshake (.serverHello _) => direction = .serverToClient
  | .handshake .certificate =>
    direction = .serverToClient && (version.isNone || isTls12 version)
  | .handshake .serverKeyExchange => true
  | .handshake .serverDone => true
  | .handshake .clientKeyExchange => direction = .clientToServer
  | .handshake .other => false
  | .other => false

namespace TrackedConnection

variable (tp : TlsParser)

/-- Whether a record of the direction is one that moves the stage of an errored connection. A
ChangeCipherSpec never does: the stages that wait for it are not the errored one. -/
def movesStage (conn : TrackedConnection) (direction : Direction) (record : TlsRecord) : Prop :=
  match record.recordType with
  | .handshake => ¬ conn.ccsSeen direction ∧
      ∃ msg ∈ messagesOf tp record.payload,
        msg.movesStage direction conn.state.handshake.tlsVersion
  | .applicationData => isTls12 conn.state.handshake.tlsVersion ∨ direction = .serverToClient ∨
      conn.encryptedRecordsFromServer > 0
  | _ => False

/-- A direction that has left `ingest` through an error exit in a run. -/
def FailedIn (start : TrackedConnection) (segs : List Segment) (direction : Direction) : Prop :=
  ∃ a seg b, segs = a ++ seg :: b ∧ (start.run tp a).fails seg ∧ seg.direction = direction

/-- The segment completes no record that moves the stage, and in a failed direction only records that
the record loop passes over. -/
structure Harmless (failed : Direction → Prop) (conn : TrackedConnection) (seg : Segment) :
    Prop where
  moves : ∀ a r bytes b, conn.framed seg = a ++ (r, bytes) :: b →
    ¬ (conn.midway tp seg (a.map Prod.fst)).movesStage tp seg.direction r
  skipped : failed seg.direction → ∀ f ∈ conn.framed seg, ¬ f.1.recordType.eligible

end TrackedConnection

/-- The handshake without the text of its error. -/
def HandshakeInfo.withoutError (h : HandshakeInfo) : HandshakeInfo := { h with error := none }

end SeeHandshake

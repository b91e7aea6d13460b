import SeeHandshake.Tracker.Errors

/-!
# The step that last moved the stage

A run of a connection as the sequence of its steps: the records of the record loop, and the segments that
leave `ingest` through an error exit. Which of them move the stage, and what kind of step each one is.
-/

namespace SeeHandshake

section Messages

variable (tp : TlsParser) (direction : Direction)

/-- The stage that a kind of message stands for. -/
def TlsMessage.stage? : TlsMessage → Option HandshakeStage
  | .handshake (.clientHello _) => some .clientHello
  | .handshake (.serverHello _) => some .serverHello
  | .handshake .certificate => some .serverCertificate
  | .handshake .serverKeyExchange => some .serverKeyExchange
  | .handshake .serverDone => some .serverHelloDone
  | .handshake .clientKeyExchange => some .clientKeyExchange
  | .handshake .other => none
  | .other => none

/-- The version of the connection after a message. -/
def TlsMessage.versionAfter (version : Option TlsVersion) (msg : TlsMessage) : Option TlsVersion :=
  match msg, direction with
  | .handshake (.clientHello ch), .clientToServer =>
    version.or (extractClientHello tp ch).maxVersion
  | .handshake (.serverHello sh), .serverToClient => (extractServerHello tp sh).tlsVersion.or version
  | _, _ => version

/-- The version of the connection after a sequence of messages. -/
def versionAfter (version : Option TlsVersion) (msgs : List TlsMessage) : Option TlsVersion :=
  msgs.foldl (TlsMessage.versionAfter tp direction) version

/-- The stage of the last message of a sequence that moves the stage. -/
def lastMove : Option TlsVersion → List TlsMessage → Option HandshakeStage
  | _, [] => none
  | version, msg :: msgs =>
    (lastMove (msg.versionAfter tp direction version) msgs).or
      (if msg.movesStage direction version then msg.stage? else none)

/-- The last message of a sequence that moves the stage. -/
def lastMoving : Option TlsVersion → List TlsMessage → Option TlsMessage
  | _, [] => none
  | version, msg :: msgs =>
    (lastMoving (msg.versionAfter tp direction version) msgs).or
      (if msg.movesStage direction version then some msg else none)

end Messages

/-- The type byte of a message that can move the stage. -/
def TlsMessage.msgType? : TlsMessage → Option UInt8
  | .handshake (.clientHello _) => some 1
  | .handshake (.serverHello _) => some 2
  | .handshake .certificate => some 11
  | .handshake .serverKeyExchange => some 12
  | .handshake .serverDone => some 14
  | .handshake .clientKeyExchange => some 16
  | .handshake .other => none
  | .other => none

/-- A step of a run: a record of the record loop, or none where a segment leaves through an error exit,
with its direction and the state before it. -/
structure RunStep where
  before : TrackedConnection
  direction : Direction
  record : Option TlsRecord

namespace RunStep

variable (tp : TlsParser) (s : RunStep)

/-- The version of the connection before the step is known to be TLS 1.2 or older. -/
def tls12 : Bool := isTls12 s.before.state.handshake.tlsVersion

/-- The last message of the record that moves the stage. Nothing is read off a Handshake record after
the ChangeCipherSpec of its direction. -/
def message? : Option TlsMessage :=
  match s.record with
  | some r =>
    if r.recordType = .handshake ∧ ¬ s.before.ccsSeen s.direction then
      lastMoving tp s.direction s.before.state.handshake.tlsVersion (messagesOf tp r.payload)
    else none
  | none => none

/-- A record whose last message that moves the stage is of a type. -/
def tells (msgType : UInt8) : Bool := (s.message? tp).any fun msg => msg.msgType? = some msgType

/-- A ChangeCipherSpec of a direction. -/
def isCcs (direction : Direction) : Bool :=
  s.direction = direction && s.record.any fun r => r.recordType = .changeCipherSpec

/-- An ApplicationData record. -/
def isData : Bool := s.record.any fun r => r.recordType = .applicationData

/-- An ApplicationData record of TLS 1.2 or older, or after the client's Finished. -/
def isTraffic : Bool := s.isData && (s.tls12 || s.before.sawClientFinishedMarker)

/-- An ApplicationData record of a direction that is neither. -/
def isFlight (direction : Direction) : Bool :=
  s.direction = direction && s.isData && !(s.tls12 || s.before.sawClientFinishedMarker)

/-- The ChangeCipherSpec of the client, or its first encrypted record. -/
def isClientFinished : Bool := s.isCcs .clientToServer || s.isFlight .clientToServer

/-- The ChangeCipherSpec of the server, or a later encrypted record than its third one. -/
def isServerFinished : Bool :=
  s.isCcs .serverToClient ||
    (s.isFlight .serverToClient && s.before.encryptedRecordsFromServer ≥ 3)

/-- One of the server's first three encrypted records. -/
def isServerFlight : Bool :=
  s.isFlight .serverToClient && s.before.encryptedRecordsFromServer < 3

/-- Whether the step moves the stage, given the last step that did. A ChangeCipherSpec of the client
moves it next to its key exchange, and one of the server next to the client's Finished. -/
def moves (last : Option RunStep) : Bool :=
  match s.record with
  | none => true
  | some r =>
    match r.recordType with
    | .handshake => (s.message? tp).isSome
    | .applicationData =>
      s.tls12 || s.direction = .serverToClient || s.before.encryptedRecordsFromServer > 0
    | .changeCipherSpec =>
      match s.direction with
      | .clientToServer => last.any fun s' => s'.tells tp 16
      | .serverToClient => last.any isClientFinished
    | _ => false

end RunStep

/-- The last step that moved the stage. -/
def lastMover (tp : TlsParser) (steps : List RunStep) : Option RunStep :=
  steps.foldl (fun last s => if s.moves tp last then some s else last) none

namespace TrackedConnection

instance (conn : TrackedConnection) (seg : Segment) : Decidable (conn.fails seg) :=
  inferInstanceAs (Decidable (_ ∧ _))

variable (tp : TlsParser)

/-- The steps of the record loop over some records. -/
def recordSteps (direction : Direction) (nowMs : UInt64) :
    TrackedConnection → List TlsRecord → List RunStep
  | _, [] => []
  | conn, r :: rs =>
    ⟨conn, direction, some r⟩ :: recordSteps direction nowMs (processRecord tp direction nowMs conn r) rs

/-- The steps of a segment that does not fail, over the records `rs`. -/
def midwaySteps (conn : TrackedConnection) (seg : Segment) (rs : List TlsRecord) : List RunStep :=
  recordSteps tp seg.direction seg.nowMs (conn.midway tp seg []) rs

/-- The steps of a run. -/
def steps : TrackedConnection → List Segment → List RunStep
  | _, [] => []
  | conn, seg :: segs =>
    (if conn.fails seg then [⟨conn, seg.direction, none⟩]
      else conn.midwaySteps tp seg ((conn.framed seg).map Prod.fst)) ++ steps (conn.step tp seg) segs

end TrackedConnection

end SeeHandshake

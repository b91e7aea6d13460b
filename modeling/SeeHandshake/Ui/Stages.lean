import SeeHandshake.Tracker.Moves
import SeeHandshake.Ui.App

/-!
# Two ways to infer a stage

The tracker moves the stage of a connection record by record; the user interface reads a stage off the
label or the message of a single record. When the two come to the same stage.
-/

namespace SeeHandshake

/-- Whether the user interface reads a stage off a Handshake record with this first byte. -/
def namesStage (msgType : UInt8) (payload : Bytes) : Bool :=
  match msgType with
  | 1 => (decodeClientHello payload).isOk
  | 2 => (decodeServerHello payload).isOk
  | 11 | 12 | 14 | 16 | 20 => true
  | _ => false

/-- Whether the step is of the kind that a first byte stands for: Finished is the one of the direction,
and Certificate is a plaintext message before TLS 1.3 and the server's encrypted flight else. -/
def RunStep.isOf (tp : TlsParser) (s : RunStep) (direction : Direction) (tls12 : Bool)
    (msgType : UInt8) : Bool :=
  if msgType = 20 then
    match direction with
    | .clientToServer => s.isClientFinished
    | .serverToClient => s.isServerFinished
  else if msgType = 11 ∧ ¬ tls12 then s.isServerFlight
  else s.tells tp msgType

/-- A Handshake record before the ChangeCipherSpec of its direction, `steps` being those before it. Its
first byte names no stage; or the last of its messages that moves the stage has the type of the first
byte, and the version is known if that is a Certificate; or none of its messages moves the stage, and the
last step before it that did is of the kind that the first byte stands for. -/
def PlaintextAgrees (tp : TlsParser) (steps : List RunStep) (s : RunStep) (payload : Bytes) : Prop :=
  ∀ msgType ∈ payload.head?, namesStage msgType payload →
    match s.message? tp with
    | some msg =>
      msg.msgType? = some msgType ∧
        (msgType = 11 → isTls12 (versionAfter tp s.direction s.before.state.handshake.tlsVersion
          (messagesOf tp payload)))
    | none => ∃ last ∈ lastMover tp steps, last.isOf tp s.direction s.tls12 msgType

/-- A Handshake record after the ChangeCipherSpec of its direction, by the number of such records before:
what the last step before it that moved the stage was. -/
def PostCcsAgrees (tp : TlsParser) (steps : List RunStep) (s : RunStep) : Prop :=
  ∃ last ∈ lastMover tp steps,
    match s.direction with
    | .clientToServer =>
      if s.before.postCcsRecordsFromClient = 0 then last.isClientFinished else last.isServerFlight
    | .serverToClient =>
      if s.before.postCcsRecordsFromServer = 0 then last.isTraffic
      else if s.before.postCcsRecordsFromServer = 1 then last.isServerFinished
      else last.isServerFlight

/-- An ApplicationData record: the version is known to be TLS 1.2 or older; or it is the server's first
one and short, or a later one than its second after the client's Finished; or it comes from the client,
after the server's first one or with nothing but ApplicationData of TLS 1.2 moving the stage last. -/
def EncryptedAgrees (tp : TlsParser) (steps : List RunStep) (s : RunStep) (payloadLen : Nat) : Prop :=
  s.tls12 ∨
    match s.direction with
    | .serverToClient =>
      (s.before.encryptedRecordsFromServer = 0 ∧ payloadLen < 200) ∨
        (s.before.encryptedRecordsFromServer ≥ 2 ∧ s.before.sawClientFinishedMarker)
    | .clientToServer =>
      s.before.encryptedRecordsFromServer > 0 ∨ ∃ last ∈ lastMover tp steps, last.isTraffic

/-- The condition under which both inferences come to the same stage, by the type of the record and the
steps before it. -/
def StagesAgree (tp : TlsParser) (steps : List RunStep) (conn : TrackedConnection)
    (direction : Direction) (record : TlsRecord) : Prop :=
  match record.recordType with
  | .handshake =>
    if conn.ccsSeen direction then PostCcsAgrees tp steps ⟨conn, direction, some record⟩
    else PlaintextAgrees tp steps ⟨conn, direction, some record⟩ record.payload
  | .applicationData => EncryptedAgrees tp steps ⟨conn, direction, some record⟩ record.payload.length
  | _ => True

end SeeHandshake

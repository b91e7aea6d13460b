import SeeHandshake.Tracker.FullHandshake
import SeeHandshake.Tracker.Moves
import SeeHandshake.Ui.Endpoints

/-!
# The end of a handshake before TLS 1.3

Both sides send a ChangeCipherSpec and an encrypted Finished: the client first in a full handshake, the
server first in an abbreviated one. When the stage ends at one of a completed handshake.
-/

namespace SeeHandshake

/-- Plaintext messages, then a ChangeCipherSpec and an encrypted Finished of each side, with more
plaintext messages of the second side in between. -/
structure Completion where
  /-- The side that sends its ChangeCipherSpec first. -/
  first : Direction
  plaintext : List Sent
  firstCcs : Sent
  firstFinished : Sent
  between : List Sent
  secondCcs : Sent
  secondFinished : Sent
  plaintext_type : ∀ x ∈ plaintext, x.type = .handshake
  firstCcs_is : firstCcs.Is first .changeCipherSpec
  firstFinished_is : firstFinished.Is first .handshake
  between_is : ∀ x ∈ between, x.Is first.flip .handshake
  secondCcs_is : secondCcs.Is first.flip .changeCipherSpec
  secondFinished_is : secondFinished.Is first.flip .handshake

/-- All records of the completion, in the order in which they are sent. -/
def Completion.records (c : Completion) : List Sent :=
  c.plaintext ++ (c.firstCcs :: c.firstFinished :: (c.between ++ [c.secondCcs, c.secondFinished]))

/-- The stages of a completed handshake. -/
def finishedStages : List HandshakeStage := [.clientFinished, .serverFinished, .applicationData]

/-- The messages that are read off Handshake records of a direction: none after the ChangeCipherSpec of
the direction. -/
def TrackedConnection.messagesRead (tp : TlsParser) (conn : TrackedConnection) (d : Direction)
    (xs : List Sent) : List TlsMessage :=
  if conn.ccsSeen d then [] else xs.flatMap fun x => messagesOf tp x.record.payload

/-- The connection before the first ChangeCipherSpec. -/
def Completion.before (c : Completion) (tp : TlsParser) (conn : TrackedConnection) :
    TrackedConnection :=
  c.plaintext.foldl (TrackedConnection.process tp) conn

/-- The stage of the last message between the two ChangeCipherSpecs that moves the stage. -/
def Completion.move (c : Completion) (tp : TlsParser) (conn : TrackedConnection) :
    Option HandshakeStage :=
  lastMove tp c.first.flip (c.before tp conn).state.handshake.tlsVersion
    ((c.before tp conn).messagesRead tp c.first.flip c.between)

/-- The stage before the first ChangeCipherSpec is the one after the key exchange of the client, or one
of a completed handshake, and no message in between moves it; or the server is the first and the key
exchange of the client comes in between. -/
def Completion.Recognised (c : Completion) (tp : TlsParser) (conn : TrackedConnection) : Prop :=
  (c.move tp conn = none ∧
    (c.before tp conn).state.handshake.stage ∈ .clientKeyExchange :: finishedStages) ∨
  (c.first = .serverToClient ∧ c.move tp conn = some .clientKeyExchange)

end SeeHandshake

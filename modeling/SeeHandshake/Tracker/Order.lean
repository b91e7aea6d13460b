import SeeHandshake.Tracker.Runs

/-!
# The order of the stages

The lists of stages that the flow diagram draws, read as an order in which a handshake moves on.
-/

namespace SeeHandshake

/-- The place of a stage in a list of stages, the idle stage lowest. -/
def HandshakeStage.position (order : List HandshakeStage) (stage : HandshakeStage) : ℕ :=
  (HandshakeStage.idle :: order).idxOf stage

namespace TrackedConnection

/-- The states of the record loop: between two segments of a run of a new connection, and between two
records of a segment. -/
inductive Reached (tp : TlsParser) : TrackedConnection → Prop where
  | between (key : ConnectionKey) (t : UInt64) (origin : Origin) (segs : List Segment) :
      Reached tp ((created key t origin).run tp segs)
  | within (key : ConnectionKey) (t : UInt64) (origin : Origin) (segs : List Segment)
      (seg : Segment) (a b : List (TlsRecord × Bytes))
      (hframed : ((created key t origin).run tp segs).framed seg = a ++ b) :
      Reached tp (((created key t origin).run tp segs).midway tp seg (a.map Prod.fst))

/-- The effect of a record in the record loop. -/
def process (tp : TlsParser) (conn : TrackedConnection) (x : Sent) : TrackedConnection :=
  processRecord tp x.direction x.nowMs conn x.record.toTlsRecord

/-- The stage of the connection does not move backwards at the record. -/
def MovesOn (tp : TlsParser) (order : List HandshakeStage) (conn : TrackedConnection) (x : Sent) :
    Prop :=
  conn.state.handshake.stage.position order ≤ (conn.process tp x).state.handshake.stage.position order

instance (tp : TlsParser) (order : List HandshakeStage) (conn : TrackedConnection) (x : Sent) :
    Decidable (MovesOn tp order conn x) :=
  inferInstanceAs (Decidable (_ ≤ _))

/-- An encrypted record comes in the order that the diagram expects: the client's Finished was seen; or
the record is the server's and not one of its first three at the stage of a Finished; or it is the
client's and does not come after the server's first one at the stage of the server's Finished. -/
def InOrder (conn : TrackedConnection) (x : Sent) : Prop :=
  conn.sawClientFinishedMarker ∨
    match x.direction with
    | .serverToClient =>
      3 ≤ conn.encryptedRecordsFromServer ∨
        (conn.state.handshake.stage ≠ .clientFinished ∧ conn.state.handshake.stage ≠ .serverFinished)
    | .clientToServer =>
      conn.encryptedRecordsFromServer = 0 ∨ conn.state.handshake.stage ≠ .serverFinished

instance : ∀ (conn : TrackedConnection) (x : Sent), Decidable (InOrder conn x)
  | _, ⟨.serverToClient, _, _⟩ => inferInstanceAs (Decidable (_ ∨ _ ∨ _))
  | _, ⟨.clientToServer, _, _⟩ => inferInstanceAs (Decidable (_ ∨ _ ∨ _))

end TrackedConnection

end SeeHandshake

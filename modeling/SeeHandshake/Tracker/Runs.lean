import SeeHandshake.Parser.Wire
import SeeHandshake.Tracker.Reassembly

/-!
# Runs of the tracker

The abstract view of a tracked connection over a whole run: the segments it ingests, the records its
record loop processes, and equality of states up to timestamps.
-/

namespace SeeHandshake

/-- A TCP segment of one connection. -/
structure Segment where
  direction : Direction
  payload : Bytes
  nowMs : UInt64
  deriving DecidableEq, Repr

/-- A record that arrives whole, in a segment of its own. -/
structure Sent where
  direction : Direction
  record : WireRecord
  nowMs : UInt64
  deriving DecidableEq

/-- The segment that carries a record. -/
def Sent.segment (x : Sent) : Segment := ⟨x.direction, x.record.encode, x.nowMs⟩

/-- The type of the record. -/
def Sent.type (x : Sent) : TlsRecordType := TlsRecordType.fromU8 x.record.ty

/-- A record of a type with a payload, cut to the longest one that the record layer permits. -/
def Sent.of (direction : Direction) (ty : UInt8) (payload : Bytes) : Sent :=
  ⟨direction, ⟨ty, 0x0303, payload.take MAX_RECORD_PAYLOAD, List.length_take_le ..⟩, 0⟩

/-- A record event with its timestamp erased. -/
def RecordEvent.untimed (e : RecordEvent) : RecordEvent := { e with timestampMs := 0 }

/-- Whether the record loop looks at records of a type; it passes over alerts and unknown types. -/
def TlsRecordType.eligible : TlsRecordType → Bool
  | .handshake | .applicationData | .changeCipherSpec => true
  | .alert | .other _ => false

@[simp] theorem TlsRecordType.eligible_alert : TlsRecordType.alert.eligible = false := rfl

@[simp] theorem TlsRecordType.eligible_other (v : UInt8) :
    (TlsRecordType.other v).eligible = false := rfl

/-- The timeline event of a record, given its sequence number and body. -/
def TlsRecord.event (record : TlsRecord) (direction : Direction) (nowMs : UInt64)
    (sequence : UInt32) (body : RecordBody) : RecordEvent where
  direction := toRecordDirection direction
  timestampMs := nowMs
  sequence := sequence
  outerType := record.recordType
  outerLength := u16OrMax record.payload.length
  raw := rawRecord record
  body := body

namespace TrackedConnection

section Run

variable (tp : TlsParser)

/-- The effect of a segment on a tracked connection; an empty segment has none. -/
def step (conn : TrackedConnection) (seg : Segment) : TrackedConnection :=
  if seg.payload.isEmpty then conn else conn.ingest tp seg.direction seg.payload seg.nowMs

/-- The effect of a sequence of segments. -/
def run (conn : TrackedConnection) (segs : List Segment) : TrackedConnection :=
  segs.foldl (step tp) conn

@[simp] theorem run_nil (conn : TrackedConnection) : conn.run tp [] = conn := rfl

@[simp] theorem run_cons (conn : TrackedConnection) (seg : Segment) (segs : List Segment) :
    conn.run tp (seg :: segs) = (conn.step tp seg).run tp segs := rfl

theorem run_append (conn : TrackedConnection) (segs segs' : List Segment) :
    conn.run tp (segs ++ segs') = (conn.run tp segs).run tp segs' := List.foldl_append

theorem run_concat (conn : TrackedConnection) (segs : List Segment) (seg : Segment) :
    conn.run tp (segs ++ [seg]) = (conn.run tp segs).step tp seg := by
  simp [run_append]

end Run

/-- The connection that `ingest` inserts for a new key, with the answer of the resolver. -/
def created (key : ConnectionKey) (nowMs : UInt64) (origin : Origin) : TrackedConnection :=
  { TrackedConnection.new key nowMs with state.handshake.origin := some origin }

/-! ## What a record does to the timeline -/

/-- Whether a ChangeCipherSpec of both directions was seen. -/
def bothCcsSeen (conn : TrackedConnection) : Bool := conn.clientCcsSeen && conn.serverCcsSeen

/-- Whether an ApplicationData record of the direction closes the timeline, itself excluded. -/
def stopsBefore (conn : TrackedConnection) (direction : Direction) : Bool :=
  decide ((applyEncryptedRecord conn direction).encryptedRecordsFromClient ≥ 2) || conn.bothCcsSeen

/-- Whether a Handshake record of the direction closes the timeline, itself included. -/
def stopsAfter (conn : TrackedConnection) (direction : Direction) : Bool :=
  conn.ccsSeen direction && conn.bothCcsSeen

/-- The counters of encrypted records and the marker of the client's Finished. -/
def flight (conn : TrackedConnection) : UInt32 × UInt32 × Bool :=
  (conn.encryptedRecordsFromServer, conn.encryptedRecordsFromClient, conn.sawClientFinishedMarker)

theorem flight_eq_iff {conn : TrackedConnection} {s c : UInt32} {m : Bool} :
    conn.flight = (s, c, m) ↔ conn.encryptedRecordsFromServer = s ∧
      conn.encryptedRecordsFromClient = c ∧ conn.sawClientFinishedMarker = m := by
  unfold flight
  rw [Prod.mk.injEq, Prod.mk.injEq]

/-- Whether a record of the direction closes the timeline. -/
def closes (conn : TrackedConnection) (direction : Direction) (record : TlsRecord) : Bool :=
  match record.recordType with
  | .handshake => conn.stopsAfter direction
  | .applicationData => conn.stopsBefore direction
  | _ => false

/-- Whether a record is appended to the timeline. -/
def logs (conn : TrackedConnection) (direction : Direction) (record : TlsRecord) : Bool :=
  record.recordType.eligible && !conn.stopLogging &&
    !(decide (record.recordType = .applicationData) && conn.stopsBefore direction) &&
    decide (conn.state.records.length < RECORD_LOG_CAP)

/-- A timeline that never grows again. -/
def Closed (conn : TrackedConnection) : Prop :=
  conn.stopLogging ∨ RECORD_LOG_CAP ≤ conn.state.records.length

/-! ## What a segment completes -/

/-- The buffered bytes of the direction, extended by a payload, fit the reassembly buffer and contain
no oversized record header. -/
def Clean (conn : TrackedConnection) (direction : Direction) (payload : Bytes) : Prop :=
  (conn.buf direction).length + payload.length ≤ MAX_REASSEMBLY_BYTES ∧
    (parseRecords (conn.buf direction ++ payload)).isOk

/-- Whether the segment would overflow the reassembly buffer. -/
def overflows (conn : TrackedConnection) (seg : Segment) : Prop :=
  (conn.buf seg.direction).length + seg.payload.length > MAX_REASSEMBLY_BYTES

instance (conn : TrackedConnection) (seg : Segment) : Decidable (conn.overflows seg) :=
  inferInstanceAs (Decidable (_ > _))

/-- The peeling of the buffered bytes of the segment's direction, extended by the segment. -/
def peeled (conn : TrackedConnection) (seg : Segment) : Lib.Peeled UInt8 TlsRecord ℕ :=
  recordSplitter.peel (conn.buf seg.direction ++ seg.payload)

/-- Whether the segment leaves the connection through one of the two error exits of `ingest`. -/
def fails (conn : TrackedConnection) (seg : Segment) : Prop :=
  seg.payload ≠ [] ∧ (conn.overflows seg ∨ ¬ (parseRecords (conn.buf seg.direction ++ seg.payload)).isOk)

/-- The connection touched at a time. -/
def touched (conn : TrackedConnection) (nowMs : UInt64) : TrackedConnection :=
  { conn with state.lastSeenMs := nowMs }

/-- The connection touched at a time, with a fatal error. -/
def errored (conn : TrackedConnection) (nowMs : UInt64) (text : String) : TrackedConnection :=
  { conn.touched nowMs with
    state.handshake.stage := .errored
    state.handshake.error := some text }

/-- The records that the record loop processes when the segment is ingested, each with the bytes it
was cut from. -/
def framed (conn : TrackedConnection) (seg : Segment) : List (TlsRecord × Bytes) :=
  if seg.payload = [] ∨ conn.overflows seg then []
  else
    match (conn.peeled seg).stop with
    | some _ => []
    | none => (conn.peeled seg).frames

/-- The state of the record loop of a segment that does not fail, after the records `rs`. -/
def midway (tp : TlsParser) (conn : TrackedConnection) (seg : Segment) (rs : List TlsRecord) :
    TrackedConnection :=
  rs.foldl (processRecord tp seg.direction seg.nowMs)
    ((conn.touched seg.nowMs).setBuf seg.direction (conn.peeled seg).rest)

/-- The records that the record loop processes in a run, in processing order, each with its direction
and the bytes it was cut from. -/
def processed (tp : TlsParser) : TrackedConnection → List Segment →
    List (Direction × TlsRecord × Bytes)
  | _, [] => []
  | conn, seg :: segs =>
    (conn.framed seg).map (seg.direction, ·) ++ processed tp (conn.step tp seg) segs

/-- The bytes of the eligible records among the processed ones. -/
def eligibleSlices (l : List (Direction × TlsRecord × Bytes)) : List Bytes :=
  (l.filter fun f => f.2.1.recordType.eligible).map fun f => f.2.2

/-! ## Timestamps -/

/-- The connection with all timestamps erased. -/
def untimed (conn : TrackedConnection) : TrackedConnection :=
  { conn with
    state.firstSeenMs := 0
    state.lastSeenMs := 0
    state.records := conn.state.records.map RecordEvent.untimed }

/-- The untimed connection with its reassembly buffers emptied: what the record loop acts on. -/
def core (conn : TrackedConnection) : TrackedConnection :=
  { conn.untimed with clientToServerBuf := [], serverToClientBuf := [] }

end TrackedConnection

end SeeHandshake

import SeeHandshake.Tracker.Runs

/-!
# Runs of the whole tracker

The tracker as a state machine over its calls: ingestion of payloads of any connections, and stale
eviction.
-/

namespace SeeHandshake

/-- The arguments of a call of `ingest`. -/
structure Call where
  key : ConnectionKey
  direction : Direction
  /-- The first endpoint, as passed to the resolver. -/
  endpointA : SocketAddr
  /-- The second endpoint, as passed to the resolver. -/
  endpointB : SocketAddr
  payload : Bytes
  nowMs : UInt64
  deriving DecidableEq, Repr

/-- The segment that a call ingests. -/
def Call.segment (c : Call) : Segment := ⟨c.direction, c.payload, c.nowMs⟩

namespace ConnectionTracker

variable {ρ : Type}

section Calls

variable [OriginResolver ρ] (tp : TlsParser)

/-- The tracker after a call of `ingest`. -/
def call (t : ConnectionTracker ρ) (c : Call) : ConnectionTracker ρ :=
  (t.ingest tp c.key c.direction c.endpointA c.endpointB c.payload c.nowMs).2

/-- The tracker after a sequence of calls of `ingest`. -/
def calls (t : ConnectionTracker ρ) (cs : List Call) : ConnectionTracker ρ :=
  cs.foldl (call tp) t

@[simp] theorem calls_nil (t : ConnectionTracker ρ) : t.calls tp [] = t := rfl

@[simp] theorem calls_cons (t : ConnectionTracker ρ) (c : Call) (cs : List Call) :
    t.calls tp (c :: cs) = (t.call tp c).calls tp cs := rfl

theorem calls_append (t : ConnectionTracker ρ) (cs ds : List Call) :
    t.calls tp (cs ++ ds) = (t.calls tp cs).calls tp ds := List.foldl_append

end Calls

/-- The connection that a call with a nonempty payload works on, a new one if the key is not tracked,
and the resolver afterwards. -/
def target [OriginResolver ρ] (t : ConnectionTracker ρ) (c : Call) : TrackedConnection × ρ :=
  match t.connections.lookup c.key with
  | some conn => (conn, t.resolver)
  | none =>
    let answer := OriginResolver.resolve t.resolver c.endpointA c.endpointB
    ({ TrackedConnection.new c.key c.nowMs with state.handshake.origin := some answer.1 }, answer.2)

/-! ## Segmentation -/

/-- The unframed bytes of a direction of a connection. -/
def buffered (t : ConnectionTracker ρ) (key : ConnectionKey) (direction : Direction) : Bytes :=
  match t.connections.lookup key with
  | some conn => conn.buf direction
  | none => []

/-- The buffered bytes, extended by the payload, fit the reassembly buffer and contain no oversized
record header. -/
def Clean (t : ConnectionTracker ρ) (c : Call) : Prop :=
  (t.buffered c.key c.direction).length + c.payload.length ≤ MAX_REASSEMBLY_BYTES ∧
    (parseRecords (t.buffered c.key c.direction ++ c.payload)).isOk

/-- Every call of a sequence is clean when it is made. -/
def CleanRun [OriginResolver ρ] (tp : TlsParser) : ConnectionTracker ρ → List Call → Prop
  | _, [] => True
  | t, c :: cs => t.Clean c ∧ CleanRun tp (t.call tp c) cs

/-- Two trackers that track the same connections up to timestamps. -/
structure SameUpToTime (t t' : ConnectionTracker ρ) : Prop where
  staleTimeoutMs : t.staleTimeoutMs = t'.staleTimeoutMs
  resolver : t.resolver = t'.resolver
  lookup : ∀ key, (t.connections.lookup key).map TrackedConnection.untimed =
    (t'.connections.lookup key).map TrackedConnection.untimed

end ConnectionTracker

/-- Two calls with the same key, direction and endpoints. -/
structure Call.SameStream (c c' : Call) : Prop where
  key : c.key = c'.key
  direction : c.direction = c'.direction
  endpointA : c.endpointA = c'.endpointA
  endpointB : c.endpointB = c'.endpointB

/-- The calls `ds` ingest the payload of `c` in nonempty parts. -/
structure Call.CutInto (c : Call) (ds : List Call) : Prop where
  payload : (ds.map Call.payload).flatten = c.payload
  ne_nil : ∀ d ∈ ds, d.payload ≠ []
  stream : ∀ d ∈ ds, c.SameStream d

/-- The calls in the second list ingest the payloads of those in the first one, each in nonempty
parts. -/
inductive Segmentation : List Call → List Call → Prop where
  | nil : Segmentation [] []
  | cons {c : Call} {cs ds es : List Call} :
      c.CutInto ds → Segmentation cs es → Segmentation (c :: cs) (ds ++ es)

end SeeHandshake

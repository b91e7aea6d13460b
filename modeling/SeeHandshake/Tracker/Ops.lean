import SeeHandshake.Tracker.Calls

/-!
# Ingestion and eviction

Runs of the tracker in which calls of `ingest` for any keys alternate with calls of `evict_stale`, in
any order and at any times; and what such a run looks like to a single key.
-/

namespace SeeHandshake

/-- A call of one of the operations of the tracker. -/
inductive TrackerOp where
  | ingest (c : Call)
  | evictStale (nowMs : UInt64)
  deriving DecidableEq, Repr

/-- The call brings bytes of the connection. -/
def Call.Touches (c : Call) (key : ConnectionKey) : Prop := c.key = key ∧ c.payload ≠ []

instance (c : Call) (key : ConnectionKey) : Decidable (c.Touches key) :=
  inferInstanceAs (Decidable (_ ∧ _))

/-- The endpoints of a call, as passed to the resolver. -/
def Call.endpoints (c : Call) : SocketAddr × SocketAddr := (c.endpointA, c.endpointB)

namespace ConnectionTracker

variable {ρ : Type}

/-- The key is tracked. -/
def Tracks (t : ConnectionTracker ρ) (key : ConnectionKey) : Prop :=
  (t.connections.lookup key).isSome

instance (t : ConnectionTracker ρ) (key : ConnectionKey) : Decidable (t.Tracks key) :=
  inferInstanceAs (Decidable (_ = true))

variable [OriginResolver ρ] (tp : TlsParser)

/-- The tracker after an operation. -/
def op (t : ConnectionTracker ρ) : TrackerOp → ConnectionTracker ρ
  | .ingest c => t.call tp c
  | .evictStale nowMs => (t.evictStale nowMs).2

/-- The tracker after a sequence of operations. -/
def ops (t : ConnectionTracker ρ) (os : List TrackerOp) : ConnectionTracker ρ := os.foldl (op tp) t

theorem ops_concat (t : ConnectionTracker ρ) (os : List TrackerOp) (o : TrackerOp) :
    t.ops tp (os ++ [o]) = (t.ops tp os).op tp o := by
  simp [ops]

/-- The calls with the key since the key was last evicted, after the calls `own`. -/
def ownSince (key : ConnectionKey) :
    ConnectionTracker ρ → List Call → List TrackerOp → List Call
  | _, own, [] => own
  | t, own, .ingest c :: os =>
    ownSince key (t.op tp (.ingest c)) (if c.key = key then own ++ [c] else own) os
  | t, own, .evictStale nowMs :: os =>
    let t' := t.op tp (.evictStale nowMs)
    ownSince key t' (if t.Tracks key ∧ ¬ t'.Tracks key then [] else own) os

/-- The calls that start a tracked lifetime: their key is not tracked before, and tracked after. -/
def openings : ConnectionTracker ρ → List TrackerOp → List Call
  | _, [] => []
  | t, .ingest c :: os =>
    let t' := t.op tp (.ingest c)
    (if ¬ t.Tracks c.key ∧ t'.Tracks c.key then [c] else []) ++ openings t' os
  | t, .evictStale nowMs :: os => openings (t.op tp (.evictStale nowMs)) os

end ConnectionTracker

/-! ## Resolvers -/

/-- A resolver after a sequence of queries. -/
def OriginResolver.asked {ρ : Type} [OriginResolver ρ] (r : ρ)
    (queries : List (SocketAddr × SocketAddr)) : ρ :=
  queries.foldl (fun r q => (OriginResolver.resolve r q.1 q.2).2) r

/-- Whatever the resolver was asked before, its answer is a function of the endpoints. -/
def OriginResolver.AnswersBy {ρ : Type} [OriginResolver ρ] (r : ρ)
    (answer : SocketAddr → SocketAddr → Origin) : Prop :=
  ∀ queries a b, (OriginResolver.resolve (asked r queries) a b).1 = answer a b

/-- A resolver that keeps a log of its queries. -/
structure Recorder (ρ : Type) where
  inner : ρ
  /-- The queries so far. -/
  log : List (SocketAddr × SocketAddr)

instance {ρ : Type} [OriginResolver ρ] : OriginResolver (Recorder ρ) where
  resolve r a b :=
    let (origin, inner) := OriginResolver.resolve r.inner a b
    (origin, ⟨inner, r.log ++ [(a, b)]⟩)

/-! ## One key -/

namespace TrackedConnection

/-- What an operation does to the connection of a key, if the resolver gives `answer`. -/
def keyOp (tp : TlsParser) (timeoutMs : UInt64) (answer : SocketAddr → SocketAddr → Origin)
    (key : ConnectionKey) (conn? : Option TrackedConnection) : TrackerOp → Option TrackedConnection
  | .ingest c =>
    if c.Touches key then
      let conn := conn?.getD (created key c.nowMs (answer c.endpointA c.endpointB))
      some (conn.ingest tp c.direction c.payload c.nowMs)
    else conn?
  | .evictStale nowMs =>
    conn?.filter fun conn => conn.state.lastSeenMs ≥ u64SaturatingSub nowMs timeoutMs

end TrackedConnection

/-- Whether an operation may change the connection of a key. -/
def TrackerOp.concerns (key : ConnectionKey) : TrackerOp → Bool
  | .ingest c => decide (c.Touches key)
  | .evictStale _ => true

end SeeHandshake

import SeeHandshake.Proofs.SegmentProofs
import SeeHandshake.Tracker.Calls

/-!
# Proofs: what one call does to the tracker
-/

namespace SeeHandshake.ConnectionTracker

open Lib

variable {ρ : Type} [OriginResolver ρ] {tp : TlsParser} {t : ConnectionTracker ρ} {c : Call}

/-- A call with an empty payload does nothing. -/
theorem call_of_nil (h : c.payload = []) : t.call tp c = t := by
  unfold call ingest
  simp only [h, List.isEmpty_nil, if_true]

/-- Any other call ingests the payload in the connection of its key. -/
theorem call_of_ne_nil (h : c.payload ≠ []) :
    t.call tp c =
      { t with
        connections := t.connections.insert c.key
          ((t.target c).1.ingest tp c.direction c.payload c.nowMs)
        resolver := (t.target c).2 } := by
  unfold call ingest target
  refine (congrArg Prod.snd (if_neg (by simpa using h))).trans ?_
  cases t.connections.lookup c.key <;> rfl

@[simp] theorem call_staleTimeoutMs : (t.call tp c).staleTimeoutMs = t.staleTimeoutMs := by
  by_cases h : c.payload = []
  · rw [call_of_nil h]
  · rw [call_of_ne_nil h]

theorem lookup_call (h : c.payload ≠ []) (key : ConnectionKey) :
    (t.call tp c).connections.lookup key =
      if key = c.key then some ((t.target c).1.ingest tp c.direction c.payload c.nowMs)
      else t.connections.lookup key := by
  rw [call_of_ne_nil h]
  split_ifs with hk
  · rw [hk, AList.lookup_insert]
  · rw [AList.lookup_insert_ne hk]

theorem resolver_call (h : c.payload ≠ []) : (t.call tp c).resolver = (t.target c).2 := by
  rw [call_of_ne_nil h]

/-- A tracked connection is the target of the calls with its key. -/
theorem target_of_some {conn : TrackedConnection} (h : t.connections.lookup c.key = some conn) :
    t.target c = (conn, t.resolver) := by
  unfold target
  rw [h]

/-- Otherwise the resolver is asked for the origin of a new connection. -/
theorem target_of_none (h : t.connections.lookup c.key = none) :
    t.target c =
      (TrackedConnection.created c.key c.nowMs
        (OriginResolver.resolve t.resolver c.endpointA c.endpointB).1,
        (OriginResolver.resolve t.resolver c.endpointA c.endpointB).2) := by
  unfold target
  rw [h]
  rfl

/-- The buffer of the target is the buffer of the key. -/
theorem target_buf (d : Direction) : (t.target c).1.buf d = t.buffered c.key d := by
  unfold target buffered
  cases t.connections.lookup c.key with
  | some conn => rfl
  | none => cases d <;> rfl

/-- A call changes one buffer, that of its key and its direction. -/
theorem buffered_call (tp : TlsParser) (t : ConnectionTracker ρ) {key : ConnectionKey}
    {d : Direction} (h : ¬ (key = c.key ∧ d = c.direction)) :
    (t.call tp c).buffered key d = t.buffered key d := by
  by_cases hne : c.payload = []
  · rw [call_of_nil hne]
  by_cases hkey : key = c.key
  · have hd : d ≠ c.segment.direction := fun hd => h ⟨hkey, hd⟩
    have hstep : ((t.target c).1.step tp c.segment).buf d = (t.target c).1.buf d :=
      TrackedConnection.step_buf_of_ne tp hd
    rw [TrackedConnection.step_of_ne_nil hne] at hstep
    rw [hkey, ← target_buf (t := t), ← hstep]
    unfold buffered
    rw [lookup_call hne, if_pos rfl]
    rfl
  · unfold buffered
    rw [lookup_call hne, if_neg hkey]

end SeeHandshake.ConnectionTracker

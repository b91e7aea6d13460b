import Mathlib.Data.List.Induction

/-!
# Systems with actions

A system is a step function on states and actions; an action that is not enabled has no step. The rules
below prove something of every run, from what one step does: a property of the state and of the actions
that led to it, a bound on the length of a run, that a run can be finished, and that a position is reached.
-/

namespace SeeHandshake.Lib

variable {σ α : Type*} {step : σ → α → Option σ}

/-- The state after a sequence of actions, each of which is enabled in its turn. -/
def runs (step : σ → α → Option σ) (s : σ) : List α → Option σ
  | [] => some s
  | a :: as => (step s a).bind fun s' => runs step s' as

/-- No action is enabled. -/
def Blocked (step : σ → α → Option σ) (s : σ) : Prop := ∀ a, step s a = none

@[simp] theorem runs_nil (s : σ) : runs step s [] = some s := rfl

theorem runs_cons_eq_some {s s' : σ} {a : α} {as : List α} :
    runs step s (a :: as) = some s' ↔ ∃ t, step s a = some t ∧ runs step t as = some s' :=
  Option.bind_eq_some_iff

theorem runs_append (s : σ) (as bs : List α) :
    runs step s (as ++ bs) = (runs step s as).bind fun s' => runs step s' bs := by
  induction as generalizing s with
  | nil => rfl
  | cons a as ih =>
    rw [List.cons_append, runs, runs, Option.bind_assoc]
    exact Option.bind_congr fun t _ => ih t

theorem runs_concat_eq_some {s s' : σ} {as : List α} {a : α} :
    runs step s (as ++ [a]) = some s' ↔ ∃ t, runs step s as = some t ∧ step t a = some s' := by
  rw [runs_append, Option.bind_eq_some_iff]
  refine exists_congr fun t => and_congr_right fun _ => ?_
  rw [runs_cons_eq_some]
  constructor
  · rintro ⟨u, hstep, hu⟩
    rw [hstep, ← Option.some.inj hu]
  · intro hstep
    exact ⟨s', hstep, rfl⟩

/-- What holds before any action, and is kept by a step, holds of every run. -/
theorem runs_history {I : List α → σ → Prop} {s₀ : σ} (hnil : I [] s₀)
    (hstep : ∀ as s a s', runs step s₀ as = some s → I as s → step s a = some s' → I (as ++ [a]) s')
    {as : List α} {s : σ} (h : runs step s₀ as = some s) : I as s := by
  induction as using List.reverseRecOn generalizing s with
  | nil =>
    obtain rfl := Option.some.inj h
    exact hnil
  | append_singleton as a ih =>
    obtain ⟨t, hrun, ha⟩ := runs_concat_eq_some.mp h
    exact hstep as t a s hrun (ih hrun) ha

/-- What holds of a state and is kept by a step holds after every run from there. -/
theorem runs_invariant {J : σ → Prop} (hstep : ∀ s a s', J s → step s a = some s' → J s')
    {s s' : σ} {as : List α} (hs : J s) (h : runs step s as = some s') : J s' :=
  @runs_history _ _ step (fun _ => J) s hs (fun _ t a t' _ ht ha => hstep t a t' ht ha) as s' h

/-- Where every step lowers a rank, a run is no longer than the rank of the state it starts in. -/
theorem runs_rank {J : σ → Prop} {rank : σ → ℕ}
    (hstep : ∀ s a s', J s → step s a = some s' → J s' ∧ rank s' < rank s)
    {s s' : σ} {as : List α} (hs : J s) (h : runs step s as = some s') :
    J s' ∧ as.length + rank s' ≤ rank s := by
  induction as generalizing s with
  | nil =>
    obtain rfl := Option.some.inj h
    exact ⟨hs, by simp⟩
  | cons a as ih =>
    obtain ⟨t, ha, hrest⟩ := runs_cons_eq_some.mp h
    obtain ⟨ht, hlt⟩ := hstep s a t hs ha
    obtain ⟨hs', hle⟩ := ih ht hrest
    refine ⟨hs', ?_⟩
    rw [List.length_cons]
    omega

/-- Where moreover a state is only blocked when the system is done, every run can be finished. -/
theorem exists_runs_done {J done : σ → Prop} {rank : σ → ℕ}
    (hstep : ∀ s a s', J s → step s a = some s' → J s' ∧ rank s' < rank s)
    (hblocked : ∀ s, J s → Blocked step s → done s) {s : σ} (hs : J s) :
    ∃ as s', runs step s as = some s' ∧ done s' := by
  induction hn : rank s using Nat.strongRecOn generalizing s with
  | ind n ih =>
    by_cases hend : Blocked step s
    · exact ⟨[], s, rfl, hblocked s hs hend⟩
    · unfold Blocked at hend
      push Not at hend
      obtain ⟨a, ha⟩ := hend
      obtain ⟨t, ht⟩ := Option.ne_none_iff_exists'.mp ha
      obtain ⟨hJ, hlt⟩ := hstep s a t hs ht
      obtain ⟨as, s', hrun, hdone⟩ := ih (rank t) (hn ▸ hlt) hJ rfl
      exact ⟨a :: as, s', runs_cons_eq_some.mpr ⟨t, ht, hrun⟩, hdone⟩

/-! ## Positions -/

section Moves

variable {move : σ → α → σ} {J : σ → Prop} {pos : σ → ℕ} {target : ℕ} {back forth : α}

/-- Where one action moves a position back by one and another moves it forth by one, as long as it is not there,
the target is reached. -/
theorem exists_moves (hback : ∀ s, J s → target < pos s → J (move s back) ∧ pos (move s back) + 1 = pos s)
    (hforth : ∀ s, J s → pos s < target → J (move s forth) ∧ pos (move s forth) = pos s + 1) {s : σ} (hs : J s) :
    ∃ as : List α, as.length ≤ max (pos s) target ∧ J (as.foldl move s) ∧ pos (as.foldl move s) = target := by
  -- The distance decreases; one of its two summands is zero.
  suffices h : ∃ as : List α, as.length ≤ (pos s - target) + (target - pos s) ∧ J (as.foldl move s) ∧
      pos (as.foldl move s) = target by
    obtain ⟨as, hlength, hJ, hpos⟩ := h
    exact ⟨as, by omega, hJ, hpos⟩
  induction hn : (pos s - target) + (target - pos s) generalizing s with
  | zero => exact ⟨[], Nat.le_refl 0, hs, show pos s = target by omega⟩
  | succ n ih =>
    rcases Nat.lt_or_ge target (pos s) with hlt | hle
    · obtain ⟨hnext, hpos⟩ := hback s hs hlt
      obtain ⟨as, hlength, hdone⟩ := ih hnext (by omega)
      exact ⟨back :: as, Nat.succ_le_succ hlength, hdone⟩
    · obtain ⟨hnext, hpos⟩ := hforth s hs (by omega)
      obtain ⟨as, hlength, hdone⟩ := ih hnext (by omega)
      exact ⟨forth :: as, Nat.succ_le_succ hlength, hdone⟩

end Moves

end SeeHandshake.Lib

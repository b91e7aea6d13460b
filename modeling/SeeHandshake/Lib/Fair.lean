import Mathlib.Data.Nat.Init
import SeeHandshake.Lib.System

/-!
# Endless executions

An execution takes a step at every time, and is fair to a class of actions if one of them is taken whenever some
of them stay enabled. Where such an action brings a rank down and no other brings it up, a goal is reached.
-/

namespace SeeHandshake.Lib

variable {σ α : Type*} {step : σ → α → Option σ}

/-- An endless sequence of steps. -/
structure Execution (step : σ → α → Option σ) where
  state : ℕ → σ
  action : ℕ → α
  next : ∀ n, step (state n) (action n) = some (state (n + 1))

/-- Some action of a class is enabled. -/
def Enabled (step : σ → α → Option σ) (C : α → Prop) (s : σ) : Prop := ∃ a, C a ∧ step s a ≠ none

namespace Execution

variable (e : Execution step)

/-- Weak fairness: what stays enabled is taken at some time. -/
def Fair (C : α → Prop) : Prop :=
  ∀ n, (∀ m, n ≤ m → Enabled step C (e.state m)) → ∃ m, n ≤ m ∧ C (e.action m)

variable {e}

/-- The beginning of an execution is a run. -/
theorem runs_state (n : ℕ) : runs step (e.state 0) ((List.range n).map e.action) = some (e.state n) := by
  induction n with
  | zero => rfl
  | succ n ih =>
    rw [List.range_succ, List.map_append]
    exact runs_concat_eq_some.mpr ⟨_, ih, e.next n⟩

/-- What is kept from a time on. -/
theorem invariant {J : σ → Prop} {n₀ : ℕ} (hstep : ∀ n, n₀ ≤ n → J (e.state n) → J (e.state (n + 1))) {n : ℕ}
    (hn : n₀ ≤ n) (h : J (e.state n)) {m : ℕ} (hm : n ≤ m) : J (e.state m) := by
  induction m, hm using Nat.le_induction with
  | base => exact h
  | succ m hm ih => exact hstep m (Nat.le_trans hn hm) ih

/-- A goal is reached if a fair class of actions, enabled until then, brings a rank down that no action brings
up. -/
theorem exists_goal {C : α → Prop} {J G : σ → Prop} {μ : σ → ℕ} {n₀ : ℕ} (hfair : e.Fair C)
    (henabled : ∀ n, n₀ ≤ n → J (e.state n) → ¬ G (e.state n) → Enabled step C (e.state n))
    (hstep : ∀ n, n₀ ≤ n → J (e.state n) → ¬ G (e.state n) →
      G (e.state (n + 1)) ∨ J (e.state (n + 1)) ∧ μ (e.state (n + 1)) ≤ μ (e.state n) ∧
        (C (e.action n) → μ (e.state (n + 1)) < μ (e.state n)))
    {n : ℕ} (hn : n₀ ≤ n) (h : J (e.state n)) : ∃ m, n ≤ m ∧ G (e.state m) := by
  induction hr : μ (e.state n) using Nat.strongRecOn generalizing n with
  | ind r ih =>
    by_contra hnever
    push Not at hnever
    -- Until the goal, the class stays enabled and the rank does not rise.
    have hkept : ∀ m, n ≤ m → J (e.state m) ∧ μ (e.state m) ≤ r := by
      intro m hm
      induction m, hm using Nat.le_induction with
      | base => exact ⟨h, Nat.le_of_eq hr⟩
      | succ m hm ihm =>
        rcases hstep m (Nat.le_trans hn hm) ihm.1 (hnever m hm) with hgoal | ⟨hJ, hle, -⟩
        · exact absurd hgoal (hnever (m + 1) (Nat.le_succ_of_le hm))
        · exact ⟨hJ, Nat.le_trans hle ihm.2⟩
    obtain ⟨m, hm, hC⟩ := hfair n fun m hm =>
      henabled m (Nat.le_trans hn hm) (hkept m hm).1 (hnever m hm)
    have hle : n ≤ m + 1 := Nat.le_succ_of_le hm
    rcases hstep m (Nat.le_trans hn hm) (hkept m hm).1 (hnever m hm) with hgoal | ⟨hJ, -, hlt⟩
    · exact hnever (m + 1) hle hgoal
    · obtain ⟨k, hk, hgoal⟩ := ih _ (Nat.lt_of_lt_of_le (hlt hC) (hkept m hm).2) (Nat.le_trans hn hle) hJ rfl
      exact hnever k (Nat.le_trans hle hk) hgoal

end Execution

/-- A sequence of actions, beginnings of which are runs of any length, makes an execution. -/
theorem exists_execution {s₀ : σ} {action : ℕ → α}
    (h : ∀ n, ∃ m, n ≤ m ∧ (runs step s₀ ((List.range m).map action)).isSome) :
    ∃ e : Execution step, e.state 0 = s₀ ∧ e.action = action := by
  have hsome : ∀ n, ∃ s, runs step s₀ ((List.range n).map action) = some s := by
    intro n
    obtain ⟨m, hm, hrun⟩ := h n
    obtain ⟨s, hs⟩ := Option.isSome_iff_exists.mp hrun
    rw [← Nat.add_sub_cancel' hm, List.range_add, List.map_append, runs_append] at hs
    obtain ⟨t, ht, -⟩ := Option.bind_eq_some_iff.mp hs
    exact ⟨t, ht⟩
  choose state hstate using hsome
  refine ⟨⟨state, action, fun n => ?_⟩, (Option.some.inj (hstate 0)).symm, rfl⟩
  have hnext := hstate (n + 1)
  rw [List.range_succ, List.map_append] at hnext
  obtain ⟨t, ht, hstep⟩ := runs_concat_eq_some.mp hnext
  obtain rfl := Option.some.inj ((hstate n).symm.trans ht)
  exact hstep

/-! ## Lassos -/

/-- A sequence of actions, and after it a turn over and over. -/
def lasso (as turn : List α) (h : 0 < turn.length) (n : ℕ) : α :=
  as[n]?.getD (turn.get ⟨(n - as.length) % turn.length, Nat.mod_lt _ h⟩)

section Lasso

variable {as turn : List α} (h : 0 < turn.length)

include h

theorem lasso_add (k : ℕ) {i : ℕ} (hi : i < turn.length) :
    lasso as turn h (as.length + (k * turn.length + i)) = turn.get ⟨i, hi⟩ := by
  have hmod : (as.length + (k * turn.length + i) - as.length) % turn.length = i := by
    rw [Nat.add_sub_cancel_left, Nat.mul_comm, Nat.mul_add_mod, Nat.mod_eq_of_lt hi]
  simp only [lasso, hmod, List.getElem?_eq_none (Nat.le_add_right _ _), Option.getD_none]

theorem lasso_mem {n : ℕ} (hn : as.length ≤ n) : lasso as turn h n ∈ turn := by
  simp only [lasso, List.getElem?_eq_none hn, Option.getD_none]
  exact List.get_mem _ _

/-- Every action of the turn comes again and again. -/
theorem exists_lasso_eq {a : α} (ha : a ∈ turn) (n : ℕ) : ∃ m, n ≤ m ∧ lasso as turn h m = a := by
  obtain ⟨⟨i, hi⟩, hget⟩ := List.mem_iff_get.mp ha
  have hle := Nat.le_mul_of_pos_right n h
  exact ⟨as.length + (n * turn.length + i), by omega, (lasso_add h n hi).trans hget⟩

theorem map_lasso (k : ℕ) : (List.range (as.length + k * turn.length)).map (lasso as turn h) =
    as ++ (List.replicate k turn).flatten := by
  induction k with
  | zero =>
    rw [Nat.zero_mul, Nat.add_zero, List.replicate_zero, List.flatten_nil, List.append_nil]
    refine List.ext_getElem (by simp) fun i _ hi => ?_
    simp [lasso, hi]
  | succ k ih =>
    rw [Nat.succ_mul, ← Nat.add_assoc, List.range_add, List.map_append, ih, List.replicate_succ',
      List.flatten_concat, List.append_assoc, List.map_map]
    refine congrArg _ (congrArg _ (List.ext_getElem (by simp) fun i _ hi => ?_))
    simpa [Nat.add_assoc] using @lasso_add α as turn h k i hi

end Lasso

/-- After a run, a turn that leads back to where it is enabled can be repeated forever. -/
theorem exists_lasso {J : σ → Prop} {s₀ s : σ} {as turn : List α} (h : 0 < turn.length)
    (hrun : runs step s₀ as = some s) (hs : J s) (hturn : ∀ s, J s → ∃ s', runs step s turn = some s' ∧ J s') :
    ∃ e : Execution step, e.state 0 = s₀ ∧ e.state as.length = s ∧ e.action = lasso as turn h := by
  have hruns : ∀ k, ∃ t, runs step s₀ (as ++ (List.replicate k turn).flatten) = some t ∧ J t := by
    intro k
    induction k with
    | zero => exact ⟨s, by simpa using hrun, hs⟩
    | succ k ih =>
      obtain ⟨t, ht, hJ⟩ := ih
      obtain ⟨t', ht', hJ'⟩ := hturn t hJ
      refine ⟨t', ?_, hJ'⟩
      rw [List.replicate_succ', List.flatten_concat, ← List.append_assoc, runs_append, ht]
      exact ht'
  have hlong : ∀ n, ∃ m, n ≤ m ∧ (runs step s₀ ((List.range m).map (lasso as turn h))).isSome := by
    intro n
    obtain ⟨t, ht, -⟩ := hruns n
    have hle := Nat.le_mul_of_pos_right n h
    refine ⟨as.length + n * turn.length, by omega, ?_⟩
    rw [map_lasso, ht]
    rfl
  obtain ⟨e, hzero, haction⟩ := exists_execution hlong
  have hstate := e.runs_state as.length
  have hfirst := @map_lasso α as turn h 0
  rw [Nat.zero_mul, Nat.add_zero, List.replicate_zero, List.flatten_nil, List.append_nil] at hfirst
  rw [hzero, haction, hfirst, hrun] at hstate
  exact ⟨e, hzero, (Option.some.inj hstate).symm, haction⟩

end SeeHandshake.Lib

import Mathlib.Data.List.Basic

/-!
# Simulation between runs of a state machine

A state machine is a step function, and a run is a `foldl` of it over its inputs. A relation between
states that the steps keep relates whole runs: of the same inputs, and of the inputs with the hidden
ones left out.
-/

namespace SeeHandshake.Lib

variable {σ α : Type*} {step : σ → α → σ} {R : σ → σ → Prop}

/-- A split of `xs ++ [x]` is at `x`, or it is a split of `xs`. -/
theorem concat_eq_append_cons_iff {xs a b : List α} {x y : α} :
    xs ++ [x] = a ++ y :: b ↔ (a = xs ∧ y = x ∧ b = []) ∨ ∃ c, b = c ++ [x] ∧ xs = a ++ y :: c := by
  constructor
  · intro h
    rcases List.eq_nil_or_concat b with rfl | ⟨c, z, rfl⟩
    · obtain ⟨rfl, hx⟩ := List.append_inj' h rfl
      exact Or.inl ⟨rfl, (List.singleton_inj.mp hx).symm, rfl⟩
    · rw [List.concat_eq_append, ← List.cons_append, ← List.append_assoc] at h
      obtain ⟨rfl, hz⟩ := List.append_inj' h rfl
      obtain rfl := List.singleton_inj.mp hz
      exact Or.inr ⟨c, List.concat_eq_append, rfl⟩
  · rintro (⟨rfl, rfl, rfl⟩ | ⟨c, rfl, rfl⟩)
    · rfl
    · rw [← List.cons_append, ← List.append_assoc]

/-- There is one split of a list at its last element with a property. -/
theorem last_split_unique {P : α → Prop} {a b a' b' : List α} {x y : α}
    (heq : a ++ x :: b = a' ++ y :: b') (hx : P x) (hy : P y) (hb : ∀ z ∈ b, ¬ P z)
    (hb' : ∀ z ∈ b', ¬ P z) : a = a' ∧ x = y ∧ b = b' := by
  rcases List.append_eq_append_iff.mp heq with ⟨c, ha, hc⟩ | ⟨c, ha, hc⟩
  · cases c with
    | nil =>
      obtain ⟨rfl, rfl⟩ := List.cons.inj hc
      exact ⟨by simp [ha], rfl, rfl⟩
    | cons z c =>
      obtain ⟨-, rfl⟩ := List.cons.inj hc
      exact absurd hy (hb y (by simp))
  · cases c with
    | nil =>
      obtain ⟨rfl, rfl⟩ := List.cons.inj hc
      exact ⟨by simp [ha], rfl, rfl⟩
    | cons z c =>
      obtain ⟨-, rfl⟩ := List.cons.inj hc
      exact absurd hx (hb' x (by simp))

/-- A list with an element that has a property has a last one. -/
theorem exists_last_split {P : α → Prop} {xs : List α} (h : ∃ x ∈ xs, P x) :
    ∃ a x b, xs = a ++ x :: b ∧ P x ∧ ∀ z ∈ b, ¬ P z := by
  induction xs with
  | nil =>
    obtain ⟨x, hx, -⟩ := h
    exact absurd hx List.not_mem_nil
  | cons y xs ih =>
    by_cases hlater : ∃ x ∈ xs, P x
    · obtain ⟨a, x, b, rfl, hx, hb⟩ := ih hlater
      exact ⟨y :: a, x, b, rfl, hx, hb⟩
    · obtain ⟨x, hx, hp⟩ := h
      rcases List.mem_cons.mp hx with rfl | hx
      · exact ⟨[], x, xs, rfl, hp, fun z hz hpz => hlater ⟨z, hz, hpz⟩⟩
      · exact absurd ⟨x, hx, hp⟩ hlater

/-- Something happens in a run of `xs ++ [x]` iff it happens in the run of `xs`, or at `x`. -/
theorem exists_split_concat {P : List α → α → Prop} {xs : List α} {x : α} :
    (∃ a y b, xs ++ [x] = a ++ y :: b ∧ P a y) ↔ (∃ a y b, xs = a ++ y :: b ∧ P a y) ∨ P xs x := by
  constructor
  · rintro ⟨a, y, b, heq, hp⟩
    rcases concat_eq_append_cons_iff.mp heq with ⟨rfl, rfl, -⟩ | ⟨c, -, rfl⟩
    · exact Or.inr hp
    · exact Or.inl ⟨a, y, c, rfl, hp⟩
  · rintro (⟨a, y, b, rfl, hp⟩ | hp)
    · exact ⟨a, y, b ++ [x], concat_eq_append_cons_iff.mpr (Or.inr ⟨b, rfl, rfl⟩), hp⟩
    · exact ⟨xs, x, [], rfl, hp⟩

/-- In the list, `x` satisfies `P`, and every later element satisfies `Q x`. -/
def Since (P : α → Prop) (Q : α → α → Prop) (xs : List α) (x : α) : Prop :=
  ∃ a b, xs = a ++ x :: b ∧ P x ∧ ∀ y ∈ b, Q x y

theorem since_nil {P : α → Prop} {Q : α → α → Prop} {x : α} : ¬ Since P Q [] x := by
  rintro ⟨a, b, heq, -⟩
  simp at heq

/-- The recursive reading of `Since`: at the last element, or before it and kept by it. -/
theorem since_concat {P : α → Prop} {Q : α → α → Prop} {xs : List α} {x z : α} :
    Since P Q (xs ++ [z]) x ↔ (x = z ∧ P z) ∨ (Since P Q xs x ∧ Q x z) := by
  constructor
  · rintro ⟨a, b, heq, hp, hq⟩
    rcases concat_eq_append_cons_iff.mp heq with ⟨-, rfl, -⟩ | ⟨c, rfl, rfl⟩
    · exact Or.inl ⟨rfl, hp⟩
    · obtain ⟨hc, hz⟩ := List.forall_mem_append.mp hq
      exact Or.inr ⟨⟨a, c, rfl, hp, hc⟩, hz z (List.mem_singleton_self z)⟩
  · rintro (⟨rfl, hp⟩ | ⟨⟨a, b, rfl, hp, hq⟩, hz⟩)
    · exact ⟨xs, [], rfl, hp, by simp⟩
    · refine ⟨a, b ++ [z], concat_eq_append_cons_iff.mpr (Or.inr ⟨b, rfl, rfl⟩), hp, ?_⟩
      exact List.forall_mem_append.mpr ⟨hq, List.forall_mem_singleton.mpr hz⟩

/-- What holds of every input of a run when it is read. -/
def AllSteps (step : σ → α → σ) (ok : σ → α → Prop) (s : σ) (xs : List α) : Prop :=
  ∀ a x b, xs = a ++ x :: b → ok (a.foldl step s) x

theorem AllSteps.head {ok : σ → α → Prop} {s : σ} {x : α} {xs : List α}
    (h : AllSteps step ok s (x :: xs)) : ok s x := h [] x xs rfl

theorem AllSteps.tail {ok : σ → α → Prop} {s : σ} {x : α} {xs : List α}
    (h : AllSteps step ok s (x :: xs)) : AllSteps step ok (step s x) xs :=
  fun a y b heq => h (x :: a) y b (by rw [heq, List.cons_append])

theorem AllSteps.of_append {ok : σ → α → Prop} {s : σ} {xs ys : List α}
    (h : AllSteps step ok s (xs ++ ys)) : AllSteps step ok s xs :=
  fun a x b heq => h a x (b ++ ys) (by rw [heq, List.append_assoc, List.cons_append])

theorem allSteps_nil (ok : σ → α → Prop) (s : σ) : AllSteps step ok s [] :=
  fun a x b h => by simp at h

theorem allSteps_cons {ok : σ → α → Prop} {s : σ} {x : α} {xs : List α} :
    AllSteps step ok s (x :: xs) ↔ ok s x ∧ AllSteps step ok (step s x) xs := by
  refine ⟨fun h => ⟨h.head, h.tail⟩, fun ⟨hx, hxs⟩ a y b heq => ?_⟩
  cases a with
  | nil =>
    obtain ⟨rfl, -⟩ := List.cons.inj heq
    exact hx
  | cons z a =>
    obtain ⟨rfl, rfl⟩ := List.cons.inj heq
    exact hxs a y b rfl

theorem allSteps_append {ok : σ → α → Prop} {s : σ} {xs ys : List α} :
    AllSteps step ok s (xs ++ ys) ↔
      AllSteps step ok s xs ∧ AllSteps step ok (xs.foldl step s) ys := by
  induction xs generalizing s with
  | nil => exact (and_iff_right (allSteps_nil ok s)).symm
  | cons x xs ih =>
    rw [List.cons_append, allSteps_cons, allSteps_cons, ih, List.foldl_cons, and_assoc]

instance AllSteps.decidable {ok : σ → α → Prop} [∀ s x, Decidable (ok s x)] :
    ∀ (s : σ) (xs : List α), Decidable (AllSteps step ok s xs)
  | s, [] => isTrue (allSteps_nil ok s)
  | s, x :: xs =>
    have : Decidable (AllSteps step ok (step s x) xs) := AllSteps.decidable (step s x) xs
    decidable_of_iff (ok s x ∧ AllSteps step ok (step s x) xs) allSteps_cons.symm

/-- A measure that no input of a run lowers is not lowered by the run. -/
theorem AllSteps.le {rank : σ → ℕ} {s : σ} {xs : List α}
    (h : AllSteps step (fun s x => rank s ≤ rank (step s x)) s xs) :
    rank s ≤ rank (xs.foldl step s) := by
  induction xs generalizing s with
  | nil => exact Nat.le_refl _
  | cons x xs ih => exact Nat.le_trans h.head (ih h.tail)

/-- Two facts about the inputs of a run that agree in every state of an invariant, at every input of a
kind. -/
theorem allSteps_congr {ok ok' : σ → α → Prop} {I : σ → Prop} {p : α → Prop}
    (keep : ∀ s x, I s → p x → I (step s x)) (agree : ∀ s x, I s → p x → (ok s x ↔ ok' s x))
    {s : σ} {xs : List α} (hs : I s) (hxs : ∀ x ∈ xs, p x) :
    AllSteps step ok s xs ↔ AllSteps step ok' s xs := by
  induction xs generalizing s with
  | nil => exact iff_of_true (allSteps_nil ok s) (allSteps_nil ok' s)
  | cons x xs ih =>
    have hx := hxs x List.mem_cons_self
    rw [allSteps_cons, allSteps_cons, agree s x hs hx,
      ih (keep s x hs hx) fun y hy => hxs y (List.mem_cons_of_mem x hy)]

/-- Leaving out the hidden inputs: visible steps keep the relation on both sides, hidden steps keep it
on the left. -/
theorem foldl_filter_sim {ok : σ → α → Prop} {p : α → Bool}
    (visible : ∀ s t x, R s t → ok s x → p x → R (step s x) (step t x))
    (hidden : ∀ s t x, R s t → ok s x → ¬ p x → R (step s x) t)
    {xs : List α} {s t : σ} (h : R s t) (hok : AllSteps step ok s xs) :
    R (xs.foldl step s) ((xs.filter p).foldl step t) := by
  induction xs generalizing s t with
  | nil => exact h
  | cons x xs ih =>
    rw [List.foldl_cons]
    by_cases hp : p x
    · rw [List.filter_cons_of_pos hp, List.foldl_cons]
      exact ih (visible s t x h hok.head hp) hok.tail
    · rw [List.filter_cons_of_neg hp]
      exact ih (hidden s t x h hok.head hp) hok.tail

end SeeHandshake.Lib

import SeeHandshake.Lib.Simulation

/-!
# Triples about runs

Pre- and postconditions for a sequence of inputs to a state machine: every input is read in a state that
it fits, and the run ends in the postcondition. The rules put a triple about a long sequence together
from triples about its parts.
-/

namespace SeeHandshake.Lib

variable {σ α : Type*} {step : σ → α → σ} {ok : σ → α → Prop} {P Q R : σ → Prop}

/-- From every state of `P`, all inputs of `xs` are read in states that they fit, and the run ends in
`Q`. -/
def Triple (step : σ → α → σ) (ok : σ → α → Prop) (P : σ → Prop) (xs : List α) (Q : σ → Prop) :
    Prop :=
  ∀ s, P s → AllSteps step ok s xs ∧ Q (xs.foldl step s)

namespace Triple

theorem nil (h : ∀ s, P s → Q s) : Triple step ok P [] Q :=
  fun s hs => ⟨allSteps_nil ok s, h s hs⟩

theorem single {x : α} (h : ∀ s, P s → ok s x ∧ Q (step s x)) : Triple step ok P [x] Q :=
  fun s hs => ⟨allSteps_cons.mpr ⟨(h s hs).1, allSteps_nil ok _⟩, (h s hs).2⟩

theorem append {xs ys : List α} (hxs : Triple step ok P xs Q) (hys : Triple step ok Q ys R) :
    Triple step ok P (xs ++ ys) R := by
  intro s hs
  obtain ⟨hall, hmid⟩ := hxs s hs
  obtain ⟨hall', hend⟩ := hys _ hmid
  refine ⟨allSteps_append.mpr ⟨hall, hall'⟩, ?_⟩
  rw [List.foldl_append]
  exact hend

theorem cons {x : α} {xs : List α} (hx : Triple step ok P [x] Q) (hxs : Triple step ok Q xs R) :
    Triple step ok P (x :: xs) R := hx.append hxs

theorem conseq {P' Q' : σ → Prop} {xs : List α} (h : Triple step ok P xs Q) (hP : ∀ s, P' s → P s)
    (hQ : ∀ s, Q s → Q' s) : Triple step ok P' xs Q' :=
  fun s hs => ⟨(h s (hP s hs)).1, hQ _ (h s (hP s hs)).2⟩

/-- Inputs that all keep an assertion. -/
theorem all {xs : List α} (h : ∀ x ∈ xs, Triple step ok P [x] P) : Triple step ok P xs P := by
  induction xs with
  | nil => exact nil fun s hs => hs
  | cons x xs ih =>
    exact (h x List.mem_cons_self).cons (ih fun y hy => h y (List.mem_cons_of_mem x hy))

end Triple

end SeeHandshake.Lib

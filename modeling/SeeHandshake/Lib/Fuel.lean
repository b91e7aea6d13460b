import Mathlib.Data.Nat.Basic

/-!
# Loops with fuel

A loop that a fuel argument makes structurally recursive, and whose body goes round again only on a
smaller input, satisfies the equation of the loop without fuel.
-/

namespace SeeHandshake.Lib

variable {α β : Type*} {loop : ℕ → α → β} {body : (α → β) → α → β} {size : α → ℕ}

/-- `loop` repeats `body`, which goes round again only on inputs of a smaller size. -/
structure FuelLoop (loop : ℕ → α → β) (body : (α → β) → α → β) (size : α → ℕ) : Prop where
  succ : ∀ n x, loop (n + 1) x = body (loop n) x
  stop : ∀ n x, size x = 0 → loop n x = loop 0 x
  smaller : ∀ f g x, (∀ y, size y < size x → f y = g y) → body f x = body g x

namespace FuelLoop

/-- A turn for each unit of the size is enough: more turns change nothing. -/
theorem stable (h : FuelLoop loop body size) {n : ℕ} {x : α} (hn : size x ≤ n) :
    loop n x = loop (size x) x := by
  induction n using Nat.strongRecOn generalizing x with
  | ind n ih =>
    cases hsize : size x with
    | zero => exact h.stop n x hsize
    | succ k =>
      cases n with
      | zero => omega
      | succ n =>
        rw [h.succ, h.succ]
        refine h.smaller _ _ x fun y hy => ?_
        have hy : size y ≤ k := by omega
        rw [ih n (by omega) (by omega), ih k (by omega) hy]

/-- The equation of the loop without fuel. -/
theorem unroll (h : FuelLoop loop body size) (x : α) :
    loop (size x) x = body (fun y => loop (size y) y) x := by
  rw [← h.stable (Nat.le_succ (size x)), h.succ]
  exact h.smaller _ _ x fun y hy => h.stable (Nat.le_of_lt hy)

/-- The loop with fuel is the only function that satisfies the equation. -/
theorem solution_iff (h : FuelLoop loop body size) (f : α → β) :
    (∀ x, f x = body f x) ↔ ∀ x, f x = loop (size x) x := by
  constructor
  · intro hf x
    induction hsize : size x using Nat.strongRecOn generalizing x with
    | ind n ih =>
      rw [← hsize, hf x, h.unroll]
      refine h.smaller _ _ x fun y hy => ?_
      rw [← ih (size y) (hsize ▸ hy) y rfl]
  · intro hf x
    obtain rfl : f = fun y => loop (size y) y := funext hf
    exact h.unroll x

end FuelLoop

end SeeHandshake.Lib

import Mathlib.Data.List.Induction

/-!
# Last-writer-wins registers

A component of a state that some inputs overwrite and the others leave alone holds, after a run, the
last value written.
-/

namespace SeeHandshake.Lib

variable {σ ε α : Type*} {val : ε → Option α}

/-- The last value that the inputs write. -/
def lastValue (val : ε → Option α) (xs : List ε) : Option α := (xs.filterMap val).getLast?

@[simp] theorem lastValue_nil : lastValue val [] = none := rfl

theorem lastValue_append (val : ε → Option α) (xs ys : List ε) :
    lastValue val (xs ++ ys) = (lastValue val ys).or (lastValue val xs) := by
  unfold lastValue
  rw [List.filterMap_append, List.getLast?_append]

theorem lastValue_concat (xs : List ε) (x : ε) :
    lastValue val (xs ++ [x]) = (val x).or (lastValue val xs) := by
  rw [lastValue_append]
  cases h : val x <;> simp [lastValue, h]

theorem lastValue_map {δ : Type*} (g : δ → ε) (xs : List δ) :
    lastValue val (xs.map g) = lastValue (fun x => val (g x)) xs := by
  unfold lastValue
  rw [List.filterMap_map]
  rfl

theorem exists_of_lastValue {xs : List ε} {v : α} (h : lastValue val xs = some v) :
    ∃ x ∈ xs, val x = some v :=
  List.mem_filterMap.mp (List.mem_of_getLast? h)

theorem lastValue_eq_none_iff {xs : List ε} : lastValue val xs = none ↔ ∀ x ∈ xs, val x = none := by
  rw [lastValue, List.getLast?_eq_none_iff, List.filterMap_eq_nil_iff]

section Filter

variable {p : α → Bool} {xs : List ε}

/-- A register that accepts only some values holds an accepted one. -/
theorem of_lastValue_filter {v : α} (h : lastValue (fun x => (val x).filter p) xs = some v) : p v := by
  obtain ⟨x, -, hx⟩ := exists_of_lastValue h
  exact (Option.filter_eq_some_iff.mp hx).2

/-- If the last value written is accepted, the register holds it. -/
theorem lastValue_filter_of_some {v : α} (h : lastValue val xs = some v) (hp : p v) :
    lastValue (fun x => (val x).filter p) xs = some v := by
  induction xs using List.reverseRecOn with
  | nil => cases h
  | append_singleton xs x ih =>
    rw [lastValue_concat] at h ⊢
    cases hx : val x with
    | none =>
      rw [hx] at h
      exact ih h
    | some w =>
      rw [hx] at h
      obtain rfl := Option.some.inj h
      rw [Option.filter_some_pos hp]
      rfl

/-- If no value is written, none is accepted. -/
theorem lastValue_filter_of_none (h : lastValue val xs = none) :
    lastValue (fun x => (val x).filter p) xs = none := by
  induction xs using List.reverseRecOn with
  | nil => rfl
  | append_singleton xs x ih =>
    rw [lastValue_concat] at h ⊢
    obtain ⟨hx, hxs⟩ := Option.or_eq_none_iff.mp h
    rw [hx, ih hxs]
    rfl

end Filter

/-- After a run, a register holds the last value written, or what it held before. -/
theorem foldl_register {step : σ → ε → σ} {f : σ → α}
    (h : ∀ s x, f (step s x) = (val x).getD (f s)) (xs : List ε) (s : σ) :
    f (xs.foldl step s) = (lastValue val xs).getD (f s) := by
  induction xs using List.reverseRecOn with
  | nil => rfl
  | append_singleton xs x ih =>
    rw [List.foldl_append, List.foldl_cons, List.foldl_nil, h, lastValue_concat, ih]
    cases val x <;> rfl

/-- A register that may be empty. -/
theorem foldl_register_or {step : σ → ε → σ} {f : σ → Option α}
    (h : ∀ s x, f (step s x) = (val x).or (f s)) (xs : List ε) (s : σ) :
    f (xs.foldl step s) = (lastValue val xs).or (f s) := by
  induction xs using List.reverseRecOn with
  | nil => rfl
  | append_singleton xs x ih =>
    rw [List.foldl_append, List.foldl_cons, List.foldl_nil, h, lastValue_concat, ih, Option.or_assoc]

/-- A register that misses the inputs `ys` is right iff their last value repeats what it holds. -/
theorem getD_lastValue_append_iff (val : ε → Option α) (xs ys : List ε) (d : α) :
    (lastValue val xs).getD d = (lastValue val (xs ++ ys)).getD d ↔
      ∀ v, lastValue val ys = some v → v = (lastValue val xs).getD d := by
  rw [lastValue_append]
  cases lastValue val ys with
  | none => simp
  | some v =>
    simp only [Option.some_or, Option.getD_some, Option.some.injEq, forall_eq']
    exact eq_comm

end SeeHandshake.Lib

import SeeHandshake.Lib.Checked

/-!
# Rules for loops

A loop whose turns keep an invariant and make a measure smaller ends, whatever the number of turns it may
take above the measure, and a loop over a range goes through all of it. Slices of a list that follow one
another make up one slice.
-/

namespace SeeHandshake.Lib.Panicking

variable {σ : Type}

/-- A loop: a turn ends it, or keeps the invariant and makes the state smaller. -/
theorem loop_spec {body : σ → Panicking (ForInStep σ)} {inv post : σ → Prop} {size : σ → ℕ}
    (hbody : ∀ s, inv s → (∃ s', body s = .ok (.done s') ∧ post s') ∨
      ∃ s', body s = .ok (.yield s') ∧ inv s' ∧ size s' < size s)
    {s : σ} (hs : inv s) : ∃ s', post s' ∧ ∀ fuel, size s < fuel → loop body fuel s = .ok s' := by
  induction hn : size s using Nat.strongRecOn generalizing s with
  | ind n ih =>
    subst hn
    rcases hbody s hs with ⟨s', hdone, hpost⟩ | ⟨s', hyield, hinv, hlt⟩
    · refine ⟨s', hpost, fun fuel hfuel => ?_⟩
      cases fuel with
      | zero => exact absurd hfuel (Nat.not_lt_zero _)
      | succ fuel =>
        rw [loop, hdone]
        rfl
    · obtain ⟨s'', hpost, hloop⟩ := ih (size s') hlt hinv rfl
      refine ⟨s'', hpost, fun fuel hfuel => ?_⟩
      cases fuel with
      | zero => exact absurd hfuel (Nat.not_lt_zero _)
      | succ fuel =>
        rw [loop, hyield, ok_bind]
        exact hloop fuel (by omega)

/-- What every turn keeps holds at the end, if there is one. -/
theorem loop_keeps {body : σ → Panicking (ForInStep σ)} {inv : σ → Prop}
    (hdone : ∀ s s', body s = .ok (.done s') → inv s → inv s')
    (hyield : ∀ s s', body s = .ok (.yield s') → inv s → inv s') {fuel : ℕ} {s s' : σ}
    (h : loop body fuel s = .ok s') (hs : inv s) : inv s' := by
  induction fuel generalizing s with
  | zero => cases h
  | succ fuel ih =>
    rw [loop] at h
    cases hbody : body s with
    | error e =>
      rw [hbody] at h
      cases h
    | ok next =>
      rw [hbody, ok_bind] at h
      cases next with
      | done s'' =>
        obtain rfl := Except.ok.inj h
        exact hdone s _ hbody hs
      | yield s'' => exact ih h (hyield s s'' hbody hs)

/-- A loop over a range: each turn keeps the invariant. -/
theorem forIn_range'_spec {body : ℕ → σ → Panicking (ForInStep σ)} {inv : ℕ → σ → Prop} {stop : ℕ}
    (hbody : ∀ j s, j < stop → inv j s → ∃ s', body j s = .ok (.yield s') ∧ inv (j + 1) s')
    {start : ℕ} (hstart : start ≤ stop) {s : σ} (hs : inv start s) :
    ∃ s', forIn (List.range' start (stop - start)) s body = .ok s' ∧ inv stop s' := by
  induction hn : stop - start generalizing start s with
  | zero =>
    have hend : start = stop := by omega
    rw [hend] at hs
    exact ⟨s, rfl, hs⟩
  | succ n ih =>
    obtain ⟨s', hyield, hinv⟩ := hbody start s (by omega) hs
    obtain ⟨s'', hloop, hpost⟩ := ih (by omega) hinv (by omega)
    refine ⟨s'', ?_, hpost⟩
    rw [List.range'_succ, List.forIn_cons, hyield, ok_bind]
    exact hloop

/-- Two slices, the second of which begins where the first one ends. -/
theorem slices_append {α : Type} {xs : List α} {i j k : ℕ} (hij : i ≤ j) (hjk : j ≤ k) :
    (xs.drop i).take (j - i) ++ (xs.drop j).take (k - j) = (xs.drop i).take (k - i) := by
  have hi : k - i = (j - i) + (k - j) := by omega
  have hj : j = i + (j - i) := by omega
  rw [hi, List.take_add, List.drop_drop, ← hj]

/-- A slice of one element. -/
theorem slice_one {α : Type} {xs : List α} {i : ℕ} {x : α} (hx : xs[i]? = some x) :
    (xs.drop i).take (i + 1 - i) = [x] := by
  rw [Nat.add_sub_cancel_left, List.take_one, List.head?_drop, hx]
  rfl

/-- A slice of one more element. -/
theorem slice_succ {α : Type} {xs : List α} {i j : ℕ} {x : α} (hij : i ≤ j) (hx : xs[j]? = some x) :
    (xs.drop i).take (j + 1 - i) = (xs.drop i).take (j - i) ++ [x] := by
  rw [← slices_append hij (Nat.le_succ j), slice_one hx]

end SeeHandshake.Lib.Panicking

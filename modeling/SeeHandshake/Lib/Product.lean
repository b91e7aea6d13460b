import SeeHandshake.Lib.Simulation

/-!
# Products of machines

A machine over a family of components, one for each key, whose steps do to every component what a
machine of that component alone would do. Its runs are the runs of the components, and the order of
inputs that belong to different components does not matter.
-/

namespace SeeHandshake.Lib

variable {σ ω κ χ : Type*} {step : σ → ω → σ} {loc : κ → χ → ω → χ} {own : κ → ω → Bool}
  {R : σ → (κ → χ) → Prop}

/-- `step` is the product of the machines `loc k`, seen through `R`. The machine of `k` passes over
the inputs that are not its own. -/
structure IsProduct (step : σ → ω → σ) (loc : κ → χ → ω → χ) (own : κ → ω → Bool)
    (R : σ → (κ → χ) → Prop) : Prop where
  step_rel : ∀ s f o, R s f → R (step s o) fun k => loc k (f k) o
  loc_of_not_own : ∀ k c o, ¬ own k o → loc k c o = c

namespace IsProduct

/-- The components of a run are the runs of the components. -/
theorem run (h : IsProduct step loc own R) {s : σ} {f : κ → χ} (hR : R s f) (os : List ω) :
    R (os.foldl step s) fun k => os.foldl (loc k) (f k) := by
  induction os generalizing s f with
  | nil => exact hR
  | cons o os ih => exact ih (h.step_rel s f o hR)

/-- The run of a component is determined by its own inputs. -/
theorem foldl_own (h : IsProduct step loc own R) (k : κ) (os : List ω) (c : χ) :
    (os.filter (own k)).foldl (loc k) c = os.foldl (loc k) c := by
  induction os generalizing c with
  | nil => rfl
  | cons o os ih =>
    by_cases ho : own k o
    · rw [List.filter_cons_of_pos ho, List.foldl_cons, List.foldl_cons, ih]
    · rw [List.filter_cons_of_neg ho, List.foldl_cons, h.loc_of_not_own k c o ho, ih]

/-- A component run reads its own inputs only through `enc`. -/
theorem foldl_eq_of_map_eq {ι : Type*} {enc : ω → ι} {k : κ}
    (hloc : ∀ c o o', own k o → own k o' → enc o = enc o' → loc k c o = loc k c o')
    {l l' : List ω} (hown : ∀ o ∈ l, own k o) (hown' : ∀ o ∈ l', own k o)
    (hmap : l.map enc = l'.map enc) (c : χ) : l.foldl (loc k) c = l'.foldl (loc k) c := by
  induction l generalizing l' c with
  | nil => rw [List.map_eq_nil_iff.mp hmap.symm]
  | cons o l ih =>
    cases l' with
    | nil => simp at hmap
    | cons o' l' =>
      obtain ⟨ho, hl⟩ := List.forall_mem_cons.mp hown
      obtain ⟨ho', hl'⟩ := List.forall_mem_cons.mp hown'
      obtain ⟨henc, hmap⟩ := List.cons.inj hmap
      rw [List.foldl_cons, List.foldl_cons, hloc c o o' ho ho' henc]
      exact ih hl hl' hmap _

/-- Two runs that give every component the same effective inputs end in the same components: the
inputs may come in another order, and may differ in what the machines do not read. -/
theorem confluent {ι : Type*} (h : IsProduct step loc own R) {enc : ω → ι}
    (hloc : ∀ k c o o', own k o → own k o' → enc o = enc o' → loc k c o = loc k c o') {s s' : σ}
    {f : κ → χ} (hR : R s f) (hR' : R s' f) {os os' : List ω}
    (heq : ∀ k, (os.filter (own k)).map enc = (os'.filter (own k)).map enc) :
    ∃ g, R (os.foldl step s) g ∧ R (os'.foldl step s') g := by
  refine ⟨fun k => os.foldl (loc k) (f k), h.run hR os, ?_⟩
  have hsame : (fun k => os.foldl (loc k) (f k)) = fun k => os'.foldl (loc k) (f k) := by
    funext k
    rw [← h.foldl_own k os, ← h.foldl_own k os']
    exact foldl_eq_of_map_eq (hloc k) (fun o ho => (List.mem_filter.mp ho).2)
      (fun o ho => (List.mem_filter.mp ho).2) (heq k) _
  rw [hsame]
  exact h.run hR' os'

end IsProduct

end SeeHandshake.Lib

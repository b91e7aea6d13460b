import Mathlib.Data.Finset.Basic
import Mathlib.Data.List.AList

/-!
# Searches with a worklist

A search through a list keeps the first item of each wanted key, strikes the key off its worklist, and
leaves early when nothing is wanted any more. It finds what the search finds that goes through the whole
list.
-/

namespace SeeHandshake.Lib

/-! ## Early exits -/

section EarlyExit

variable {α σ ε : Type} {step : σ → α → Except ε σ} {settled : σ → Prop}

theorem foldlM_of_settled (hsettled : ∀ s x, settled s → step s x = .ok s) {s : σ} (hs : settled s)
    (xs : List α) : xs.foldlM step s = .ok s := by
  induction xs with
  | nil => rfl
  | cons x xs ih =>
    rw [List.foldlM_cons, hsettled s x hs]
    exact ih

/-- A loop that is left only in states that no further turn changes does what all its turns do. -/
theorem forIn_eq_foldlM_of_exits {body : α → σ → Except ε (ForInStep σ)}
    (hsettled : ∀ s x, settled s → step s x = .ok s)
    (hbody : ∀ x s, body x s = ForInStep.yield <$> step s x ∨
      body x s = ForInStep.done <$> step s x ∧ ∀ s', step s x = .ok s' → settled s')
    (xs : List α) (s : σ) : forIn xs s body = xs.foldlM step s := by
  induction xs generalizing s with
  | nil => rfl
  | cons x xs ih =>
    rw [List.forIn_cons, List.foldlM_cons]
    rcases hbody x s with hx | ⟨hx, hdone⟩
    · rw [hx]
      cases step s x with
      | error e => rfl
      | ok s' => exact ih s'
    · rw [hx]
      cases hs' : step s x with
      | error e => rfl
      | ok s' => exact (foldlM_of_settled hsettled (hdone s' hs') xs).symm

end EarlyExit

/-! ## The worklist -/

/-- A worklist: the keys still wanted, and what is found. -/
structure Worklist (κ β : Type) where
  wanted : Finset κ
  found : AList fun _ : κ => β

section Search

variable {α β κ ε : Type} [DecidableEq κ] (key : α → Option κ) (value : α → Except ε β)

namespace Worklist

/-- An item's turn. -/
def visit (w : Worklist κ β) (x : α) : Except ε (Worklist κ β) :=
  match key x with
  | none => .ok w
  | some k =>
    if k ∈ w.wanted then do
      let b ← value x
      return ⟨w.wanted.erase k, w.found.insert k b⟩
    else .ok w

/-- The worklist of a table when `found` is found. -/
def after (table : Finset κ) (found : AList fun _ : κ => β) : Worklist κ β :=
  ⟨table.filter (· ∉ found), found⟩

theorem after_empty (table : Finset κ) : (after table ∅ : Worklist κ β) = ⟨table, ∅⟩ := by
  rw [after, Finset.filter_true_of_mem fun k _ => AList.notMem_empty k]

theorem after_insert (table : Finset κ) (found : AList fun _ : κ => β) (k : κ) (b : β) :
    after table (found.insert k b) = ⟨(after table found).wanted.erase k, found.insert k b⟩ := by
  unfold after
  rw [Worklist.mk.injEq]
  refine ⟨?_, rfl⟩
  ext k'
  rw [Finset.mem_erase, Finset.mem_filter, Finset.mem_filter, AList.mem_insert]
  tauto

variable {key value}

/-- When nothing is wanted, an item changes nothing. -/
theorem visit_of_empty {w : Worklist κ β} (hw : w.wanted = ∅) (x : α) : visit key value w x = .ok w := by
  unfold visit
  cases key x with
  | none => rfl
  | some k =>
    have hk : k ∉ w.wanted := hw ▸ Finset.notMem_empty k
    exact if_neg hk

end Worklist

/-! ## The search through the whole list -/

/-- An item of a search without a worklist: it is kept when its key is in the table and not found yet. -/
def keepFirst (table : Finset κ) (found : AList fun _ : κ => β) (x : α) :
    Except ε (AList fun _ : κ => β) :=
  match key x with
  | none => .ok found
  | some k =>
    if k ∈ table ∧ k ∉ found then do
      let b ← value x
      return found.insert k b
    else .ok found

/-- The first item of a key in the table. -/
def firstOf (table : Finset κ) (xs : List α) (k : κ) : Option α :=
  if k ∈ table then xs.find? (fun x => key x = some k) else none

variable {key value} {table : Finset κ} {found found' : AList fun _ : κ => β} {x : α} {xs : List α} {k : κ}

/-- One item: the worklist is the table without what is found. -/
theorem visit_after (table : Finset κ) (found : AList fun _ : κ => β) (x : α) :
    (Worklist.after table found).visit key value x =
      Worklist.after table <$> keepFirst key value table found x := by
  unfold Worklist.visit keepFirst
  cases key x with
  | none => rfl
  | some k =>
    have hiff : k ∈ (Worklist.after table found).wanted ↔ k ∈ table ∧ k ∉ found := Finset.mem_filter
    show (if _ then _ else _) = Worklist.after table <$> (if _ then _ else _ : Except ε _)
    by_cases hk : k ∈ table ∧ k ∉ found
    · rw [if_pos hk, if_pos (hiff.mpr hk)]
      cases value x with
      | error e => rfl
      | ok b => exact congrArg Except.ok (Worklist.after_insert table found k b).symm
    · rw [if_neg hk, if_neg fun h => hk (hiff.mp h)]
      rfl

/-- All items: striking keys off keeps the first item of each. -/
theorem foldlM_visit (table : Finset κ) (found : AList fun _ : κ => β) (xs : List α) :
    xs.foldlM (Worklist.visit key value) (Worklist.after table found) =
      Worklist.after table <$> xs.foldlM (keepFirst key value table) found := by
  induction xs generalizing found with
  | nil => rfl
  | cons x xs ih =>
    rw [List.foldlM_cons, List.foldlM_cons, visit_after]
    cases keepFirst key value table found x with
    | error e => rfl
    | ok found' => exact ih found'

theorem firstOf_cons_of_eq (hx : key x = some k) (hk : k ∈ table) :
    firstOf key table (x :: xs) k = some x := by
  unfold firstOf
  rw [if_pos hk]
  exact List.find?_cons_of_pos (p := fun y => decide (key y = some k)) (decide_eq_true hx)

theorem firstOf_cons_of_ne (hx : key x ≠ some k) :
    firstOf key table (x :: xs) k = firstOf key table xs k := by
  have hneg : ¬ decide (key x = some k) = true := by
    rw [decide_eq_true_iff]
    exact hx
  unfold firstOf
  rw [List.find?_cons_of_neg (p := fun y => decide (key y = some k)) hneg]

theorem firstOf_of_notMem (hk : k ∉ table) (xs : List α) : firstOf key table xs k = none := if_neg hk

theorem firstOf_eq_some (h : firstOf key table xs k = some x) : k ∈ table ∧ x ∈ xs ∧ key x = some k := by
  unfold firstOf at h
  by_cases hk : k ∈ table
  · rw [if_pos hk] at h
    have hx : decide (key x = some k) = true := List.find?_some (p := fun y => decide (key y = some k)) h
    exact ⟨hk, List.mem_of_find?_eq_some h, of_decide_eq_true hx⟩
  · rw [if_neg hk] at h
    cases h

/-- What one item does: it is kept, or it changes nothing. -/
theorem keepFirst_cases (h : keepFirst key value table found x = .ok found') :
    (∃ k b, key x = some k ∧ k ∈ table ∧ k ∉ found ∧ value x = .ok b ∧ found' = found.insert k b) ∨
      found' = found ∧ ∀ k, key x = some k → k ∈ table → k ∈ found := by
  unfold keepFirst at h
  cases hkey : key x with
  | none =>
    rw [hkey] at h
    cases h
    exact .inr ⟨rfl, fun k hk => by cases hk⟩
  | some k =>
    rw [hkey] at h
    by_cases hk : k ∈ table ∧ k ∉ found
    · replace h : (value x >>= fun b => pure (found.insert k b)) = .ok found' := by
        rw [← h]
        exact (if_pos hk).symm
      cases hvalue : value x with
      | error e =>
        rw [hvalue] at h
        cases h
      | ok b =>
        rw [hvalue] at h
        cases h
        exact .inl ⟨k, b, rfl, hk.1, hk.2, rfl, rfl⟩
    · replace h : (.ok found : Except ε (AList fun _ : κ => β)) = .ok found' := by
        rw [← h]
        exact (if_neg hk).symm
      cases h
      refine .inr ⟨rfl, fun k' hk' ht => ?_⟩
      obtain rfl := Option.some.inj hk'
      by_contra hf
      exact hk ⟨ht, hf⟩

/-- What is found stays. -/
theorem foldlM_keepFirst_of_mem (h : xs.foldlM (keepFirst key value table) found = .ok found')
    (hk : k ∈ found) : found'.lookup k = found.lookup k := by
  induction xs generalizing found with
  | nil =>
    cases h
    rfl
  | cons x xs ih =>
    rw [List.foldlM_cons] at h
    cases hx : keepFirst key value table found x with
    | error e =>
      rw [hx] at h
      cases h
    | ok mid =>
      rw [hx] at h
      rcases keepFirst_cases hx with ⟨k', b, -, -, hk', -, rfl⟩ | ⟨rfl, -⟩
      · have hne : k ≠ k' := fun he => hk' (he ▸ hk)
        rw [ih h ((AList.mem_insert found).mpr (.inr hk)), AList.lookup_insert_ne hne]
      · exact ih h hk

/-- A search that ends has found, for each key of the table, the first of its items. -/
theorem foldlM_keepFirst_lookup (h : xs.foldlM (keepFirst key value table) found = .ok found')
    (hk : k ∉ found) : (firstOf key table xs k).map value = (found'.lookup k).map .ok := by
  induction xs generalizing found with
  | nil =>
    cases h
    rw [AList.lookup_eq_none.mpr hk, firstOf, List.find?_nil, ite_self]
    rfl
  | cons x xs ih =>
    rw [List.foldlM_cons] at h
    cases hx : keepFirst key value table found x with
    | error e =>
      rw [hx] at h
      cases h
    | ok mid =>
      rw [hx] at h
      rcases keepFirst_cases hx with ⟨k', b, hkey, htable, -, hvalue, rfl⟩ | ⟨rfl, hskip⟩
      · by_cases hkk : k = k'
        · obtain rfl := hkk
          have hmem : k ∈ found.insert k b := (AList.mem_insert found).mpr (.inl rfl)
          rw [firstOf_cons_of_eq hkey htable, foldlM_keepFirst_of_mem h hmem, AList.lookup_insert,
            Option.map_some, hvalue]
          rfl
        · have hne : key x ≠ some k := fun he => hkk (Option.some.inj (he.symm.trans hkey))
          rw [firstOf_cons_of_ne hne]
          exact ih h fun hmem => ((AList.mem_insert found).mp hmem).elim hkk hk
      · by_cases ht : k ∈ table
        · rw [firstOf_cons_of_ne fun he => hk (hskip k he ht)]
          exact ih h hk
        · have htail := ih h hk
          rw [firstOf_of_notMem ht] at htail ⊢
          exact htail

/-- A search ends if and only if the values of the items it keeps can be computed. -/
theorem foldlM_keepFirst_iff :
    (∃ found', xs.foldlM (keepFirst key value table) found = .ok found') ↔
      ∀ k x, k ∉ found → firstOf key table xs k = some x → ∃ b, value x = .ok b := by
  constructor
  · rintro ⟨found', h⟩ k x hk hx
    have hlookup := foldlM_keepFirst_lookup h hk
    rw [hx, Option.map_some, eq_comm, Option.map_eq_some_iff] at hlookup
    obtain ⟨b, -, hb⟩ := hlookup
    exact ⟨b, hb.symm⟩
  · intro hvalues
    induction xs generalizing found with
    | nil => exact ⟨found, rfl⟩
    | cons x xs ih =>
      -- The item is kept and its value can be computed, or the search goes on as it is.
      have hstep : ∃ mid, keepFirst key value table found x = .ok mid := by
        unfold keepFirst
        cases hkey : key x with
        | none => exact ⟨found, rfl⟩
        | some k =>
          by_cases hk : k ∈ table ∧ k ∉ found
          · obtain ⟨b, hb⟩ := hvalues k x hk.2 (firstOf_cons_of_eq hkey hk.1)
            refine ⟨found.insert k b, ?_⟩
            show (if _ then _ else _) = _
            rw [if_pos hk, hb]
            rfl
          · exact ⟨found, if_neg hk⟩
      obtain ⟨mid, hmid⟩ := hstep
      rw [List.foldlM_cons, hmid]
      refine ih fun k y hk hy => ?_
      rcases keepFirst_cases hmid with ⟨k', b, hkey, -, -, -, rfl⟩ | ⟨rfl, hskip⟩
      · rw [AList.mem_insert, not_or] at hk
        refine hvalues k y hk.2 ?_
        rw [firstOf_cons_of_ne fun he => hk.1 (Option.some.inj (he.symm.trans hkey))]
        exact hy
      · have ht := (firstOf_eq_some hy).1
        refine hvalues k y hk ?_
        rw [firstOf_cons_of_ne fun he => hk (hskip k he ht)]
        exact hy

end Search

end SeeHandshake.Lib

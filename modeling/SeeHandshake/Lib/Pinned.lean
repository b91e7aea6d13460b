import Mathlib.Data.List.Nodup
import Mathlib.Data.List.Perm.Basic

/-!
# Pinned elements

A list whose elements have distinct keys is reordered by pinning some keys to the front: the elements with
the pinned keys, in the order of the keys, and all others as they stand. Nothing is lost and nothing
doubled, as long as the elements that are left out behind the pins are the ones that are pinned.
-/

namespace SeeHandshake.Lib

/-- The elements with the given keys, in the order of the keys. -/
def pinned {α κ : Type*} [DecidableEq κ] (key : α → κ) (pins : List κ) (xs : List α) : List α :=
  pins.filterMap fun k => xs.find? fun x => key x = k

section Pinned

variable {α κ : Type*} [DecidableEq κ] {key : α → κ} {pins pins' : List κ} {xs : List α}

@[simp] theorem pinned_nil (key : α → κ) (xs : List α) : pinned key [] xs = [] := rfl

theorem pinned_cons (k : κ) (pins : List κ) :
    pinned key (k :: pins) xs = (xs.find? fun x => key x = k).toList ++ pinned key pins xs := by
  unfold pinned
  rw [List.filterMap_cons]
  cases xs.find? fun x => key x = k <;> rfl

theorem pinned_append (pins pins' : List κ) :
    pinned key (pins ++ pins') xs = pinned key pins xs ++ pinned key pins' xs :=
  List.filterMap_append

/-- Distinct keys are found. -/
theorem find?_key_iff (hxs : (xs.map key).Nodup) {k : κ} {x : α} :
    (xs.find? fun x => key x = k) = some x ↔ x ∈ xs ∧ key x = k := by
  constructor
  · intro h
    have hkey := List.find?_some h
    rw [decide_eq_true_iff] at hkey
    exact ⟨List.mem_of_find?_eq_some h, hkey⟩
  · rintro ⟨hx, rfl⟩
    cases hfind : xs.find? fun y => key y = key x with
    | none =>
      have hnone := List.find?_eq_none.mp hfind x hx
      exact absurd (decide_eq_true rfl) hnone
    | some y =>
      have hy := List.mem_of_find?_eq_some hfind
      have hkey := List.find?_some hfind
      rw [decide_eq_true_iff] at hkey
      rw [List.inj_on_of_nodup_map hxs hy hx hkey]

theorem mem_pinned (hxs : (xs.map key).Nodup) {x : α} :
    x ∈ pinned key pins xs ↔ x ∈ xs ∧ key x ∈ pins := by
  unfold pinned
  rw [List.mem_filterMap]
  constructor
  · rintro ⟨k, hk, hfind⟩
    obtain ⟨hx, rfl⟩ := (find?_key_iff hxs).mp hfind
    exact ⟨hx, hk⟩
  · rintro ⟨hx, hk⟩
    exact ⟨key x, hk, (find?_key_iff hxs).mpr ⟨hx, rfl⟩⟩

theorem nodup_pinned (hpins : pins.Nodup) (hxs : (xs.map key).Nodup) : (pinned key pins xs).Nodup := by
  refine hpins.filterMap ?_
  intro k k' x hk hk'
  obtain ⟨-, rfl⟩ := (find?_key_iff hxs).mp hk
  obtain ⟨-, rfl⟩ := (find?_key_iff hxs).mp hk'
  rfl

/-- The pinned elements are those whose keys are pinned. -/
theorem pinned_perm (hpins : pins.Nodup) (hxs : (xs.map key).Nodup) :
    (pinned key pins xs).Perm (xs.filter fun x => key x ∈ pins) := by
  have hnodup := (hxs.of_map key).filter fun x => decide (key x ∈ pins)
  refine (List.perm_ext_iff_of_nodup (nodup_pinned hpins hxs) hnodup).mpr fun x => ?_
  rw [mem_pinned hxs, List.mem_filter, decide_eq_true_iff]

/-- Pinning and leaving out the same keys is a reordering. -/
theorem pinned_append_perm (hpins : pins.Nodup) (hxs : (xs.map key).Nodup) :
    (pinned key pins xs ++ xs.filter fun x => key x ∉ pins).Perm xs := by
  have hsplit := List.filter_append_perm (fun x => decide (key x ∈ pins)) xs
  refine ((pinned_perm hpins hxs).append_right _).trans ?_
  simpa only [decide_not] using hsplit

end Pinned

end SeeHandshake.Lib

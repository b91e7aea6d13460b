import Mathlib.Data.List.Chain
import SeeHandshake.Ui.Right

/-!
# Scrolling to the selected section

The offset that `scrollOffset` computes keeps the selected section in view: all of it if it fits, and its
beginning otherwise.
-/

namespace SeeHandshake

open Lib Panicking

/-! ## Sections in order -/

/-- Sections in order without overlap. -/
def Ordered (bounds : List SectionSpan) : Prop :=
  bounds.IsChain fun a b => a.start + a.len ≤ b.start

/-- The row behind the last section. -/
def totalRows (bounds : List SectionSpan) : ℕ := (bounds.getLast?.map fun b => b.start + b.len).getD 0

theorem totalRows_concat (bounds : List SectionSpan) (span : SectionSpan) :
    totalRows (bounds ++ [span]) = span.start + span.len := by
  rw [totalRows, List.getLast?_concat]
  rfl

/-- A section ends before the last one does. -/
theorem end_le_totalRows {bounds : List SectionSpan} (h : Ordered bounds) {span : SectionSpan}
    (hspan : span ∈ bounds) : span.start + span.len ≤ totalRows bounds := by
  induction bounds using List.reverseRecOn with
  | nil => exact absurd hspan List.not_mem_nil
  | append_singleton bounds last ih =>
    rw [totalRows_concat]
    rcases List.mem_append.mp hspan with hmem | hmem
    · obtain ⟨hinit, -, hlink⟩ := List.isChain_append.mp h
      have hle := ih hinit hmem
      -- The section in front of the last one ends where the last one begins, or before.
      have hlast : totalRows bounds ≤ last.start := by
        unfold totalRows
        cases hget : bounds.getLast? with
        | none => exact Nat.zero_le _
        | some b => exact hlink b hget last rfl
      omega
    · obtain rfl := List.mem_singleton.mp hmem
      exact Nat.le_refl _

/-! ## The offset -/

/-- The row that should be the first one, by the end of the section: with some rows below it, without them,
or, if the section is too tall, its beginning. -/
def desiredOffset (start len height : ℕ) : ℕ :=
  if len + 3 ≤ height then start + len + 3 - height
  else if len ≤ height then start + len - height
  else start

/-- The offset: as desired, but not in front of the rows that can show the beginning of the section, and
behind neither the last screen of lines nor that beginning. -/
def offsetOf (start len total height : ℕ) : ℕ :=
  min (min (max (desiredOffset start len height) (start - (height - 1))) (total - height)) start

theorem desiredOffset_of_fits {start len height : ℕ} (h : len ≤ height) :
    start + len ≤ desiredOffset start len height + height := by
  unfold desiredOffset
  by_cases hpeek : len + 3 ≤ height
  · rw [if_pos hpeek]
    omega
  · rw [if_neg hpeek, if_pos h]
    omega

theorem desiredOffset_of_tall {start len height : ℕ} (h : height < len) :
    desiredOffset start len height = start := by
  unfold desiredOffset
  rw [if_neg (by omega), if_neg (by omega)]

/-- Neither clamp pushes the section out of view. -/
theorem offsetOf_of_fits {start len total height : ℕ} (htotal : start + len ≤ total) (h : len ≤ height) :
    start + len ≤ offsetOf start len total height + height := by
  have hdesired := @desiredOffset_of_fits start len height h
  unfold offsetOf
  omega

theorem offsetOf_of_tall {start len total height : ℕ} (htotal : start + len ≤ total) (h : height < len) :
    offsetOf start len total height = start := by
  have hdesired := @desiredOffset_of_tall start len height h
  unfold offsetOf
  omega

theorem offsetOf_le_start (start len total height : ℕ) : offsetOf start len total height ≤ start :=
  Nat.min_le_right _ _

theorem offsetOf_le_maxScroll (start len total height : ℕ) :
    offsetOf start len total height ≤ total - height :=
  (Nat.min_le_left _ _).trans (Nat.min_le_right _ _)

theorem asU32_eq {n : ℕ} (h : n ≤ 65535) : asU32 n = n := Nat.mod_eq_of_lt (by omega)

theorem asU32_totalRows {bounds : List SectionSpan} (h : totalRows bounds ≤ 65535) :
    (bounds.getLast?.map fun b => asU32 (b.start + b.len)).getD 0 = totalRows bounds := by
  unfold totalRows at h ⊢
  cases hlast : bounds.getLast? with
  | none => rfl
  | some b =>
    rw [hlast] at h
    exact asU32_eq h

/-- On few enough rows the machine integers do not overflow. -/
theorem scrollOffset_eq {bounds : List SectionSpan} (h : Ordered bounds) {selected : ℕ} {span : SectionSpan}
    (hselected : bounds[selected]? = some span) {innerH : UInt16} (hheight : innerH ≠ 0)
    (htotal : totalRows bounds ≤ 65535) :
    scrollOffset bounds selected innerH =
      .ok (UInt16.ofNat (offsetOf span.start span.len (totalRows bounds) innerH.toNat)) := by
  have hmem : span ∈ bounds := List.mem_of_getElem? hselected
  have hend := end_le_totalRows h hmem
  have hne : ¬ (bounds.isEmpty = true ∨ innerH = 0) := by
    rintro (hempty | hzero)
    · exact List.ne_nil_of_mem hmem (List.isEmpty_iff.mp hempty)
    · exact hheight hzero
  have hstart : asU32 span.start = span.start := asU32_eq (by omega)
  have hlen : asU32 span.len = span.len := asU32_eq (by omega)
  have hadd {a b : ℕ} (hab : a + b < 2 ^ 32) : add 32 a b = .ok (a + b) := add_eq hab
  -- The conversion to 16 bits is exact.
  have hconvert : (if offsetOf span.start span.len (totalRows bounds) innerH.toNat < UInt16.size then
        UInt16.ofNat (offsetOf span.start span.len (totalRows bounds) innerH.toNat)
      else 0xFFFF) = UInt16.ofNat (offsetOf span.start span.len (totalRows bounds) innerH.toNat) := by
    have hle := offsetOf_le_start span.start span.len (totalRows bounds) innerH.toNat
    have hsize : UInt16.size = 65536 := rfl
    exact if_pos (by omega)
  unfold scrollOffset
  rw [if_neg hne]
  simp only [hselected, hstart, hlen, asU32_totalRows htotal]
  rw [hadd (by omega), ok_bind]
  rw [← hconvert]
  unfold offsetOf desiredOffset
  by_cases hpeek : span.len + 3 ≤ innerH.toNat
  · rw [if_pos hpeek, if_pos hpeek, hadd (by omega), ok_bind, hadd (by omega)]
    rfl
  · rw [if_neg hpeek, if_neg hpeek]
    by_cases hfits : span.len ≤ innerH.toNat
    · rw [if_pos hfits, if_pos hfits, hadd (by omega)]
      rfl
    · rw [if_neg hfits, if_neg hfits]
      rfl

/-- The offset in rows. -/
theorem scrollOffset_toNat {bounds : List SectionSpan} (h : Ordered bounds) {selected : ℕ}
    {span : SectionSpan} (hselected : bounds[selected]? = some span) {innerH : UInt16} (hheight : innerH ≠ 0)
    (htotal : totalRows bounds ≤ 65535) :
    ∃ s : UInt16, scrollOffset bounds selected innerH = .ok s ∧
      s.toNat = offsetOf span.start span.len (totalRows bounds) innerH.toNat := by
  have hend := end_le_totalRows h (List.mem_of_getElem? hselected)
  have hle := offsetOf_le_start span.start span.len (totalRows bounds) innerH.toNat
  refine ⟨_, scrollOffset_eq h hselected hheight htotal, ?_⟩
  rw [UInt16.toNat_ofNat', Nat.mod_eq_of_lt (by omega)]

/-- The selected section is in view. -/
theorem scrollOffset_visible {bounds : List SectionSpan} (h : Ordered bounds) {selected : ℕ}
    {span : SectionSpan} (hselected : bounds[selected]? = some span) {innerH : UInt16} (hheight : innerH ≠ 0)
    (htotal : totalRows bounds ≤ 65535) :
    ∃ s : UInt16, scrollOffset bounds selected innerH = .ok s ∧ s.toNat ≤ span.start ∧
      s.toNat ≤ totalRows bounds - innerH.toNat ∧
      (span.len ≤ innerH.toNat → span.start + span.len ≤ s.toNat + innerH.toNat) ∧
      (innerH.toNat < span.len → s.toNat = span.start) := by
  have hend := end_le_totalRows h (List.mem_of_getElem? hselected)
  obtain ⟨s, hs, hoffset⟩ := scrollOffset_toNat h hselected hheight htotal
  refine ⟨s, hs, ?_⟩
  rw [hoffset]
  exact ⟨offsetOf_le_start _ _ _ _, offsetOf_le_maxScroll _ _ _ _, offsetOf_of_fits hend,
    offsetOf_of_tall hend⟩

/-- A section of six rows, selected between two others, in a pane of eight rows. -/
theorem scrollOffset_visible_middle :
    ∃ s : UInt16, scrollOffset [⟨0, 4⟩, ⟨6, 6⟩, ⟨14, 3⟩] 1 8 = .ok s ∧ s.toNat ≤ 6 ∧
      s.toNat ≤ totalRows [⟨0, 4⟩, ⟨6, 6⟩, ⟨14, 3⟩] - 8 ∧ (6 ≤ 8 → 6 + 6 ≤ s.toNat + 8) ∧
      (8 < 6 → s.toNat = 6) := by
  have hordered : Ordered [⟨0, 4⟩, ⟨6, 6⟩, ⟨14, 3⟩] := by
    unfold Ordered
    decide
  have hselected : [(⟨0, 4⟩ : SectionSpan), ⟨6, 6⟩, ⟨14, 3⟩][1]? = some ⟨6, 6⟩ := rfl
  have hheight : (8 : UInt16) ≠ 0 := by decide
  exact scrollOffset_visible hordered hselected hheight (by decide)

end SeeHandshake

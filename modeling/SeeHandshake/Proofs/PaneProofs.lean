import SeeHandshake.Proofs.RightPaneProofs
import SeeHandshake.Proofs.TextSizeProofs

/-!
# The number of rows

A line wraps to no more rows than it has characters, so that the number of rows of a pane is bounded by the
size of its lines, and the offset of the pane is computed without an overflow.
-/

namespace SeeHandshake

open Lib Panicking

section

variable {Style : Type} [Inhabited Style] [DecidableEq Style]

/-! ## Lines -/

/-- A turn ends the loop as it is, or shows one row and a character at least. -/
theorem wrapTurn_cases {chars : List (Char × Style)} {width indent : ℕ} {s : WrapState Style}
    {next : ForInStep (WrapState Style)} (h : wrapTurn chars width indent s = .ok next) :
    next = .done s ∨ ∃ s' row, next = .yield s' ∧ s'.out = s.out ++ [row] ∧ s.i < s'.i ∧
      s'.i ≤ chars.length := by
  unfold wrapTurn at h
  by_cases hi : s.i < chars.length
  · rw [if_pos hi] at h
    simp only at h
    by_cases havail : (if s.isFirst then width else width - indent) = 0
    · rw [if_pos havail] at h
      exact .inl (Except.ok.inj h).symm
    · have hmin : s.i < (if s.isFirst then s.i + indent + 1 else s.i + 1) := by
        split <;> omega
      obtain ⟨stop, hstop, hlt, hle, -⟩ := rowEnd_ok hi (Nat.pos_of_ne_zero havail) hmin
      obtain ⟨new, hnew, -⟩ := coalesce_ok hlt hle
        (if !s.isFirst && indent > 0 then [Span.raw (List.replicate indent ' ')] else [])
      rw [if_neg havail, hstop, ok_bind, hnew, ok_bind] at h
      exact .inr ⟨_, _, (Except.ok.inj h).symm, rfl, hlt, hle⟩
  · rw [if_neg hi] at h
    exact .inl (Except.ok.inj h).symm

/-- The loop: every row shows a character of its own. -/
theorem length_out_le {chars : List (Char × Style)} {width indent fuel : ℕ} {out : List (Line Style)}
    {s : WrapState Style} (h : loop (wrapTurn chars width indent) fuel ⟨0, true, out⟩ = .ok s) :
    s.out.length ≤ out.length + chars.length := by
  have hrule := @loop_keeps (WrapState Style) (wrapTurn chars width indent)
    fun s => s.out.length ≤ out.length + s.i ∧ s.i ≤ chars.length
  have hkept : s.out.length ≤ out.length + s.i ∧ s.i ≤ chars.length := by
    refine hrule ?_ ?_ h ⟨Nat.le_refl _, Nat.zero_le _⟩
    · intro s s' hturn hs
      rcases wrapTurn_cases hturn with hnext | ⟨s'', row, hnext, -⟩
      · cases hnext
        exact hs
      · cases hnext
    · rintro s s' hturn ⟨hlen, -⟩
      rcases wrapTurn_cases hturn with hnext | ⟨s'', row, hnext, hout, hlt, hle⟩
      · cases hnext
      · cases hnext
        refine ⟨?_, hle⟩
        rw [hout, List.length_append, List.length_singleton]
        omega
  omega

/-- The rows of a line. -/
theorem length_wrapLine_le {strWidth : List Char → ℕ} {fuel : ℕ} {line : Line Style} {width : UInt16}
    {out rows : List (Line Style)} (h : wrapLine strWidth fuel line width out = .ok rows) :
    rows.length ≤ out.length + (line.chars.length + 1) := by
  unfold wrapLine at h
  simp only at h
  split_ifs at h
  · obtain rfl := Except.ok.inj h
    rw [List.length_append, List.length_singleton]
    omega
  · obtain ⟨s, hs, rfl⟩ := map_eq_ok_iff.mp h
    have hlen := length_out_le hs
    omega

/-- The rows of lines. -/
theorem length_foldlM_wrapLine_le {strWidth : List Char → ℕ} {fuel : ℕ} {width : UInt16}
    {lines out rows : List (Line Style)}
    (h : lines.foldlM (fun out line => wrapLine strWidth fuel line width out) out = .ok rows) :
    rows.length ≤ out.length + linesSize lines := by
  induction lines generalizing out with
  | nil =>
    obtain rfl := Except.ok.inj h
    exact Nat.le_refl _
  | cons line lines ih =>
    rw [List.foldlM_cons] at h
    obtain ⟨next, hfirst, h⟩ := exists_of_bind_eq_ok h
    have hnext := length_wrapLine_le hfirst
    have hrest := ih h
    rw [linesSize_cons]
    omega

/-! ## Sections -/

/-- A section takes its rows, a rule and an empty line. -/
theorem length_pushSection_le {strWidth : List Char → ℕ} {fuel : ℕ} {rule : Style} {innerW : UInt16}
    {view view' : List (Line Style) × List SectionSpan} {sectionLines : List (Line Style)}
    (h : pushSection strWidth fuel rule innerW view sectionLines = .ok view') :
    view'.1.length ≤ view.1.length + (linesSize sectionLines + 2) := by
  obtain ⟨lines, bounds⟩ := view
  unfold pushSection at h
  simp only at h
  have hruled : (if bounds.length > 0 then lines ++ [separatorLine rule innerW] else lines).length ≤
      lines.length + 1 := by
    split
    · rw [List.length_append, List.length_singleton]
    · exact Nat.le_succ _
  generalize (if bounds.length > 0 then lines ++ [separatorLine rule innerW] else lines) = ruled at h hruled
  obtain ⟨rows, hrows, h⟩ := exists_of_bind_eq_ok h
  obtain ⟨len, -, h⟩ := exists_of_bind_eq_ok h
  obtain rfl := Except.ok.inj h
  have hlen := length_foldlM_wrapLine_le hrows
  show (rows ++ [_]).length ≤ lines.length + _
  rw [List.length_append, List.length_singleton]
  omega

/-- The rows of a pane. -/
theorem length_sectionsView_le {strWidth : List Char → ℕ} {fuel : ℕ} {rule hint : Style} {innerW : UInt16}
    {sections : List (List (Line Style))} {view : List (Line Style) × List SectionSpan}
    (h : sectionsView strWidth fuel rule hint innerW sections = .ok view) :
    view.1.length ≤ total linesSize sections + 2 * sections.length + 1 := by
  have hfold : ∀ (sections : List (List (Line Style))) (start : List (Line Style) × List SectionSpan),
      sections.foldlM (pushSection strWidth fuel rule innerW) start = .ok view →
        view.1.length ≤ start.1.length + (total linesSize sections + 2 * sections.length) := by
    intro sections
    induction sections with
    | nil =>
      intro start hnil
      obtain rfl := Except.ok.inj hnil
      exact Nat.le_refl _
    | cons sectionLines sections ih =>
      intro start hcons
      rw [List.foldlM_cons] at hcons
      obtain ⟨next, hpush, hcons⟩ := exists_of_bind_eq_ok hcons
      have hnext := length_pushSection_le hpush
      have hrest := ih next hcons
      rw [total_cons, List.length_cons]
      omega
  unfold sectionsView at h
  split_ifs at h
  · obtain rfl := Except.ok.inj h
    exact Nat.le_add_left _ _
  · have hall := hfold sections _ h
    rw [List.length_nil] at hall
    omega

end

/-! ## The offset -/

theorem asU32_le (n : ℕ) : asU32 n ≤ n := Nat.mod_le _ _

/-- On fewer rows than 32 bits count the offset does not overflow. -/
theorem scrollOffset_ok {bounds : List SectionSpan}
    (h : ∀ span ∈ bounds, span.start + span.len + 3 < 2 ^ 32) (selected : ℕ) (innerH : UInt16) :
    ∃ scroll, scrollOffset bounds selected innerH = .ok scroll := by
  unfold scrollOffset
  split
  · exact ⟨_, rfl⟩
  cases hselected : bounds[selected]? with
  | none => exact ⟨_, rfl⟩
  | some span =>
    have hbound := h span (List.mem_of_getElem? hselected)
    have hstart := asU32_le span.start
    have hlen := asU32_le span.len
    have hadd {a b : ℕ} (hab : a + b < 2 ^ 32) : add 32 a b = .ok (a + b) := add_eq hab
    simp only
    rw [hadd (by omega), ok_bind]
    split_ifs
    · rw [hadd (by omega), ok_bind, hadd (by omega), ok_bind]
      exact ⟨_, rfl⟩
    · rw [hadd (by omega), ok_bind]
      exact ⟨_, rfl⟩
    · exact ⟨_, rfl⟩

end SeeHandshake

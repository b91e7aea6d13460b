import Mathlib.Data.List.Forall2
import SeeHandshake.Proofs.ScrollProofs
import SeeHandshake.Proofs.WrapProofs

/-!
# The sections in the right pane

The rows that the right pane has in view are those of the selected section, as far as they fit, and without
their indents they are the lines of that section.
-/

namespace SeeHandshake

open Lib Panicking

section

variable {Style : Type}

/-! ## The rows of lines -/

/-- Rows that show a line in a pane of `width` columns. -/
def ShowsLine (width : ℕ) (line : Line Style) (rows : List (Line Style)) : Prop :=
  unindent (min line.leadingSpaces (width - 1)) rows = line.chars

/-- Rows that show lines one after another. -/
inductive ShowsLines (width : ℕ) : List (Line Style) → List (Line Style) → Prop
  | nil : ShowsLines width [] []
  | cons {line : Line Style} {lines first rest : List (Line Style)} :
    ShowsLine width line first → ShowsLines width lines rest →
      ShowsLines width (line :: lines) (first ++ rest)

/-! ## The rows of sections -/

/-- The rows of a span among lines. -/
def SectionSpan.rows (span : SectionSpan) (lines : List (Line Style)) : List (Line Style) :=
  (lines.drop span.start).take span.len

/-- The section is where the span says. -/
structure ShownAt (width : ℕ) (lines sectionLines : List (Line Style)) (span : SectionSpan) : Prop where
  shows : ShowsLines width sectionLines (span.rows lines)
  end_le : span.start + span.len ≤ lines.length

/-- The sections are shown one after another, each at its span. -/
structure Layout (width : ℕ) (sections : List (List (Line Style))) (lines : List (Line Style))
    (bounds : List SectionSpan) : Prop where
  ordered : Ordered bounds
  total_le : totalRows bounds ≤ lines.length
  shown : List.Forall₂ (ShownAt width lines) sections bounds

theorem ShownAt.length_rows {width : ℕ} {lines sectionLines : List (Line Style)} {span : SectionSpan}
    (h : ShownAt width lines sectionLines span) : (span.rows lines).length = span.len := by
  have hend := h.end_le
  unfold SectionSpan.rows
  rw [List.length_take, List.length_drop]
  omega

theorem ShownAt.append {width : ℕ} {lines sectionLines : List (Line Style)} {span : SectionSpan}
    (h : ShownAt width lines sectionLines span) (more : List (Line Style)) :
    ShownAt width (lines ++ more) sectionLines span := by
  have hend := h.end_le
  have hrows : span.rows (lines ++ more) = span.rows lines := by
    unfold SectionSpan.rows
    rw [List.drop_append_of_le_length (by omega), List.take_append_of_le_length]
    rw [List.length_drop]
    omega
  refine ⟨?_, ?_⟩
  · rw [hrows]
    exact h.shows
  · rw [List.length_append]
    omega

theorem Layout.nil (width : ℕ) : Layout width ([] : List (List (Line Style))) [] [] :=
  ⟨List.isChain_nil, Nat.le_refl 0, .nil⟩

/-- Lines that belong to no section. -/
theorem Layout.append {width : ℕ} {sections : List (List (Line Style))} {lines : List (Line Style)}
    {bounds : List SectionSpan} (h : Layout width sections lines bounds) (more : List (Line Style)) :
    Layout width sections (lines ++ more) bounds := by
  refine ⟨h.ordered, ?_, h.shown.imp fun _ _ hshown => hshown.append more⟩
  rw [List.length_append]
  exact Nat.le_trans h.total_le (Nat.le_add_right _ _)

/-- The rows of a section behind the lines so far. -/
theorem Layout.concat {width : ℕ} {sections : List (List (Line Style))} {lines : List (Line Style)}
    {bounds : List SectionSpan} (h : Layout width sections lines bounds) {sectionLines rows : List (Line Style)}
    (hrows : ShowsLines width sectionLines rows) :
    Layout width (sections ++ [sectionLines]) (lines ++ rows) (bounds ++ [⟨lines.length, rows.length⟩]) := by
  have hmore := h.append rows
  have htotal := h.total_le
  refine ⟨?_, ?_, ?_⟩
  · refine List.isChain_append.mpr ⟨h.ordered, List.isChain_singleton _, ?_⟩
    intro b hb span hspan
    obtain rfl := Option.some.inj hspan
    have hlast : totalRows bounds = b.start + b.len := by
      unfold totalRows
      rw [Option.mem_def.mp hb]
      rfl
    rw [← hlast]
    exact htotal
  · rw [totalRows_concat, List.length_append]
  · refine List.rel_append hmore.shown (.cons ⟨?_, ?_⟩ .nil)
    · unfold SectionSpan.rows
      simp only
      rw [List.drop_left, List.take_length]
      exact hrows
    · rw [List.length_append]

/-! ## The rows in view -/

/-- The rows of a pane of `height` rows whose first one is `scroll`. -/
def inView (lines : List (Line Style)) (scroll height : ℕ) : List (Line Style) :=
  (lines.drop scroll).take height

theorem rows_infix_inView {span : SectionSpan} {scroll height : ℕ} (lines : List (Line Style))
    (hstart : scroll ≤ span.start) (hend : span.start + span.len ≤ scroll + height) :
    span.rows lines <:+: inView lines scroll height := by
  refine ⟨(lines.drop scroll).take (span.start - scroll),
    (lines.drop (span.start + span.len)).take (scroll + height - (span.start + span.len)), ?_⟩
  have hrows : span.rows lines = (lines.drop span.start).take (span.start + span.len - span.start) := by
    rw [Nat.add_sub_cancel_left]
    rfl
  rw [hrows, slices_append hstart (Nat.le_add_right _ _),
    slices_append (Nat.le_trans hstart (Nat.le_add_right _ _)) hend, Nat.add_sub_cancel_left]
  rfl

theorem inView_of_tall {span : SectionSpan} {height : ℕ} (lines : List (Line Style))
    (h : height < span.len) : inView lines span.start height = (span.rows lines).take height := by
  unfold inView SectionSpan.rows
  rw [List.take_take, Nat.min_eq_left (Nat.le_of_lt h)]

theorem Layout.of_getElem? {width : ℕ} {sections : List (List (Line Style))} {lines : List (Line Style)}
    {bounds : List SectionSpan} (h : Layout width sections lines bounds) {i : ℕ}
    {sectionLines : List (Line Style)} (hi : sections[i]? = some sectionLines) :
    ∃ span, bounds[i]? = some span ∧ ShownAt width lines sectionLines span := by
  obtain ⟨hlt, rfl⟩ := List.getElem?_eq_some_iff.mp hi
  have hlt' : i < bounds.length := h.shown.length_eq ▸ hlt
  exact ⟨bounds[i], List.getElem?_eq_getElem hlt', h.shown.get hlt hlt'⟩

/-! ## The lines are shown -/

variable [Inhabited Style] [DecidableEq Style]

theorem wrapLine_shows (strWidth : List Char → ℕ) {fuel : ℕ} {line : Line Style}
    (hfuel : line.chars.length < fuel) (width : UInt16) (out : List (Line Style)) :
    ∃ rows, wrapLine strWidth fuel line width out = .ok (out ++ rows) ∧
      ShowsLine width.toNat line rows := by
  obtain ⟨rows, hwrap, hcases⟩ := wrapLine_cases strWidth line width out
  refine ⟨rows, hwrap fuel hfuel, ?_⟩
  rcases hcases with ⟨rfl, -⟩ | hwraps
  · exact List.append_nil line.chars
  · exact hwraps.lossless

theorem foldlM_wrapLine_shows (strWidth : List Char → ℕ) {fuel : ℕ} {lines : List (Line Style)}
    (hfuel : ∀ line ∈ lines, line.chars.length < fuel) (width : UInt16) (out : List (Line Style)) :
    ∃ rows, lines.foldlM (fun out line => wrapLine strWidth fuel line width out) out = .ok (out ++ rows) ∧
      ShowsLines width.toNat lines rows := by
  induction lines generalizing out with
  | nil => exact ⟨[], congrArg Except.ok (List.append_nil out).symm, .nil⟩
  | cons line lines ih =>
    obtain ⟨first, hfirst, hshows⟩ := wrapLine_shows strWidth (hfuel line List.mem_cons_self) width out
    obtain ⟨rest, hrest, hshowsRest⟩ := ih (fun l hl => hfuel l (List.mem_cons_of_mem line hl)) (out ++ first)
    refine ⟨first ++ rest, ?_, .cons hshows hshowsRest⟩
    rw [List.foldlM_cons, hfirst, ok_bind, hrest, List.append_assoc]

/-- A text is shown by its rows. -/
theorem wrapLinesWithIndent_shows (strWidth : List Char → ℕ) {fuel : ℕ} {lines : List (Line Style)}
    (hfuel : ∀ line ∈ lines, line.chars.length < fuel) (width : UInt16) :
    ∃ rows, wrapLinesWithIndent strWidth fuel lines width = .ok rows ∧
      ShowsLines width.toNat lines rows :=
  foldlM_wrapLine_shows strWidth hfuel width []

/-- One section more. -/
theorem pushSection_layout (strWidth : List Char → ℕ) {fuel : ℕ} (rule : Style) {innerW : UInt16}
    {sections : List (List (Line Style))} {view : List (Line Style) × List SectionSpan}
    (h : Layout innerW.toNat sections view.1 view.2) {sectionLines : List (Line Style)}
    (hfuel : ∀ line ∈ sectionLines, line.chars.length < fuel) :
    ∃ view', pushSection strWidth fuel rule innerW view sectionLines = .ok view' ∧
      Layout innerW.toNat (sections ++ [sectionLines]) view'.1 view'.2 := by
  obtain ⟨lines, bounds⟩ := view
  -- A rule between two sections belongs to neither.
  have hruled : Layout innerW.toNat sections
      (if bounds.length > 0 then lines ++ [separatorLine rule innerW] else lines) bounds := by
    split
    · exact h.append _
    · exact h
  unfold pushSection
  simp only
  generalize (if bounds.length > 0 then lines ++ [separatorLine rule innerW] else lines) = ruled at hruled ⊢
  obtain ⟨rows, hrows, hshows⟩ := foldlM_wrapLine_shows strWidth hfuel innerW ruled
  have hlen : (ruled ++ rows).length - ruled.length = rows.length := by
    rw [List.length_append, Nat.add_sub_cancel_left]
  rw [hrows, ok_bind, sub_eq (List.length_append ▸ Nat.le_add_right _ _), ok_bind, hlen]
  exact ⟨_, rfl, (hruled.concat hshows).append _⟩

/-- The sections from an empty pane on. -/
theorem foldlM_pushSection_layout (strWidth : List Char → ℕ) {fuel : ℕ} (rule : Style) {innerW : UInt16}
    {before sections : List (List (Line Style))} {view : List (Line Style) × List SectionSpan}
    (h : Layout innerW.toNat before view.1 view.2)
    (hfuel : ∀ sectionLines ∈ sections, ∀ line ∈ sectionLines, line.chars.length < fuel) :
    ∃ view', sections.foldlM (pushSection strWidth fuel rule innerW) view = .ok view' ∧
      Layout innerW.toNat (before ++ sections) view'.1 view'.2 := by
  induction sections generalizing before view with
  | nil =>
    refine ⟨view, rfl, ?_⟩
    rw [List.append_nil]
    exact h
  | cons sectionLines sections ih =>
    obtain ⟨next, hnext, hlayout⟩ := pushSection_layout strWidth rule h (hfuel sectionLines List.mem_cons_self)
    obtain ⟨view', hview, hlayout'⟩ := ih hlayout fun s hs => hfuel s (List.mem_cons_of_mem _ hs)
    refine ⟨view', ?_, ?_⟩
    · rw [List.foldlM_cons, hnext, ok_bind, hview]
    · rw [List.append_assoc] at hlayout'
      exact hlayout'

/-- The pane of a record: its sections one after another. -/
theorem sectionsView_layout (strWidth : List Char → ℕ) {fuel : ℕ} (rule hint : Style) (innerW : UInt16)
    {sections : List (List (Line Style))} (hsections : sections ≠ [])
    (hfuel : ∀ sectionLines ∈ sections, ∀ line ∈ sectionLines, line.chars.length < fuel) :
    ∃ view, sectionsView strWidth fuel rule hint innerW sections = .ok view ∧
      Layout innerW.toNat sections view.1 view.2 := by
  unfold sectionsView
  rw [if_neg (mt List.isEmpty_iff.mp hsections)]
  have hempty : Layout innerW.toNat [] ([] : List (Line Style)) [] := Layout.nil innerW.toNat
  exact @foldlM_pushSection_layout Style _ _ strWidth fuel rule innerW [] sections ([], []) hempty hfuel

/-- The selected section is in view, or the beginning of it if it is too tall. -/
theorem renderSections_inView (strWidth : List Char → ℕ) {fuel : ℕ} (rule hint : Style) (width : UInt16)
    {height : UInt16} (hheight : withoutBorders height ≠ 0) {sections : List (List (Line Style))}
    (hfuel : ∀ sectionLines ∈ sections, ∀ line ∈ sectionLines, line.chars.length < fuel) {selected : ℕ}
    {sectionLines : List (Line Style)} (hselected : sections[selected]? = some sectionLines)
    {view : List (Line Style) × List SectionSpan}
    (hview : sectionsView strWidth fuel rule hint (withoutBorders width) sections = .ok view)
    (hlines : view.1.length ≤ 65535) :
    ∃ rows scroll, ShowsLines (withoutBorders width).toNat sectionLines rows ∧
      renderSections strWidth fuel rule hint width height sections selected = .ok (view.1, scroll) ∧
      (rows.length ≤ (withoutBorders height).toNat →
        rows <:+: inView view.1 scroll.toNat (withoutBorders height).toNat) ∧
      ((withoutBorders height).toNat < rows.length →
        inView view.1 scroll.toNat (withoutBorders height).toNat =
          rows.take (withoutBorders height).toNat) := by
  have hsections : sections ≠ [] := by
    rintro rfl
    cases hselected
  obtain ⟨view', hview', hlayout⟩ :=
    sectionsView_layout strWidth rule hint (withoutBorders width) hsections hfuel
  obtain rfl := Except.ok.inj (hview'.symm.trans hview)
  obtain ⟨span, hspan, hshown⟩ := hlayout.of_getElem? hselected
  have htotal : totalRows view'.2 ≤ 65535 := Nat.le_trans hlayout.total_le hlines
  have hle := end_le_totalRows hlayout.ordered (List.mem_of_getElem? hspan)
  have hstart := offsetOf_le_start span.start span.len (totalRows view'.2) (withoutBorders height).toNat
  obtain ⟨scroll, hscroll, hoffset⟩ := scrollOffset_toNat hlayout.ordered hspan hheight htotal
  rw [← hoffset] at hstart
  refine ⟨span.rows view'.1, scroll, hshown.shows, ?_, ?_, ?_⟩
  · unfold renderSections
    rw [hview, ok_bind]
    simp only
    rw [hscroll, ok_bind]
    rfl
  · intro hfits
    rw [hshown.length_rows] at hfits
    have hend := offsetOf_of_fits hle hfits
    rw [← hoffset] at hend
    exact rows_infix_inView view'.1 hstart hend
  · intro htall
    rw [hshown.length_rows] at htall
    rw [hoffset, offsetOf_of_tall hle htall]
    exact inView_of_tall view'.1 htall

end

end SeeHandshake

import SeeHandshake.Lib.Loop
import SeeHandshake.Ui.Right

/-!
# Wrapping a line

`wrapLine` ends, and its rows without their indent are the line again, character by character and style by
style.
-/

namespace SeeHandshake

open Lib Panicking

section

variable {Style : Type}

/-! ## The end of a row -/

/-- The search for a space does not panic and goes back only. -/
theorem backUp_ok {chars : List (Char × Style)} {minContent k : ℕ} (h : k ≤ chars.length) :
    ∃ k', backUp chars minContent k = .ok k' ∧ k' ≤ k := by
  induction k with
  | zero => exact ⟨0, rfl, Nat.le_refl _⟩
  | succ k ih =>
    obtain ⟨k', hback, hle⟩ := ih (by omega)
    unfold backUp
    by_cases hmin : k + 1 > minContent
    · rw [if_pos hmin, index_eq (List.getElem?_eq_getElem h), ok_bind]
      by_cases hspace : chars[k].1 = ' '
      · rw [if_neg (not_not.mpr hspace)]
        exact ⟨k + 1, rfl, Nat.le_refl _⟩
      · rw [if_pos hspace]
        exact ⟨k', hback, by omega⟩
    · rw [if_neg hmin]
      exact ⟨k + 1, rfl, Nat.le_refl _⟩

/-- A row holds a character at least, and not more than there is room for. -/
theorem rowEnd_ok {chars : List (Char × Style)} {i avail minContent : ℕ} (hi : i < chars.length)
    (havail : 0 < avail) (hmin : i < minContent) :
    ∃ stop, rowEnd chars i avail minContent = .ok stop ∧ i < stop ∧ stop ≤ chars.length ∧
      stop ≤ i + avail := by
  have hle : min (i + avail) chars.length ≤ chars.length := Nat.min_le_right _ _
  unfold rowEnd
  by_cases hend : min (i + avail) chars.length < chars.length
  · obtain ⟨k, hback, hk⟩ := @backUp_ok Style chars minContent _ hle
    simp only
    rw [if_pos hend, hback, ok_bind]
    by_cases hspace : k > minContent
    · rw [if_pos hspace]
      exact ⟨k, rfl, by omega⟩
    · rw [if_neg hspace]
      exact ⟨_, rfl, by omega⟩
  · simp only
    rw [if_neg hend]
    exact ⟨_, rfl, by omega⟩

/-! ## Spans of characters -/

theorem Span.chars_of_style {chunk : List (Char × Style)} {style : Style}
    (h : ∀ c ∈ chunk, c.2 = style) : (⟨chunk.map Prod.fst, style⟩ : Span Style).chars = chunk := by
  unfold Span.chars
  rw [List.map_map]
  calc chunk.map ((fun c => (c, style)) ∘ Prod.fst) = chunk.map id := by
        refine List.map_congr_left ?_
        intro c hc
        rw [Function.comp_apply, ← h c hc]
        rfl
    _ = chunk := List.map_id chunk

theorem Span.length_chars (span : Span Style) : span.chars.length = span.content.length :=
  List.length_map _

/-- The width of a line of characters of width one. -/
theorem Line.width_eq {strWidth : List Char → ℕ} {line : Line Style}
    (h : ∀ span ∈ line.spans, strWidth span.content = span.content.length) :
    line.width strWidth = line.chars.length := by
  unfold Line.width Line.chars
  induction hspans : line.spans generalizing line with
  | nil => rfl
  | cons span spans ih =>
    rw [hspans] at h
    have hspan := h span List.mem_cons_self
    have hrest := @ih ⟨line.style, line.alignment, spans⟩ (fun s hs => h s (List.mem_cons_of_mem _ hs)) rfl
    rw [List.foldr_cons, hspan, hrest, List.flatMap_cons, List.length_append, span.length_chars]

/-- The invariant of the loop over the characters of a row that begins at `i`, at position `j`: the new spans
hold the characters in front of the run in progress, and those of the run have one style. -/
structure Coalescing (chars : List (Char × Style)) (i : ℕ) (spans : List (Span Style)) (j : ℕ)
    (run : Run Style) : Prop where
  start_le : i ≤ run.chunkStart
  le_pos : run.chunkStart ≤ j
  pushed : ∃ new, run.spans = spans ++ new ∧
    new.flatMap Span.chars = (chars.drop i).take (run.chunkStart - i)
  style_eq : ∀ c ∈ (chars.drop run.chunkStart).take (j - run.chunkStart), c.2 = run.curStyle

/-- The run in progress becomes a span. -/
theorem Coalescing.push {chars : List (Char × Style)} {i j : ℕ} {spans : List (Span Style)}
    {run : Run Style} (h : Coalescing chars i spans j run) (hj : j ≤ chars.length) :
    ∃ new, run.push chars j = .ok (spans ++ new) ∧
      new.flatMap Span.chars = (chars.drop i).take (j - i) := by
  obtain ⟨new, hspans, hnew⟩ := h.pushed
  refine ⟨new ++ [⟨((chars.drop run.chunkStart).take (j - run.chunkStart)).map Prod.fst, run.curStyle⟩],
    ?_, ?_⟩
  · unfold Run.push
    rw [slice_eq h.le_pos hj, ok_bind, hspans, List.append_assoc]
    rfl
  · rw [List.flatMap_append, hnew, List.flatMap_singleton, Span.chars_of_style h.style_eq]
    exact slices_append h.start_le h.le_pos

variable [DecidableEq Style]

theorem Coalescing.turn {chars : List (Char × Style)} {i j : ℕ} {spans : List (Span Style)}
    {run : Run Style} (h : Coalescing chars i spans j run) (hj : j < chars.length) :
    ∃ run', coalesceTurn chars j run = .ok (.yield run') ∧ Coalescing chars i spans (j + 1) run' := by
  have hget := List.getElem?_eq_getElem hj
  have hle := h.le_pos
  have hstart := h.start_le
  unfold coalesceTurn
  rw [index_eq hget, ok_bind]
  by_cases hstyle : chars[j].2 = run.curStyle
  · rw [if_neg (not_not.mpr hstyle)]
    refine ⟨run, rfl, hstart, by omega, h.pushed, ?_⟩
    rw [slice_succ hle hget]
    intro c hc
    rcases List.mem_append.mp hc with hc | hc
    · exact h.style_eq c hc
    · rw [List.mem_singleton.mp hc]
      exact hstyle
  · obtain ⟨new, hpush, hnew⟩ := h.push (Nat.le_of_lt hj)
    rw [if_pos hstyle, hpush, ok_bind]
    refine ⟨⟨j, chars[j].2, spans ++ new⟩, rfl, Nat.le_trans hstart hle, Nat.le_succ j, ⟨new, rfl, hnew⟩, ?_⟩
    -- The new run consists of the character at `j`.
    rw [slice_one hget]
    intro c hc
    rw [List.mem_singleton.mp hc]

/-- The new spans hold the characters of the row with their styles. -/
theorem coalesce_ok {chars : List (Char × Style)} {i stop : ℕ} (hi : i < stop) (hstop : stop ≤ chars.length)
    (spans : List (Span Style)) : ∃ new, coalesce chars i stop spans = .ok (spans ++ new) ∧
      new.flatMap Span.chars = (chars.drop i).take (stop - i) := by
  have hget := List.getElem?_eq_getElem (Nat.lt_of_lt_of_le hi hstop)
  have hinit : Coalescing chars i spans (i + 1) ⟨i, chars[i].2, spans⟩ := by
    refine ⟨Nat.le_refl i, Nat.le_succ i, ⟨[], (List.append_nil spans).symm, ?_⟩, ?_⟩
    · rw [Nat.sub_self]
      rfl
    · rw [slice_one hget]
      intro c hc
      rw [List.mem_singleton.mp hc]
  have hturn (j : ℕ) (run : Run Style) (hj : j < stop) (h : Coalescing chars i spans j run) :=
    h.turn (Nat.lt_of_lt_of_le hj hstop)
  obtain ⟨run, hloop, hrun⟩ := forIn_range'_spec hturn hi hinit
  obtain ⟨new, hpush, hnew⟩ := hrun.push hstop
  refine ⟨new, ?_, hnew⟩
  unfold coalesce
  rw [index_eq hget, ok_bind, hloop, ok_bind]
  exact hpush

end

/-! ## Rows -/

section

variable {Style : Type} [Inhabited Style]

/-- The characters of rows, those behind the first one without their indent. -/
def unindent (indent : ℕ) : List (Line Style) → List (Char × Style)
  | [] => []
  | first :: rest => first.chars ++ rest.flatMap fun row => row.chars.drop indent

/-- Rows that show characters in `width` columns, all behind the first one with an indent. -/
structure Wraps (width indent : ℕ) (rows : List (Line Style)) (chars : List (Char × Style)) : Prop where
  fits : ∀ row ∈ rows, row.chars.length ≤ width
  hangs : ∀ row ∈ rows.tail, row.chars.take indent = List.replicate indent (' ', default)
  lossless : unindent indent rows = chars

theorem Wraps.nil (width indent : ℕ) : Wraps width indent ([] : List (Line Style)) [] :=
  ⟨fun _ hrow => absurd hrow List.not_mem_nil, fun _ hrow => absurd hrow List.not_mem_nil, rfl⟩

/-- The indent of a row behind the given ones. -/
def hangingChars (indent : ℕ) (isFirst : Bool) : List (Char × Style) :=
  if isFirst then [] else List.replicate indent (' ', default)

/-- One row more. -/
theorem Wraps.concat {width indent : ℕ} {rows : List (Line Style)} {shown chunk : List (Char × Style)}
    (h : Wraps width indent rows shown) {row : Line Style}
    (hrow : row.chars = hangingChars indent rows.isEmpty ++ chunk) (hfits : row.chars.length ≤ width) :
    Wraps width indent (rows ++ [row]) (shown ++ chunk) := by
  have hfitsAll : ∀ r ∈ rows ++ [row], r.chars.length ≤ width := by
    intro r hr
    rcases List.mem_append.mp hr with hr | hr
    · exact h.fits r hr
    · rw [List.mem_singleton.mp hr]
      exact hfits
  cases rows with
  | nil =>
    refine ⟨hfitsAll, fun _ hr => absurd hr List.not_mem_nil, ?_⟩
    rw [← h.lossless]
    exact (List.append_nil row.chars).trans hrow
  | cons first rest =>
    have hchars : row.chars = List.replicate indent (' ', default) ++ chunk := hrow
    refine ⟨hfitsAll, ?_, ?_⟩
    · intro r hr
      rcases List.mem_append.mp hr with hr | hr
      · exact h.hangs r hr
      · rw [List.mem_singleton.mp hr, hchars]
        exact List.take_left' List.length_replicate
    · have hdrop : row.chars.drop indent = chunk := by
        rw [hchars]
        exact List.drop_left' List.length_replicate
      rw [← h.lossless, List.cons_append]
      simp only [unindent]
      rw [List.flatMap_append, List.flatMap_singleton, hdrop, List.append_assoc]

/-- A line that fits is its only row. -/
theorem Wraps.single {width : ℕ} (indent : ℕ) {line : Line Style} (h : line.chars.length ≤ width) :
    Wraps width indent [line] line.chars :=
  (Wraps.nil width indent).concat rfl h

/-- The spans that a row begins with. -/
theorem flatMap_chars_hanging (indent : ℕ) (isFirst : Bool) :
    (if !isFirst && indent > 0 then [Span.raw (List.replicate indent ' ')]
      else ([] : List (Span Style))).flatMap Span.chars = hangingChars indent isFirst := by
  cases isFirst with
  | true => rfl
  | false =>
    cases indent with
    | zero => rfl
    | succ indent =>
      calc [(Span.raw (List.replicate (indent + 1) ' ') : Span Style)].flatMap Span.chars
          = (List.replicate (indent + 1) ' ').map (fun c => (c, default)) := List.flatMap_singleton ..
        _ = hangingChars (indent + 1) false := List.map_replicate

/-- The room of a row behind its indent. -/
theorem length_hangingChars_add {width indent : ℕ} (hindent : indent < width) (isFirst : Bool) :
    (hangingChars indent isFirst : List (Char × Style)).length +
      (if isFirst then width else width - indent) = width := by
  cases isFirst with
  | true => exact Nat.zero_add width
  | false =>
    have hlength : (hangingChars indent false : List (Char × Style)).length = indent :=
      List.length_replicate
    rw [hlength]
    exact Nat.add_sub_cancel' (Nat.le_of_lt hindent)

/-- The invariant of the loop over the rows: those so far show the characters so far. -/
structure Wrapping (chars : List (Char × Style)) (width indent : ℕ) (out : List (Line Style))
    (s : WrapState Style) : Prop where
  pos_le : s.i ≤ chars.length
  shown : ∃ rows, s.out = out ++ rows ∧ s.isFirst = rows.isEmpty ∧
    Wraps width indent rows (chars.take s.i)

/-- A row with the characters up to `stop`. -/
theorem Wrapping.concat {chars : List (Char × Style)} {width indent : ℕ} {out : List (Line Style)}
    {s : WrapState Style} (h : Wrapping chars width indent out s) {stop : ℕ} (hle : s.i ≤ stop)
    (hstop : stop ≤ chars.length) {spans : List (Span Style)}
    (hspans : spans.flatMap Span.chars =
      hangingChars indent s.isFirst ++ (chars.drop s.i).take (stop - s.i))
    (hfits : (hangingChars indent s.isFirst : List (Char × Style)).length + (stop - s.i) ≤ width) :
    Wrapping chars width indent out ⟨stop, false, s.out ++ [Line.ofSpans spans]⟩ := by
  obtain ⟨rows, hout, hfirst, hwraps⟩ := h.shown
  have hrow : (Line.ofSpans spans).chars =
      hangingChars indent rows.isEmpty ++ (chars.drop s.i).take (stop - s.i) := by
    rw [← hfirst]
    exact hspans
  have hlength : (Line.ofSpans spans).chars.length ≤ width := by
    rw [hrow, ← hfirst, List.length_append, List.length_take]
    omega
  have hnext := hwraps.concat hrow hlength
  have htake : chars.take s.i ++ (chars.drop s.i).take (stop - s.i) = chars.take stop := by
    rw [← List.take_add, Nat.add_sub_cancel' hle]
  rw [htake] at hnext
  refine ⟨hstop, rows ++ [Line.ofSpans spans], ?_, ?_, hnext⟩
  · rw [hout, List.append_assoc]
  · cases rows <;> rfl

variable [DecidableEq Style]

/-- A turn ends the loop behind the last character, and shows one character at least otherwise. -/
theorem Wrapping.turn {chars : List (Char × Style)} {width indent : ℕ} (hindent : indent < width)
    {out : List (Line Style)} {s : WrapState Style} (h : Wrapping chars width indent out s) :
    (∃ s', wrapTurn chars width indent s = .ok (.done s') ∧
      ∃ rows, s'.out = out ++ rows ∧ Wraps width indent rows chars) ∨
    ∃ s', wrapTurn chars width indent s = .ok (.yield s') ∧ Wrapping chars width indent out s' ∧
      chars.length - s'.i < chars.length - s.i := by
  unfold wrapTurn
  by_cases hi : s.i < chars.length
  · right
    have hroom := @length_hangingChars_add Style _ width indent hindent s.isFirst
    have havail : 0 < (if s.isFirst then width else width - indent) := by
      split <;> omega
    have hmin : s.i < (if s.isFirst then s.i + indent + 1 else s.i + 1) := by
      split <;> omega
    obtain ⟨stop, hstop, hlt, hle, hfits⟩ := rowEnd_ok hi havail hmin
    obtain ⟨new, hnew, hchars⟩ := coalesce_ok hlt hle
      (if !s.isFirst && indent > 0 then [Span.raw (List.replicate indent ' ')] else [])
    rw [if_pos hi]
    simp only
    rw [if_neg (Nat.ne_of_gt havail), hstop, ok_bind, hnew, ok_bind]
    refine ⟨_, rfl, h.concat (Nat.le_of_lt hlt) hle ?_ (by omega), ?_⟩
    · rw [List.flatMap_append, flatMap_chars_hanging, hchars]
    · show chars.length - stop < chars.length - s.i
      omega
  · left
    obtain ⟨rows, hout, -, hwraps⟩ := h.shown
    have hend : s.i = chars.length := Nat.le_antisymm h.pos_le (Nat.le_of_not_lt hi)
    rw [if_neg hi]
    refine ⟨s, rfl, rows, hout, ?_⟩
    rwa [hend, List.take_length] at hwraps

/-! ## The line -/

/-- The loop ends, whatever the line. -/
theorem loop_wrapTurn {chars : List (Char × Style)} {width indent : ℕ} (hindent : indent < width)
    (out : List (Line Style)) : ∃ rows, Wraps width indent rows chars ∧ ∀ fuel, chars.length < fuel →
      ∃ s, loop (wrapTurn chars width indent) fuel ⟨0, true, out⟩ = .ok s ∧ s.out = out ++ rows := by
  have hinit : Wrapping chars width indent out ⟨0, true, out⟩ :=
    ⟨Nat.zero_le _, [], (List.append_nil out).symm, rfl, Wraps.nil width indent⟩
  have hturn (s : WrapState Style) (h : Wrapping chars width indent out s) := h.turn hindent
  obtain ⟨s, ⟨rows, hout, hwraps⟩, hloop⟩ := loop_spec hturn hinit
  exact ⟨rows, hwraps, fun fuel hfuel => ⟨s, hloop fuel (Nat.lt_of_le_of_lt (Nat.sub_le _ _) hfuel), hout⟩⟩

/-- A line that has no room for its indent, or that fits, stays as it is; else its rows show it. -/
theorem wrapLine_cases (strWidth : List Char → ℕ) (line : Line Style) (width : UInt16)
    (out : List (Line Style)) :
    ∃ rows, (∀ fuel, line.chars.length < fuel →
        wrapLine strWidth fuel line width out = .ok (out ++ rows)) ∧
      (rows = [line] ∧ (width.toNat = 0 ∨ line.width strWidth ≤ width.toNat) ∨
        Wraps width.toNat (min line.leadingSpaces (width.toNat - 1)) rows line.chars) := by
  unfold wrapLine
  by_cases hfits : width.toNat = 0 ∨ line.width strWidth ≤ width.toNat
  · refine ⟨[line], fun fuel _ => ?_, .inl ⟨rfl, hfits⟩⟩
    simp only
    rw [if_pos hfits]
    rfl
  · have hindent : min line.leadingSpaces (width.toNat - 1) < width.toNat := by omega
    obtain ⟨rows, hwraps, hloop⟩ := loop_wrapTurn hindent out
    refine ⟨rows, fun fuel hfuel => ?_, .inr hwraps⟩
    obtain ⟨s, hs, hout⟩ := hloop fuel hfuel
    simp only
    rw [if_neg hfits, hs, ok_bind, hout]
    rfl

/-- Wrapping a line ends and is lossless. -/
theorem wrapLine_lossless {strWidth : List Char → ℕ} {line : Line Style}
    (h : ∀ span ∈ line.spans, strWidth span.content = span.content.length) {width : UInt16}
    (hwidth : 1 ≤ width.toNat) (out : List (Line Style)) :
    ∃ rows, (∀ fuel, line.chars.length < fuel →
        wrapLine strWidth fuel line width out = .ok (out ++ rows)) ∧
      Wraps width.toNat (min line.leadingSpaces (width.toNat - 1)) rows line.chars := by
  obtain ⟨rows, hwrap, hcases⟩ := wrapLine_cases strWidth line width out
  refine ⟨rows, hwrap, ?_⟩
  rcases hcases with ⟨rfl, hzero | hfits⟩ | hwraps
  · omega
  · rw [Line.width_eq h] at hfits
    exact Wraps.single _ hfits
  · exact hwraps

/-- A hex dump behind an indent of two, in a pane of six columns. -/
theorem wrapLine_lossless_hexDump :
    ∃ rows : List (Line Bool), (∀ fuel, 10 < fuel →
        wrapLine List.length fuel
          (Line.ofSpans [⟨[' ', ' ', '0', '1'], false⟩, ⟨[' ', '0', '2', ' ', '0', '3'], true⟩]) 6 [] =
            .ok ([] ++ rows)) ∧
      Wraps 6 2 rows [(' ', false), (' ', false), ('0', false), ('1', false), (' ', true), ('0', true),
        ('2', true), (' ', true), ('0', true), ('3', true)] := by
  have hwidth : 1 ≤ (6 : UInt16).toNat := by decide
  exact @wrapLine_lossless Bool _ _ List.length
    (Line.ofSpans [⟨[' ', ' ', '0', '1'], false⟩, ⟨[' ', '0', '2', ' ', '0', '3'], true⟩])
    (fun _ _ => rfl) 6 hwidth []

/-- The first row ends behind the space, and each row behind it begins with two. -/
example : wrapLine List.length 11
    (Line.ofSpans [⟨[' ', ' ', '0', '1'], false⟩, ⟨[' ', '0', '2', ' ', '0', '3'], true⟩]) 6 [] =
      .ok [Line.ofSpans [⟨[' ', ' ', '0', '1'], false⟩, ⟨[' '], true⟩],
        Line.ofSpans [⟨[' ', ' '], false⟩, ⟨['0', '2', ' '], true⟩],
        Line.ofSpans [⟨[' ', ' '], false⟩, ⟨['0', '3'], true⟩]] := rfl

end

end SeeHandshake

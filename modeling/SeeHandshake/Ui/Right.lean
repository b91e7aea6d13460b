import SeeHandshake.Lib.Checked

/-!
# The right pane

`ui/panels/right.rs`: the lines of the sections of a record, wrapped to the width of the pane, and the offset
that keeps the selected section in view. What the lines of a section say is left out; styles are any type.
Positions in a list are natural numbers.
-/

namespace SeeHandshake

open Lib Panicking

/-! ## Lines -/

/-- A run of characters of one style. -/
structure Span (Style : Type) where
  content : List Char
  style : Style
  deriving DecidableEq, Repr

inductive Alignment where
  | left
  | center
  | right
  deriving DecidableEq, Repr

/-- A line of spans, with the style and the alignment of the line as a whole. -/
structure Line (Style : Type) where
  style : Style
  alignment : Option Alignment
  spans : List (Span Style)
  deriving DecidableEq, Repr

section Wrap

variable {Style : Type} [Inhabited Style]

/-- `Span::raw`. -/
def Span.raw (content : List Char) : Span Style := ⟨content, default⟩

/-- `Line::from`. -/
def Line.ofSpans (spans : List (Span Style)) : Line Style := ⟨default, none, spans⟩

/-- The characters of a span with their style. -/
def Span.chars (s : Span Style) : List (Char × Style) := s.content.map fun c => (c, s.style)

/-- The characters of a line with the styles of their spans. -/
def Line.chars (line : Line Style) : List (Char × Style) := line.spans.flatMap Span.chars

/-- The width of a line on the screen, by that of a text. -/
def Line.width (strWidth : List Char → ℕ) (line : Line Style) : ℕ :=
  line.spans.foldr (fun s n => strWidth s.content + n) 0

/-- The leading spaces of a line. -/
def Line.leadingSpaces (line : Line Style) : ℕ :=
  ((line.spans.flatMap (·.content)).takeWhile (· = ' ')).length

/-! ## Wrapping -/

/-- The end of a row behind its last space: back from `k` as long as the character in front of it is no
space, and not below `minContent`. -/
def backUp (chars : List (Char × Style)) (minContent : ℕ) : ℕ → Panicking ℕ
  | 0 => return 0
  | k + 1 => do
    if k + 1 > minContent then
      let c ← index chars k
      if c.1 ≠ ' ' then backUp chars minContent k else return k + 1
    else return k + 1

/-- The end of a row that begins at `i` and has room for `avail` characters: behind the last space in range,
if there is one. -/
def rowEnd (chars : List (Char × Style)) (i avail minContent : ℕ) : Panicking ℕ := do
  let hardEnd := min (i + avail) chars.length
  if hardEnd < chars.length then
    let k ← backUp chars minContent hardEnd
    return if k > minContent then k else hardEnd
  else return hardEnd

/-- The state of the loop that makes spans of characters: the spans so far, and where the run of one style
began that is not in them. -/
structure Run (Style : Type) where
  chunkStart : ℕ
  curStyle : Style
  spans : List (Span Style)

/-- The span of the characters from `chunkStart` to `j`. -/
def Run.push (chars : List (Char × Style)) (run : Run Style) (j : ℕ) : Panicking (List (Span Style)) := do
  let chunk ← slice chars run.chunkStart j
  return run.spans ++ [⟨chunk.map Prod.fst, run.curStyle⟩]

variable [DecidableEq Style]

/-- A turn of the loop over the characters of a row. -/
def coalesceTurn (chars : List (Char × Style)) (j : ℕ) (run : Run Style) :
    Panicking (ForInStep (Run Style)) := do
  let c ← index chars j
  if c.2 ≠ run.curStyle then
    let spans ← run.push chars j
    return .yield ⟨j, c.2, spans⟩
  return .yield run

/-- The spans of the characters from `i` to `stop`, behind `spans`. -/
def coalesce (chars : List (Char × Style)) (i stop : ℕ) (spans : List (Span Style)) :
    Panicking (List (Span Style)) := do
  let c ← index chars i
  let run ← forIn (List.range' (i + 1) (stop - (i + 1))) ⟨i, c.2, spans⟩ (coalesceTurn chars)
  run.push chars stop

/-- The state of the loop over the rows. -/
structure WrapState (Style : Type) where
  i : ℕ
  isFirst : Bool
  out : List (Line Style)

/-- A turn of the loop: one row. -/
def wrapTurn (chars : List (Char × Style)) (width indent : ℕ) (s : WrapState Style) :
    Panicking (ForInStep (WrapState Style)) := do
  if s.i < chars.length then
    let avail := if s.isFirst then width else width - indent
    if avail = 0 then return .done s
    let minContent := if s.isFirst then s.i + indent + 1 else s.i + 1
    let stop ← rowEnd chars s.i avail minContent
    let hanging := if !s.isFirst && indent > 0 then [Span.raw (List.replicate indent ' ')] else []
    let spans ← coalesce chars s.i stop hanging
    return .yield ⟨stop, false, s.out ++ [Line.ofSpans spans]⟩
  else return .done s

/-- A line, wrapped to `width` columns in at most `fuel` turns. Every row but the first hangs by the indent
of the line, but for one column at least. -/
def wrapLine (strWidth : List Char → ℕ) (fuel : ℕ) (line : Line Style) (width : UInt16)
    (out : List (Line Style)) : Panicking (List (Line Style)) := do
  let widthU := width.toNat
  if widthU = 0 ∨ line.width strWidth ≤ widthU then return out ++ [line]
  let indent := min line.leadingSpaces (widthU - 1)
  let s ← loop (wrapTurn line.chars widthU indent) fuel ⟨0, true, out⟩
  return s.out

/-- The lines of a text that wraps. -/
def wrapLinesWithIndent (strWidth : List Char → ℕ) (fuel : ℕ) (lines : List (Line Style)) (width : UInt16) :
    Panicking (List (Line Style)) :=
  lines.foldlM (fun out line => wrapLine strWidth fuel line width out) []

end Wrap

/-! ## Scrolling -/

/-- The rows of a section among the wrapped lines. -/
structure SectionSpan where
  start : ℕ
  len : ℕ
  deriving DecidableEq, Repr

/-- `n as u32`. -/
def asU32 (n : ℕ) : ℕ := n % 2 ^ 32

/-- The first row of the pane, such that the selected section is in view. `innerH` is the height of the
pane. -/
def scrollOffset (bounds : List SectionSpan) (selected : ℕ) (innerH : UInt16) : Panicking UInt16 := do
  if bounds.isEmpty ∨ innerH = 0 then return 0
  let some span := bounds[selected]? | return 0
  let innerH := innerH.toNat
  let selStartRow := asU32 span.start
  let selHeight := asU32 span.len
  let totalRows := (bounds.getLast?.map fun b => asU32 (b.start + b.len)).getD 0
  let maxScroll := totalRows - innerH
  -- Rows of the next section that should show below the selected one.
  let peek := 3
  let withPeek ← add 32 selHeight peek
  let desired ←
    if withPeek ≤ innerH then do
      let bottom ← add 32 selStartRow selHeight
      let bottom ← add 32 bottom peek
      pure (bottom - innerH)
    else if selHeight ≤ innerH then do
      let bottom ← add 32 selStartRow selHeight
      pure (bottom - innerH)
    else pure selStartRow
  let desired := max desired (selStartRow - (innerH - 1))
  let clamped := min (min desired maxScroll) selStartRow
  return if clamped < UInt16.size then UInt16.ofNat clamped else 0xFFFF

/-! ## The lines of the sections -/

section SectionsView

variable {Style : Type} [Inhabited Style] [DecidableEq Style]

/-- The rule between two sections. -/
def separatorLine (style : Style) (innerW : UInt16) : Line Style :=
  Line.ofSpans [⟨List.replicate (max innerW.toNat 1) '─', style⟩]

/-- What is shown without a record. -/
def noRecordLine (style : Style) : Line Style :=
  Line.ofSpans [⟨"No record selected. Arrow through the Records pane to explore.".toList, style⟩]

/-- One section more: a rule, unless it is the first, its lines, and an empty line. -/
def pushSection (strWidth : List Char → ℕ) (fuel : ℕ) (rule : Style) (innerW : UInt16)
    (view : List (Line Style) × List SectionSpan) (sectionLines : List (Line Style)) :
    Panicking (List (Line Style) × List SectionSpan) := do
  let (lines, bounds) := view
  let i := bounds.length
  let lines := if i > 0 then lines ++ [separatorLine rule innerW] else lines
  let start := lines.length
  let lines ← sectionLines.foldlM (fun out line => wrapLine strWidth fuel line innerW out) lines
  let len ← sub lines.length start
  return (lines ++ [Line.ofSpans []], bounds ++ [⟨start, len⟩])

/-- The lines of all sections, and where each of these is. -/
def sectionsView (strWidth : List Char → ℕ) (fuel : ℕ) (rule hint : Style) (innerW : UInt16)
    (sections : List (List (Line Style))) : Panicking (List (Line Style) × List SectionSpan) :=
  if sections.isEmpty then return ([noRecordLine hint], [])
  else sections.foldlM (pushSection strWidth fuel rule innerW) ([], [])

/-- `n.saturating_sub(2)`: the pane without its borders. -/
def withoutBorders (n : UInt16) : UInt16 := UInt16.ofNat (n.toNat - 2)

/-- What is rendered in a pane of a given width and height: the lines, and the first one in view. -/
def renderSections (strWidth : List Char → ℕ) (fuel : ℕ) (rule hint : Style) (width height : UInt16)
    (sections : List (List (Line Style))) (selected : ℕ) : Panicking (List (Line Style) × UInt16) := do
  let (lines, bounds) ← sectionsView strWidth fuel rule hint (withoutBorders width) sections
  let scroll ← scrollOffset bounds selected (withoutBorders height)
  return (lines, scroll)

end SectionsView

end SeeHandshake

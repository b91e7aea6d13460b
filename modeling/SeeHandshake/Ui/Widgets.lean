import SeeHandshake.Lib.Text
import SeeHandshake.Ui.Right

/-!
# Widgets

What the panels hand to the terminal library: styled lines, paragraphs and lists. The library places and
clips them; how it splits an area is a parameter.
-/

namespace SeeHandshake

open Lib

/-! ## Styles -/

inductive Color where
  | red
  | green
  | yellow
  | blue
  | magenta
  | cyan
  | darkGray
  | white
  | rgb (r g b : UInt8)
  deriving DecidableEq, Repr

/-- A style, as far as the panels use it. -/
structure Style where
  fg : Option Color := none
  bold : Bool := false
  italic : Bool := false
  reversed : Bool := false
  deriving DecidableEq, Inhabited, Repr

namespace Style

/-- `Style::default().fg(color)`. -/
def ofColor (color : Color) : Style := { fg := some color }

/-- `add_modifier(Modifier::BOLD)`. -/
def addBold (style : Style) : Style := { style with bold := true }

end Style

/-- `Span::styled`. -/
def styled (content : List Char) (style : Style) : Span Style := ⟨content, style⟩

/-- `Span::raw` of a literal. -/
def rawSpan (content : String) : Span Style := Span.raw content.toList

/-- `Line::from` of a text: a span for each of its lines. -/
def Line.ofText (text : List Char) : Line Style := Line.ofSpans ((lines text).map Span.raw)

/-! ## Widgets -/

/-- A block with borders on all sides. -/
structure Block where
  title : List Char
  borderStyle : Style
  deriving DecidableEq, Repr

structure Paragraph where
  lines : List (Line Style)
  block : Option Block
  /-- Whether the library wraps the lines, without trimming them. -/
  wrap : Bool
  /-- The first row in view. -/
  scroll : UInt16
  deriving DecidableEq, Repr

/-- A list, and the row that is highlighted. -/
structure ListWidget where
  items : List (Line Style)
  selected : Option ℕ
  block : Option Block
  deriving DecidableEq, Repr

/-! ## Areas -/

structure Rect where
  x : UInt16
  y : UInt16
  width : UInt16
  height : UInt16
  deriving DecidableEq, Repr

/-- How the terminal library splits an area. -/
structure Layouts where
  /-- The panels above the status line of one row. -/
  screen : Rect → Rect × Rect
  /-- The panels, of 25, 35 and 40 percent of the width. -/
  panels : Rect → Rect × Rect × Rect
  /-- The area inside the borders of a block. -/
  inner : Rect → Rect

end SeeHandshake

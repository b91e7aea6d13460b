import SeeHandshake.Ui.App
import SeeHandshake.Ui.SectionLines

/-!
# The flow diagram

`ui/panels/flow.rs`: the handshake between client and server as rows with numbered steps and arrows. Stage
labels are ASCII, so that their characters are their bytes.
-/

namespace SeeHandshake

open Lib Panicking

/-- Direction a handshake message travels on the wire. -/
inductive FlowDir where
  | right
  | left
  /-- Bidirectional (application data). -/
  | both
  deriving DecidableEq, Repr

/-- The step number of a stage, its direction, and whether it is encrypted. -/
def stepMeta (stage : HandshakeStage) (tls12 : Bool) : ℕ × FlowDir × Bool :=
  match stage with
  | .clientHello => (1, .right, false)
  | .serverHello => (2, .left, false)
  | .certificate => (3, .left, true)
  | .serverCertificate => (3, .left, false)
  | .serverKeyExchange => (4, .left, false)
  | .serverHelloDone => (6, .left, false)
  | .clientKeyExchange => (7, .right, false)
  | .clientFinished => if tls12 then (10, .right, true) else (4, .right, true)
  | .serverFinished => if tls12 then (12, .left, true) else (5, .left, true)
  | .applicationData => if tls12 then (13, .both, true) else (6, .both, true)
  | .idle | .errored => (0, .right, false)

/-- The number in a circle. -/
def circled (n : ℕ) : Char :=
  match n with
  | 1 => '①'
  | 2 => '②'
  | 3 => '③'
  | 4 => '④'
  | 5 => '⑤'
  | 6 => '⑥'
  | 7 => '⑦'
  | 8 => '⑧'
  | 9 => '⑨'
  | 10 => '⑩'
  | 11 => '⑪'
  | 12 => '⑫'
  | 13 => '⑬'
  | _ => '○'

/-! ## Rows -/

/-- The width between the bars. -/
def cw (innerWidth : ℕ) : ℕ := innerWidth - 8

/-- The style of the bars. -/
def barStyle : Style := Style.ofColor .darkGray

def barSpan : Span Style := styled ['│'] barStyle

/-- The row with the names of the two sides. -/
def flowHeaderLine (innerWidth : ℕ) : Line Style :=
  let boldYellow := (Style.ofColor .yellow).addBold
  let contentW := cw innerWidth
  let leftLabel := "CLIENT".toList
  let rightLabel := "SERVER".toList
  let gap := contentW - (leftLabel.length + rightLabel.length)
  Line.ofSpans [rawSpan "   ", barSpan, styled leftLabel boldYellow, Span.raw (List.replicate gap ' '),
    styled rightLabel boldYellow, barSpan, rawSpan "   "]

/-- A row with nothing but the two bars. -/
def connectorLine (innerWidth : ℕ) : Line Style :=
  Line.ofSpans [rawSpan "   ", barSpan, Span.raw (List.replicate (cw innerWidth) ' '), barSpan, rawSpan "   "]

/-- The columns that the heads of an arrow take. -/
def FlowDir.heads : FlowDir → ℕ
  | .both => 2
  | _ => 1

/-- An arrow with a label, of `width` columns. -/
def makeArrow (dir : FlowDir) (label : List Char) (width : ℕ) : Panicking (List Char) := do
  let heads := dir.heads
  if width ≤ label.length + heads then
    -- No room for the label: it is cut.
    let t ← sliceTo label (width - heads)
    return match dir with
      | .right => t ++ ['►']
      | .left => '◄' :: t
      | .both => '◄' :: (t ++ ['►'])
  else
    let rest ← sub width label.length
    let dashTotal ← sub rest heads
    let leftD := dashTotal / 2
    let rightD ← sub dashTotal leftD
    let l := List.replicate leftD '─'
    let r := List.replicate rightD '─'
    return match dir with
      | .right => l ++ label ++ r ++ ['►']
      | .left => '◄' :: (l ++ label ++ r)
      | .both => '◄' :: (l ++ label ++ r ++ ['►'])

/-- The style of a step: the cursor before the stage reached, before those in front of it. -/
def stepStyle (isCursor isCurrent isPast : Bool) : Style :=
  if isCursor then { (Style.ofColor .cyan).addBold with reversed := true }
  else if isCurrent then (Style.ofColor .green).addBold
  else if isPast then Style.ofColor .darkGray
  else {}

/-- The row of a step. -/
def stepLine (stage : HandshakeStage) (innerWidth : ℕ) (isCursor isCurrent isPast tls12 : Bool) :
    Panicking (Line Style) := do
  let (stepN, dir, encrypted) := stepMeta stage tls12
  let arrowStyle := stepStyle isCursor isCurrent isPast
  let ch := circled stepN
  let leftPrefix := match dir with
    | .right | .both => [ch, ' ', ' ']
    | .left => [' ', ' ', ' ']
  let rightSuffix := match dir with
    | .left => [' ', ch, if encrypted then 'E' else ' ']
    | .right | .both => if encrypted then [' ', ' ', 'E'] else [' ', ' ', ' ']
  let arrow ← makeArrow dir stage.label.toList (cw innerWidth)
  return Line.ofSpans [styled leftPrefix arrowStyle, barSpan, styled arrow arrowStyle, barSpan,
    styled rightSuffix arrowStyle]

/-! ## The diagram -/

/-- The stages that are shown as steps. -/
def flowStages (tls12 : Bool) : List HandshakeStage :=
  if tls12 then HandshakeStage.orderedTls12 else HandshakeStage.ordered

/-- The rows of the steps from position `i` on, with connectors between them. -/
def stepRows (tls12 : Bool) (innerWidth : ℕ) (cursorIdx currentIdx : Option ℕ) (i : ℕ) :
    List HandshakeStage → Panicking (List (Line Style))
  | [] => return []
  | stage :: stages => do
    let row ← stepLine stage innerWidth (cursorIdx = some i) (currentIdx = some i)
      (currentIdx.any fun c => i < c) tls12
    let rest ← stepRows tls12 innerWidth cursorIdx currentIdx (i + 1) stages
    return (if stages.isEmpty then [row] else [row, connectorLine innerWidth]) ++ rest

/-- The rows of the diagram. -/
def diagramRows (tls12 : Bool) (innerWidth : ℕ) (cursorStage : Option HandshakeStage)
    (currentStage : HandshakeStage) : Panicking (List (Line Style)) := do
  let ordered := flowStages tls12
  let cursorIdx := cursorStage.bind fun s => ordered.findIdx? (· = s)
  let currentIdx := ordered.findIdx? (· = currentStage)
  let steps ← stepRows tls12 innerWidth cursorIdx currentIdx 0 ordered
  return flowHeaderLine innerWidth :: connectorLine innerWidth :: steps

/-- `str::split` at a full stop and a space, behind the characters of a piece that has begun. -/
def splitSentences (piece : List Char) : List Char → List (List Char)
  | '.' :: ' ' :: rest => piece :: splitSentences [] rest
  | c :: rest => splitSentences (piece ++ [c]) rest
  | [] => [piece]

/-- The explanation of a stage. -/
def educationRows (copy : EducationalCopy) (stage : HandshakeStage) : List (Line Style) :=
  [Line.ofText [], Line.ofSpans [styled ("Educational: ".toList ++ stage.label.toList)
    (Style.ofColor .cyan).addBold]] ++
    ((splitSentences [] (copy.explain stage)).filter fun chunk => !chunk.isEmpty).map Line.ofText

/-- A title, with a mark if the pane has the focus. -/
def paneTitle (title : String) (focused : Bool) : List Char :=
  if focused then title.toList ++ " [focus]".toList else title.toList

/-- The style of the border of a pane. -/
def paneBorder (focused : Bool) : Style := if focused then Style.ofColor .cyan else {}

namespace App

/-- The stage that the selected connection has reached. -/
def currentStage (app : App) : HandshakeStage :=
  match app.selected with
  | some conn => conn.handshake.stage
  | none => .idle

/-- The center pane with the flow diagram. -/
def renderFlow (copy : EducationalCopy) (app : App) (area : Rect) : Panicking Paragraph := do
  let tls12 := app.selectedIsTls12
  let innerWidth := (withoutBorders area.width).toNat
  let cursorStage := app.selectedRecordStage
  let rows ← diagramRows tls12 innerWidth cursorStage app.currentStage
  let focusedStage := cursorStage.getD app.currentStage
  let education :=
    if app.education && focusedStage ≠ .idle then educationRows copy focusedStage else []
  let focused := app.focus = .records
  let baseTitle := if tls12 then "Handshake (TLS 1.2)" else "Handshake"
  return {
    lines := rows ++ education
    block := some ⟨paneTitle baseTitle focused, paneBorder focused⟩
    wrap := true
    scroll := 0 }

end App

end SeeHandshake

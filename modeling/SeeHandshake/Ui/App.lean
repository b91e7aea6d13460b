import Mathlib.Data.List.AList
import Mathlib.Data.List.Infix
import SeeHandshake.Model.Connection
import SeeHandshake.Tracker.Reassembly
import SeeHandshake.Ui.Sections

/-!
# The state of the user interface

`ui/app.rs`: the connections that are shown, the selection in each of the three panes, and the
operations that the event loop of `ui/mod.rs` applies, for keys and for the events of the tracker
thread (`ui/event.rs`).
-/

namespace SeeHandshake

/-- The pane that has the keyboard focus. -/
inductive PaneFocus where
  | connections
  | records
  | right
  deriving DecidableEq, Repr

/-- The pane to the left. -/
def PaneFocus.left : PaneFocus → PaneFocus
  | .connections => .connections
  | .records => .connections
  | .right => .records

/-- The pane to the right. -/
def PaneFocus.toRight : PaneFocus → PaneFocus
  | .connections => .records
  | .records => .right
  | .right => .right

/-- The pane to the right, and from the right pane the first one. -/
def PaneFocus.cycle : PaneFocus → PaneFocus
  | .connections => .records
  | .records => .right
  | .right => .connections

/-- What the middle pane shows. -/
inductive MiddlePaneMode where
  | records
  | flow
  deriving DecidableEq, Repr

/-- The other mode. -/
def MiddlePaneMode.toggle : MiddlePaneMode → MiddlePaneMode
  | .records => .flow
  | .flow => .records

/-- An update from the tracker thread. -/
inductive UiEvent where
  | handshakeUpdated (state : ConnectionState)
  /-- Some connections were evicted; only their number is told. -/
  | staleEvicted (removed : ℕ)
  deriving DecidableEq, Repr

/-- `a.saturating_add(b)` for a `usize` of 64 bits. -/
def usizeSaturatingAdd (a b : ℕ) : ℕ := min (a + b) 18446744073709551615

/-- `l.contains(needle)` for strings. -/
def strContains (l needle : String) : Bool := decide (needle.toList <:+: l.toList)

/-- The stage of the Finished message of a direction. -/
def RecordDirection.finished : RecordDirection → HandshakeStage
  | .clientToServer => .clientFinished
  | .serverToClient => .serverFinished

/-- The stage that the label of an encrypted record stands for. -/
def labelStage (direction : RecordDirection) (l : String) : HandshakeStage :=
  if strContains l "Finished only" then direction.finished
  else if strContains l "application data" || strContains l "early data" ||
      strContains l "NewSessionTicket" then
    .applicationData
  else if strContains l "Finished" then direction.finished
  else .certificate

/-- The stage that a record stands for, if it can be mapped to one. -/
def recordStage (tls12 : Bool) (record : RecordEvent) : Option HandshakeStage :=
  match record.body with
  | .handshake hs =>
    match hs with
    | .clientHello _ => some .clientHello
    | .serverHello _ | .helloRetryRequest _ => some .serverHello
    | .unknown msgType _ =>
      match msgType with
      | 11 => some (if tls12 then .serverCertificate else .certificate)
      | 12 => some .serverKeyExchange
      | 14 => some .serverHelloDone
      | 16 => some .clientKeyExchange
      | 20 => some record.direction.finished
      | _ => none
  | .encryptedHandshake inferredLabel _ => some (labelStage record.direction inferredLabel)
  | .changeCipherSpec => none

/-- The state of the user interface. The rows of the middle pane are the metadata in row 0 and the
records from row 1 on. -/
structure App where
  /-- The keys in the order in which they are shown. -/
  order : List ConnectionKey := []
  connections : AList fun _ : ConnectionKey => ConnectionState := ∅
  /-- The row of the left pane. -/
  selectedIndex : ℕ := 0
  focus : PaneFocus := .connections
  middleMode : MiddlePaneMode := .records
  /-- The row of the middle pane. -/
  recordsRow : ℕ := 0
  /-- The row of the right pane. -/
  sectionIndex : ℕ := 0
  education : Bool := false
  diagramOverlay : Bool := false
  tickCount : UInt64 := 0
  evicted : ℕ := 0

namespace App

/-- An empty user interface. -/
def new : App := {}

variable (app : App)

/-! ## Views -/

/-- The selected connection. -/
def selected : Option ConnectionState :=
  app.order[app.selectedIndex]?.bind fun k => app.connections.lookup k

/-- The connections in the order in which they are shown. -/
def connectionList : List ConnectionState := app.order.filterMap fun k => app.connections.lookup k

def selectedRecordCount : ℕ :=
  match app.selected with
  | some conn => conn.records.length
  | none => 0

/-- The record under the cursor of the middle pane. -/
def recordSelected : Option RecordEvent :=
  if app.recordsRow = 0 then none
  else app.selected.bind fun conn => conn.records[app.recordsRow - 1]?

/-- The sections of the selected record. -/
def sections : List Section :=
  match app.recordSelected with
  | some r => sectionsFor r
  | none => []

def sectionCount : ℕ := app.sections.length

/-- The row of the first ClientHello of the selected connection. -/
def clientHelloRow : Option ℕ := do
  let conn ← app.selected
  let index ← conn.records.findIdx? fun r =>
    match r.body with
    | .handshake (.clientHello _) => true
    | _ => false
  return index + 1

/-- Whether the selected connection is known to be TLS 1.2 or older. -/
def selectedIsTls12 : Bool :=
  match app.selected with
  | some conn => isTls12 conn.handshake.tlsVersion
  | none => false

/-- The stage that the record under the cursor stands for. -/
def selectedRecordStage : Option HandshakeStage := do
  let conn ← app.selected
  if app.recordsRow = 0 then none
  else
    let record ← conn.records[app.recordsRow - 1]?
    recordStage app.selectedIsTls12 record

/-! ## Navigation -/

def toggleEducation : App := { app with education := !app.education }

def toggleDiagram : App := { app with diagramOverlay := !app.diagramOverlay }

def tick : App := { app with tickCount := app.tickCount + 1 }

def onRecordsRowChanged : App := { app with sectionIndex := 0 }

def onConnectionChanged : App := { app with recordsRow := 0, sectionIndex := 0 }

/-- Switch the middle pane; the flow diagram starts at the ClientHello. -/
def toggleMiddleMode : App :=
  let app := { app with middleMode := app.middleMode.toggle }
  if app.middleMode = .flow then
    match app.clientHelloRow with
    | some row => { app with recordsRow := row }.onRecordsRowChanged
    | none => app
  else app

/-- Drop every connection. -/
def clearConnections : App :=
  { app with order := [], connections := ∅, selectedIndex := 0, focus := .connections,
             recordsRow := 0, sectionIndex := 0 }

/-- The right pane has nothing to select in the metadata row. -/
def advancePastMetadataRow : App :=
  if app.recordsRow = 0 ∧ app.selectedRecordCount > 0 then
    { app with recordsRow := 1 }.onRecordsRowChanged
  else app

def focusLeft : App := { app with focus := app.focus.left }

def focusRight : App :=
  let app := { app with focus := app.focus.toRight }
  if app.focus = .right then app.advancePastMetadataRow else app

def focusCycle : App :=
  let app := { app with focus := app.focus.cycle }
  if app.focus = .right then app.advancePastMetadataRow else app

def connectionPrev : App :=
  if app.order.isEmpty then app
  else
    let before := app.selectedIndex
    let app := { app with selectedIndex := app.selectedIndex - 1 }
    if app.selectedIndex ≠ before then app.onConnectionChanged else app

def connectionNext : App :=
  if app.order.isEmpty then app
  else
    let last := app.order.length - 1
    let before := app.selectedIndex
    let app := if app.selectedIndex < last then { app with selectedIndex := app.selectedIndex + 1 }
      else app
    if app.selectedIndex ≠ before then app.onConnectionChanged else app

def recordPrev : App :=
  let before := app.recordsRow
  let app := { app with recordsRow := app.recordsRow - 1 }
  if app.recordsRow ≠ before then app.onRecordsRowChanged else app

def recordNext : App :=
  let cap := app.selectedRecordCount
  let before := app.recordsRow
  let app := if app.recordsRow < cap then { app with recordsRow := app.recordsRow + 1 } else app
  if app.recordsRow ≠ before then app.onRecordsRowChanged else app

def sectionPrev : App :=
  if app.recordsRow = 0 then app else { app with sectionIndex := app.sectionIndex - 1 }

def sectionNext : App :=
  if app.recordsRow = 0 then app
  else
    let cap := app.sectionCount - 1
    if app.sectionIndex < cap then { app with sectionIndex := app.sectionIndex + 1 } else app

/-- The up key. -/
def selectPrev : App :=
  match app.focus with
  | .connections => app.connectionPrev
  | .records => app.recordPrev
  | .right => app.sectionPrev

/-- The down key. -/
def selectNext : App :=
  match app.focus with
  | .connections => app.connectionNext
  | .records => app.recordNext
  | .right => app.sectionNext

/-! ## Events -/

/-- Keep the rows of the middle and the right pane in range. -/
def clampIndices : App :=
  let rowCap := app.selectedRecordCount
  let app := if app.recordsRow > rowCap then { app with recordsRow := rowCap } else app
  let secCap := app.sectionCount - 1
  if app.sectionIndex > secCap then { app with sectionIndex := secCap } else app

/-- Consume an event of the tracker thread. -/
def handleUiEvent : UiEvent → App
  | .handshakeUpdated state =>
    let key := state.key
    let app := if key ∈ app.connections then app else { app with order := app.order ++ [key] }
    let isSelected := app.order[app.selectedIndex]? = some key
    let app := { app with connections := app.connections.insert key state }
    if isSelected then app.clampIndices else app
  | .staleEvicted removed =>
    let app := { app with evicted := usizeSaturatingAdd app.evicted removed }
    let selectedKey := app.order[app.selectedIndex]?
    let app := { app with order := app.order.filter fun k => k ∈ app.connections }
    if app.order.isEmpty then { app with selectedIndex := 0 }.onConnectionChanged
    else
      let app := match selectedKey.bind fun k => app.order.findIdx? (· = k) with
        | some pos => { app with selectedIndex := pos }
        | none =>
          { app with selectedIndex := min app.selectedIndex (app.order.length - 1) }.onConnectionChanged
      app.clampIndices

end App

/-! ## Runs -/

/-- An operation of the user interface. -/
inductive AppOp where
  | handleUiEvent (evt : UiEvent)
  | selectPrev
  | selectNext
  | focusLeft
  | focusRight
  | focusCycle
  | toggleMiddleMode
  | toggleEducation
  | toggleDiagram
  | clearConnections
  | tick
  deriving DecidableEq, Repr

/-- The user interface after an operation. -/
def App.op (app : App) : AppOp → App
  | .handleUiEvent evt => app.handleUiEvent evt
  | .selectPrev => app.selectPrev
  | .selectNext => app.selectNext
  | .focusLeft => app.focusLeft
  | .focusRight => app.focusRight
  | .focusCycle => app.focusCycle
  | .toggleMiddleMode => app.toggleMiddleMode
  | .toggleEducation => app.toggleEducation
  | .toggleDiagram => app.toggleDiagram
  | .clearConnections => app.clearConnections
  | .tick => app.tick

/-- The user interface after a sequence of operations. -/
def App.ops (app : App) (os : List AppOp) : App := os.foldl App.op app

end SeeHandshake

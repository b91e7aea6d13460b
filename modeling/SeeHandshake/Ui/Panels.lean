import SeeHandshake.Ui.Flow

/-!
# The screen

`ui/panels/`: the three panels and the status line, drawn from the state of the user interface.
-/

namespace SeeHandshake

open Lib Panicking

/-! ## The connection list -/

/-- The name of a connection: that of the server, or its address. -/
def connectionLabel (c : ConnectionState) : List Char :=
  match c.handshake.sni with
  | some sni => sni.toList
  | none => c.key.serverIp.display

/-- The left panel. -/
def App.renderConnections (app : App) : Panicking ListWidget := do
  let items : List (Line Style) := app.connectionList.map fun c => Line.ofSpans [Span.raw (connectionLabel c)]
  let selected ←
    if items.isEmpty then pure none
    else do
      let last ← sub items.length 1
      pure (some (min app.selectedIndex last))
  let focused : Bool := app.focus = .connections
  let title := "Connections (".toList ++ decimal items.length ++ [')'] ++
    if focused then " [focus]".toList else []
  return ⟨items, selected, some ⟨title, paneBorder focused⟩⟩

/-! ## The timeline -/

/-- One part more of the summary, behind a dot unless it is the first. -/
def pushSummary (summary : List Char) (part : Option String) : List Char :=
  match part with
  | some text => (if summary.isEmpty then summary else summary ++ "  ·  ".toList) ++ text.toList
  | none => summary

/-- What was negotiated, in one line. -/
def summaryText (hs : HandshakeInfo) : List Char :=
  let summary := pushSummary [] (hs.tlsVersion.map TlsVersion.display)
  let summary := pushSummary summary (hs.cipherSuiteSelected.map CipherSuite.display)
  pushSummary summary (hs.keyShareGroup.map NamedGroup.display)

/-- Small legend that frames the flights. -/
def flightLegend (version : Option TlsVersion) : String :=
  match version with
  | some .tls13 => "flights:  1) ClientHello (clear)   2) ServerHello (clear)   3+) encrypted handshake"
  | some .ssl30 | some .tls10 | some .tls11 | some .tls12 =>
    "flights:  1) ClientHello   2) ServerHello / Certificate / KeyExchange   3) CCS + encrypted Finished"
  | _ => "flights:  1) ClientHello (clear)   2) ServerHello (clear)   3+) protocol-dependent"

/-- The summary above the timeline. -/
def summaryHeader (state : ConnectionState) : List (Line Style) :=
  let summary := summaryText state.handshake
  [Line.ofSpans [styled ['→', ' '] (Style.ofColor .cyan).addBold,
    styled (connectionLabel state) { bold := true }]] ++
  (if summary.isEmpty then [] else [Line.ofSpans [styled summary (Style.ofColor .darkGray)]]) ++
  [Line.ofSpans [styled (flightLegend state.handshake.tlsVersion).toList (Style.ofColor .darkGray)],
    Line.ofText []]

/-- The kind of a record, and its label. -/
def describe (r : RecordEvent) : String × String :=
  match r.body with
  | .handshake hs => ("plaintext", hs.label)
  | .encryptedHandshake inferredLabel _ => ("encrypted", inferredLabel)
  | .changeCipherSpec => ("legacy", "ChangeCipherSpec (cipher activation)")

/-- The row of a record. -/
def rowLine (r : RecordEvent) (firstTs : UInt64) : Line Style :=
  let dt := (u64SaturatingSub r.timestampMs firstTs).toNat
  let dirStyle := Style.ofColor (match r.direction with
    | .clientToServer => .green
    | .serverToClient => .magenta)
  let (tag, label) := describe r
  Line.ofSpans [styled (r.direction.arrow.toList ++ [' ']) dirStyle.addBold,
    styled (alignRight 5 (decimal dt) ++ "ms  ".toList) dirStyle,
    styled (alignLeft 11 tag.toList) dirStyle,
    styled (alignRight 5 (decimal r.outerLength.toNat) ++ "B  ".toList) dirStyle,
    styled label.toList dirStyle]

/-- The first row of the timeline. -/
def metadataRowLine : Line Style :=
  Line.ofSpans [rawSpan "  ", rawSpan "         ",
    styled (alignLeft 11 "Metadata".toList) (Style.ofColor .cyan).addBold, rawSpan "        ",
    styled "connection overview".toList (Style.ofColor .darkGray)]

/-- The rows of the timeline. -/
def timelineRows (state : ConnectionState) : List (Line Style) :=
  let firstTs := (state.records.head?.map fun r => r.timestampMs).getD 0
  metadataRowLine :: state.records.map fun r => rowLine r firstTs

/-- What the middle pane shows in its border. -/
inductive RecordsPane where
  /-- No connection is selected. -/
  | empty (message : Paragraph)
  /-- The summary, if there is room for it, and the timeline. -/
  | timeline (header : Option Paragraph) (records : ListWidget)
  deriving DecidableEq, Repr

/-- The middle panel with the timeline. -/
def App.renderRecords (layouts : Layouts) (app : App) (area : Rect) : Panicking (Block × RecordsPane) := do
  let focused : Bool := app.focus = .records
  let block : Block := ⟨paneTitle "Handshake" focused, paneBorder focused⟩
  let inner := layouts.inner area
  match app.selected with
  | none =>
    let message := Line.ofSpans [styled "No connection selected.".toList (Style.ofColor .darkGray)]
    return (block, .empty ⟨[message], none, true, 0⟩)
  | some state => do
    let headerLines := summaryHeader state
    let headerH := min headerLines.length inner.height.toNat
    let header : Option Paragraph := if headerH > 0 then some ⟨headerLines, none, true, 0⟩ else none
    let items := timelineRows state
    let last ← sub items.length 1
    return (block, .timeline header ⟨items, some (min app.recordsRow last), none⟩)

/-! ## The metadata -/

/-- A field, its label in a column of 16. -/
def metadataField (label : String) (value : List Char) : Line Style :=
  Line.ofSpans [styled (alignLeft 16 label.toList) { bold := true }, Span.raw value]

/-- The text of a field that may be missing. -/
def orDash (value : Option (List Char)) : List Char := value.getD ['—']

def handshakeMetadataLines (hs : HandshakeInfo) : List (Line Style) :=
  [metadataField "TLS Version" (orDash (hs.tlsVersion.map fun v => v.display.toList)),
    metadataField "SNI" (orDash (hs.sni.map String.toList)),
    metadataField "Cipher" (orDash (hs.cipherSuiteSelected.map fun c => c.display.toList)),
    metadataField "Key Exchange" (orDash (hs.keyShareGroup.map fun g => g.display.toList)),
    metadataField "ALPN offered"
      (if hs.alpnOffered.isEmpty then ['—'] else joinComma (hs.alpnOffered.map fun p => p.display.toList)),
    metadataField "ALPN selected"
      ((hs.alpnSelected.map fun p => p.display.toList).getD "encrypted (TLS 1.3)".toList),
    metadataField "Cert Subject" (orDash (hs.certificateSubject.map String.toList)),
    metadataField "Cert Issuer" (orDash (hs.certificateIssuer.map String.toList))]

/-- The label of the origin. -/
def originLabel : Span Style := styled (alignLeft 16 "Origin".toList) { bold := true }

/-- The rows of the origin. -/
def originLine (origin : Option Origin) : Option (List (Line Style)) := do
  match ← origin with
  | .localProcess p =>
    let first := Line.ofSpans [originLabel, styled p.comm.toList (Style.ofColor .green),
      styled (" (pid ".toList ++ decimal p.pid.toNat ++ ", uid ".toList ++ decimal p.uid.toNat ++ [')'])
        (Style.ofColor .darkGray)]
    let second := Line.ofSpans [Span.raw (List.replicate 16 ' '),
      styled p.cmdline.toList (Style.ofColor .darkGray)]
    return first :: if !p.cmdline.isEmpty && p.cmdline ≠ p.comm then [second] else []
  | .otherUser uid =>
    return [Line.ofSpans [originLabel,
      styled ("other user (uid ".toList ++ decimal uid.toNat ++ [')']) (Style.ofColor .darkGray)]]
  | .unknown => return [Line.ofSpans [originLabel, styled "unknown".toList (Style.ofColor .darkGray)]]
  | .unsupported => none

/-- The lines of the metadata. -/
def App.metadataLines (app : App) : List (Line Style) :=
  match app.selected with
  | none =>
    [Line.ofSpans [styled "No connection selected. Waiting for traffic…".toList (Style.ofColor .darkGray)]]
  | some state =>
    [metadataField "Connection" state.key.display] ++ (originLine state.handshake.origin).getD [] ++
      handshakeMetadataLines state.handshake ++
      match state.handshake.error with
      | some err => [Line.ofText [], Line.ofSpans [styled ("Error: ".toList ++ err.toList) (Style.ofColor .red)]]
      | none => []

/-! ## The right panel -/

/-- What the right pane shows. -/
inductive RightPaneMode where
  /-- Connection metadata. -/
  | metadata
  /-- Per-record sections. -/
  | sections
  deriving DecidableEq, Repr

/-- The mode follows from the row of the middle pane. -/
def App.rightMode (app : App) : RightPaneMode := if app.recordsRow = 0 then .metadata else .sections

/-- The label of a record in the title. -/
def recordLabel (r : RecordEvent) : String :=
  match r.body with
  | .handshake hs => hs.label
  | .encryptedHandshake inferredLabel _ => inferredLabel
  | .changeCipherSpec => "ChangeCipherSpec"

/-- The lines of the sections from position `i` on. -/
def renderSectionsFrom (copy : EducationalCopy) (selected : ℕ) (showEducation : Bool) (i : ℕ) :
    List Section → Panicking (List (List (Line Style)))
  | [] => return []
  | s :: rest => do
    let first ← renderSection copy s (selected = i) showEducation
    let others ← renderSectionsFrom copy selected showEducation (i + 1) rest
    return first :: others

/-- The lines of the sections of the selected record. -/
def App.sectionLines (copy : EducationalCopy) (app : App) : Panicking (List (List (Line Style))) :=
  renderSectionsFrom copy app.sectionIndex app.education 0 app.sections

/-- The rule between two sections. -/
def ruleStyle : Style := Style.ofColor (.rgb 255 140 0)

/-- The title of the right pane with the sections of a record. -/
def App.sectionsTitle (app : App) : List Char :=
  if app.sections.isEmpty then "Sections".toList
  else "Sections — ".toList ++ ((app.recordSelected.map recordLabel).getD "record").toList

section Right

variable (strWidth : List Char → ℕ) (fuel : ℕ) (copy : EducationalCopy)

/-- The right panel. -/
def App.renderRight (app : App) (area : Rect) : Panicking Paragraph := do
  let focused : Bool := app.focus = .right
  let (title, lines, scroll) ←
    match app.rightMode with
    | .metadata => do
      let lines ← wrapLinesWithIndent strWidth fuel app.metadataLines (withoutBorders area.width)
      pure ("Metadata".toList, lines, 0)
    | .sections => do
      let sections ← app.sectionLines copy
      let (lines, scroll) ← renderSections strWidth fuel ruleStyle (Style.ofColor .darkGray) area.width
        area.height sections app.sectionIndex
      pure (app.sectionsTitle, lines, scroll)
  let title := if focused then title ++ " [focus]".toList else title
  return ⟨lines, some ⟨title, paneBorder focused⟩, false, scroll⟩

/-! ## The screen -/

/-- What the middle panel shows. -/
inductive MiddlePane where
  | records (block : Block) (pane : RecordsPane)
  | flow (paragraph : Paragraph)
  deriving DecidableEq, Repr

/-- The status line, up to the names of the keys. -/
structure StatusLine where
  connections : ℕ
  evicted : ℕ
  education : Bool
  middleMode : MiddlePaneMode
  diagram : Bool
  deriving DecidableEq, Repr

/-- One frame of the user interface. -/
structure Screen where
  connections : ListWidget
  middle : MiddlePane
  right : Paragraph
  /-- Whether the reference diagram lies over the panels. -/
  diagram : Bool
  status : StatusLine
  deriving DecidableEq, Repr

/-- Render one frame of the UI. -/
def App.render (layouts : Layouts) (app : App) (area : Rect) : Panicking Screen := do
  let (body, _) := layouts.screen area
  let (_, middleArea, rightArea) := layouts.panels body
  let connections ← app.renderConnections
  let middle ←
    match app.middleMode with
    | .records => do
      let (block, pane) ← app.renderRecords layouts middleArea
      pure (.records block pane)
    | .flow => do
      let paragraph ← app.renderFlow copy middleArea
      pure (.flow paragraph)
  let right ← app.renderRight strWidth fuel copy rightArea
  return {
    connections
    middle
    right
    diagram := app.diagramOverlay
    status := ⟨app.connectionList.length, app.evicted, app.education, app.middleMode, app.diagramOverlay⟩ }

end Right

end SeeHandshake

import SeeHandshake.Proofs.DiagramProofs
import SeeHandshake.Proofs.DisplayProofs
import SeeHandshake.Proofs.PaneProofs
import SeeHandshake.Proofs.RecordsShownProofs
import SeeHandshake.Ui.Education

/-!
# Drawing

Every frame that the event loop draws can be drawn: no slice is out of bounds, nothing overflows and every
loop ends, whatever was captured, whatever was pressed and however small the terminal is. What is drawn is
what is selected.
-/

namespace SeeHandshake

open Lib Panicking

/-! ## The right pane -/

/-- Lines that are few enough can be laid out and scrolled. -/
theorem renderSections_ok {Style : Type} [Inhabited Style] [DecidableEq Style] (strWidth : List Char → ℕ)
    {fuel : ℕ} (rule hint : Style) (width height : UInt16) {sections : List (List (Line Style))}
    (hfuel : total linesSize sections < fuel)
    (hsize : total linesSize sections + 2 * sections.length + 4 < 2 ^ 32) (selected : ℕ) :
    ∃ view, renderSections strWidth fuel rule hint width height sections selected = .ok view := by
  unfold renderSections
  by_cases hempty : sections = []
  · subst hempty
    have hview : sectionsView strWidth fuel rule hint (withoutBorders width) [] = .ok ([noRecordLine hint], []) := rfl
    obtain ⟨scroll, hscroll⟩ := @scrollOffset_ok [] (fun _ h => absurd h List.not_mem_nil) selected
      (withoutBorders height)
    rw [hview, ok_bind]
    simp only
    rw [hscroll]
    exact ⟨_, rfl⟩
  · have hlines : ∀ sectionLines ∈ sections, ∀ line ∈ sectionLines, line.chars.length < fuel :=
      fun sectionLines hsection line hline => Nat.lt_trans (length_chars_lt_total hsection hline) hfuel
    obtain ⟨view, hview, hlayout⟩ :=
      sectionsView_layout strWidth rule hint (withoutBorders width) hempty hlines
    have hrows := length_sectionsView_le hview
    obtain ⟨scroll, hscroll⟩ := @scrollOffset_ok view.2 (fun span hspan => by
      have hend := end_le_totalRows hlayout.ordered hspan
      have htotal := hlayout.total_le
      omega) selected (withoutBorders height)
    rw [hview, ok_bind]
    simp only
    rw [hscroll]
    exact ⟨_, rfl⟩

/-- The records that are shown were framed. -/
def App.Decoded (app : App) : Prop := ∀ key state, app.connections.lookup key = some state → state.Decoded

theorem App.Decoded.recordSelected {app : App} (h : app.Decoded) {r : RecordEvent} (hr : app.recordSelected = some r) :
    r.Decoded := by
  unfold App.recordSelected at hr
  split_ifs at hr
  obtain ⟨conn, hconn, hr⟩ := Option.bind_eq_some_iff.mp hr
  unfold App.selected at hconn
  obtain ⟨key, -, hlookup⟩ := Option.bind_eq_some_iff.mp hconn
  exact h key conn hlookup r (List.mem_of_getElem? hr)

/-- The lines of the selected record. -/
theorem App.sectionLines_ok (copy : EducationalCopy) {app : App} (h : app.Decoded) :
    ∃ sections, app.sectionLines copy = .ok sections ∧ sections.length = app.sections.length ∧
      total linesSize sections + 2 * sections.length + 4 < 2 ^ 32 := by
  unfold App.sectionLines
  cases hrecord : app.recordSelected with
  | none =>
    have hnone : app.sections = [] := by
      unfold App.sections
      rw [hrecord]
    rw [hnone]
    exact ⟨[], rfl, rfl, by decide⟩
  | some r =>
    have hsections : app.sections = sectionsFor r := by
      unfold App.sections
      rw [hrecord]
    obtain ⟨p, hp, n, hfit, hn, hcount⟩ := (h.recordSelected hrecord).fits
    obtain ⟨sections, hrender, hlength, htotal⟩ :=
      renderSectionsFrom_ok copy hfit app.sectionIndex app.education 0
    have hmax : MAX_RECORD_PAYLOAD = 16384 := rfl
    rw [hsections]
    exact ⟨sections, hrender, hlength, by omega⟩

/-- The turns that wrapping the lines of the right pane may take. -/
def App.rightFuel (copy : EducationalCopy) (app : App) : ℕ :=
  linesSize app.metadataLines + total linesSize ((app.sectionLines copy).toOption.getD [])

theorem App.renderRight_ok (strWidth : List Char → ℕ) {fuel : ℕ} (copy : EducationalCopy) {app : App}
    (h : app.Decoded) (hfuel : app.rightFuel copy < fuel) (area : Rect) :
    ∃ p, app.renderRight strWidth fuel copy area = .ok p := by
  obtain ⟨sections, hsections, -, hsize⟩ := app.sectionLines_ok copy h
  unfold App.rightFuel at hfuel
  rw [hsections] at hfuel
  simp only [Except.toOption, Option.getD_some] at hfuel
  unfold App.renderRight
  cases hmode : app.rightMode with
  | metadata =>
    have hlines : ∀ line ∈ app.metadataLines, line.chars.length < fuel := by
      intro line hline
      have hlt := length_chars_lt hline
      omega
    obtain ⟨rows, hrows, -⟩ := wrapLinesWithIndent_shows strWidth hlines (withoutBorders area.width)
    simp only
    rw [hrows]
    exact ⟨_, rfl⟩
  | sections =>
    obtain ⟨view, hview⟩ := renderSections_ok strWidth ruleStyle (Style.ofColor .darkGray) area.width area.height
      (by omega : total linesSize sections < fuel) hsize app.sectionIndex
    simp only
    rw [hsections, ok_bind, hview]
    exact ⟨_, rfl⟩

/-! ## The other panes -/

theorem App.renderConnections_ok (app : App) : ∃ list, app.renderConnections = .ok list ∧
    list.items = app.connectionList.map (fun c => Line.ofSpans [Span.raw (connectionLabel c)]) ∧
    list.selected = if app.connectionList = [] then none
      else some (min app.selectedIndex (app.connectionList.length - 1)) := by
  unfold App.renderConnections
  simp only [List.isEmpty_map, List.length_map]
  by_cases hempty : app.connectionList = []
  · rw [hempty]
    exact ⟨_, rfl, rfl, rfl⟩
  · have hpos := List.length_pos_iff.mpr hempty
    rw [if_neg (mt List.isEmpty_iff.mp hempty), sub_eq (by omega), ok_bind, if_neg hempty]
    exact ⟨_, rfl, rfl, rfl⟩

/-- The row of the selected record in the timeline. -/
theorem getElem?_timelineRows {app : App} {conn : ConnectionState} (hselected : app.selected = some conn)
    {r : RecordEvent} (hr : app.recordSelected = some r) :
    (timelineRows conn)[app.recordsRow]? =
      some (rowLine r ((conn.records.head?.map fun r => r.timestampMs).getD 0)) := by
  unfold App.recordSelected at hr
  split_ifs at hr with hrow
  rw [hselected, Option.bind_some] at hr
  obtain ⟨k, hk⟩ := Nat.exists_eq_succ_of_ne_zero hrow
  rw [hk, Nat.succ_sub_one] at hr
  unfold timelineRows
  rw [hk, List.getElem?_cons_succ, List.getElem?_map, hr]
  rfl

/-- What the middle pane shows of a connection: the metadata row and a row for each record, with the row of the
cursor highlighted, which is that of the selected record. -/
def RecordsPane.Shows (app : App) : RecordsPane → Prop
  | .empty _ => app.selected = none
  | .timeline _ list => ∃ conn, app.selected = some conn ∧ list.items = timelineRows conn ∧
      list.selected = some app.recordsRow ∧ ∀ r, app.recordSelected = some r →
        list.items[app.recordsRow]? = some (rowLine r ((conn.records.head?.map fun r => r.timestampMs).getD 0))

theorem App.InRange.renderRecords_ok {app : App} (h : app.InRange) (layouts : Layouts) (area : Rect) :
    ∃ block pane, app.renderRecords layouts area = .ok (block, pane) ∧ pane.Shows app := by
  have hle := h.recordsRow_le
  unfold App.renderRecords
  unfold App.selectedRecordCount at hle
  cases hselected : app.selected with
  | none => exact ⟨_, _, rfl, hselected⟩
  | some conn =>
    rw [hselected] at hle
    have hlength : (timelineRows conn).length = conn.records.length + 1 := by
      unfold timelineRows
      rw [List.length_cons, List.length_map]
    simp only
    rw [hlength, sub_eq (by omega), ok_bind, Nat.add_sub_cancel, Nat.min_eq_left hle]
    exact ⟨_, _, rfl, conn, hselected, rfl, rfl, fun r hr => getElem?_timelineRows hselected hr⟩

/-! ## The screen -/

/-- A screen is drawn of a user interface whose records were framed. -/
theorem App.render_ok (strWidth : List Char → ℕ) {fuel : ℕ} (copy : EducationalCopy) (layouts : Layouts) {app : App}
    (hvalid : app.Valid) (h : app.Decoded) (hfuel : app.rightFuel copy < fuel) (area : Rect) :
    ∃ screen, app.render strWidth fuel copy layouts area = .ok screen := by
  obtain ⟨list, hlist, -⟩ := app.renderConnections_ok
  obtain ⟨block, pane, hpane, -⟩ := hvalid.renderRecords_ok layouts (layouts.panels (layouts.screen area).1).2.1
  obtain ⟨rows, hrows, -⟩ := diagramRows_ok app.selectedIsTls12
    (withoutBorders (layouts.panels (layouts.screen area).1).2.1.width).toNat app.selectedRecordStage app.currentStage
  obtain ⟨right, hright⟩ := app.renderRight_ok strWidth copy h hfuel (layouts.panels (layouts.screen area).1).2.2
  unfold App.render
  simp only
  rw [hlist, ok_bind]
  cases app.middleMode with
  | records =>
    simp only
    rw [hpane, ok_bind]
    simp only
    rw [pure_bind, hright]
    exact ⟨_, rfl⟩
  | flow =>
    unfold App.renderFlow
    simp only
    rw [hrows, ok_bind, pure_bind, pure_bind, hright]
    exact ⟨_, rfl⟩

/-- The list of the left pane has a row for each key. -/
theorem App.Listed.getElem?_connectionList {app : App} (h : app.Listed) (i : ℕ) :
    app.connectionList[i]? = app.order[i]?.bind fun key => app.connections.lookup key := by
  have hall : ∀ order : List ConnectionKey, (∀ key ∈ order, key ∈ app.connections) → ∀ i : ℕ,
      (order.filterMap fun key => app.connections.lookup key)[i]? =
        order[i]?.bind fun key => app.connections.lookup key := by
    intro order
    induction order with
    | nil => exact fun _ _ => rfl
    | cons key order ih =>
      intro hmem i
      obtain ⟨conn, hconn⟩ := Option.isSome_iff_exists.mp (AList.lookup_isSome.mpr (hmem key List.mem_cons_self))
      rw [show (key :: order).filterMap _ = conn :: order.filterMap _ from List.filterMap_cons_some hconn]
      cases i with
      | zero => exact hconn.symm
      | succ i => exact ih (fun k hk => hmem k (List.mem_cons_of_mem key hk)) i
  exact hall app.order (fun key hkey => (h.mem_order key).mp hkey) i

theorem App.Listed.length_connectionList {app : App} (h : app.Listed) :
    app.connectionList.length = app.order.length := by
  unfold App.connectionList
  rw [List.length_filterMap_eq_countP, List.countP_eq_length]
  intro key hkey
  exact AList.lookup_isSome.mpr ((h.mem_order key).mp hkey)

/-- What a screen shows of the user interface: the connections in order with the selected one highlighted, the
records of that one with the selected one highlighted, and beside them the metadata or the sections. -/
structure Screen.Shows (app : App) (screen : Screen) : Prop where
  connections : ∀ i : ℕ, screen.connections.items[i]? = (app.order[i]?.bind fun key => app.connections.lookup key).map
    fun conn => Line.ofSpans [Span.raw (connectionLabel conn)]
  selectedConnection : screen.connections.selected = if app.order = [] then none else some app.selectedIndex
  records : ∀ block pane, screen.middle = .records block pane → pane.Shows app
  mode : (∃ block pane, screen.middle = .records block pane) ↔ app.middleMode = .records
  metadata : app.recordsRow = 0 ↔ app.recordSelected = none
  status : screen.status = ⟨app.order.length, app.evicted, app.education, app.middleMode, app.diagramOverlay⟩

/-- The parts of a screen. -/
theorem App.Valid.render_cases {app : App} (h : app.Valid) {strWidth : List Char → ℕ} {fuel : ℕ} {copy : EducationalCopy}
    {layouts : Layouts} {area : Rect} {screen : Screen}
    (hscreen : app.render strWidth fuel copy layouts area = .ok screen) :
    ∃ list middle right, app.renderConnections = .ok list ∧
      app.renderRight strWidth fuel copy (layouts.panels (layouts.screen area).1).2.2 = .ok right ∧
      screen = ⟨list, middle, right, app.diagramOverlay,
        ⟨app.connectionList.length, app.evicted, app.education, app.middleMode, app.diagramOverlay⟩⟩ ∧
      (app.middleMode = .records ∧ (∃ block pane, middle = .records block pane ∧ pane.Shows app) ∨
        app.middleMode = .flow ∧ ∃ paragraph, middle = .flow paragraph) := by
  unfold App.render at hscreen
  simp only at hscreen
  obtain ⟨list, hlist, hscreen⟩ := exists_of_bind_eq_ok hscreen
  cases hmode : app.middleMode with
  | records =>
    obtain ⟨block, pane, hrecords, hshows⟩ :=
      h.renderRecords_ok layouts (layouts.panels (layouts.screen area).1).2.1
    rw [hmode] at hscreen
    simp only at hscreen
    rw [hrecords, ok_bind] at hscreen
    obtain ⟨middle, hmiddle, hscreen⟩ := exists_of_bind_eq_ok hscreen
    obtain rfl := Except.ok.inj hmiddle
    obtain ⟨right, hright, hscreen⟩ := exists_of_bind_eq_ok hscreen
    exact ⟨list, _, right, hlist, hright, (Except.ok.inj hscreen).symm, .inl ⟨rfl, block, pane, rfl, hshows⟩⟩
  | flow =>
    rw [hmode] at hscreen
    simp only at hscreen
    obtain ⟨paragraph, -, hscreen⟩ := exists_of_bind_eq_ok hscreen
    obtain ⟨middle, hmiddle, hscreen⟩ := exists_of_bind_eq_ok hscreen
    obtain rfl := Except.ok.inj hmiddle
    obtain ⟨right, hright, hscreen⟩ := exists_of_bind_eq_ok hscreen
    exact ⟨list, _, right, hlist, hright, (Except.ok.inj hscreen).symm, .inr ⟨rfl, paragraph, rfl⟩⟩

theorem App.Valid.shows {app : App} (h : app.Valid) {strWidth : List Char → ℕ} {fuel : ℕ} {copy : EducationalCopy}
    {layouts : Layouts} {area : Rect} {screen : Screen}
    (hscreen : app.render strWidth fuel copy layouts area = .ok screen) : screen.Shows app := by
  obtain ⟨list', hlist', hitems, hhighlight⟩ := app.renderConnections_ok
  obtain ⟨list, middle, right, hlist, -, rfl, hmiddle⟩ := h.render_cases hscreen
  obtain rfl := Except.ok.inj (hlist'.symm.trans hlist)
  have hlength := h.toListed.length_connectionList
  constructor
  · intro i
    rw [hitems, List.getElem?_map, h.toListed.getElem?_connectionList]
  · rw [hhighlight]
    by_cases hempty : app.order = []
    · have hnone : app.connectionList = [] := List.length_eq_zero_iff.mp (by rw [hlength, hempty, List.length_nil])
      rw [if_pos hnone, if_pos hempty]
    · have hpos := List.length_pos_iff.mpr hempty
      have hsome : app.connectionList ≠ [] := List.length_pos_iff.mp (by omega)
      have hlt := h.selectedIndex_lt
      rw [if_neg hsome, if_neg hempty, hlength, Nat.min_eq_left (by omega)]
  · intro block pane hpane
    rcases hmiddle with ⟨-, block', pane', rfl, hshows⟩ | ⟨-, paragraph, rfl⟩
    · obtain ⟨rfl, rfl⟩ := MiddlePane.records.inj hpane
      exact hshows
    · cases hpane
  · rcases hmiddle with ⟨hmode, block, pane, rfl, -⟩ | ⟨hmode, paragraph, rfl⟩
    · exact iff_of_true ⟨block, pane, rfl⟩ hmode
    · refine iff_of_false ?_ ?_
      · rintro ⟨block, pane, hpane⟩
        cases hpane
      · rw [hmode]
        intro hrecords
        cases hrecords
  · constructor
    · intro hrow
      unfold App.recordSelected
      rw [if_pos hrow]
    · intro hnone
      by_contra hrow
      have hsome := App.isSome_recordSelected (Nat.pos_of_ne_zero hrow) h.recordsRow_le
      rw [hnone] at hsome
      cases hsome
  · show StatusLine.mk app.connectionList.length _ _ _ _ = _
    rw [hlength]

/-! ## The selected section -/

theorem renderSectionsFrom_getElem? {copy : EducationalCopy} {selected i : ℕ} {showEducation : Bool}
    {ss : List Section} {sections : List (List (Line Style))}
    (h : renderSectionsFrom copy selected showEducation i ss = .ok sections) {j : ℕ} {s : Section}
    (hs : ss[j]? = some s) :
    ∃ ls, sections[j]? = some ls ∧ renderSection copy s (selected = i + j) showEducation = .ok ls := by
  induction ss generalizing i j sections with
  | nil => cases hs
  | cons s' ss ih =>
    rw [renderSectionsFrom] at h
    obtain ⟨first, hfirst, h⟩ := exists_of_bind_eq_ok h
    obtain ⟨others, hothers, h⟩ := exists_of_bind_eq_ok h
    obtain rfl := Except.ok.inj h
    cases j with
    | zero =>
      obtain rfl := Option.some.inj hs
      exact ⟨first, rfl, hfirst⟩
    | succ j =>
      obtain ⟨ls, hls, hrender⟩ := ih hothers hs
      have hposition : i + 1 + j = i + (j + 1) := by omega
      rw [hposition] at hrender
      exact ⟨ls, hls, hrender⟩

/-- What the right pane shows of its selected section, in rows of `width` columns: all of its lines, if there is
room for them, and else the first rows. -/
structure Paragraph.ShowsSection (p : Paragraph) (width height : ℕ) (sectionLines : List (Line Style)) : Prop where
  inView : ∃ rows, ShowsLines width sectionLines rows ∧
    (rows.length ≤ height → rows <:+: SeeHandshake.inView p.lines p.scroll.toNat height) ∧
    (height < rows.length → SeeHandshake.inView p.lines p.scroll.toNat height = rows.take height)

theorem App.Valid.renderRight_inView {app : App} (h : app.Valid) (hdecoded : app.Decoded) (hrow : app.recordsRow ≠ 0)
    (strWidth : List Char → ℕ) {fuel : ℕ} (copy : EducationalCopy) (hfuel : app.rightFuel copy < fuel) {area : Rect}
    (hheight : 2 < area.height.toNat) :
    ∃ p s sectionLines, app.renderRight strWidth fuel copy area = .ok p ∧
      app.sections[app.sectionIndex]? = some s ∧ renderSection copy s true app.education = .ok sectionLines ∧
      (p.lines.length ≤ 65535 → p.ShowsSection (withoutBorders area.width).toNat
        (withoutBorders area.height).toNat sectionLines) := by
  obtain ⟨p, hp⟩ := app.renderRight_ok strWidth copy hdecoded hfuel area
  obtain ⟨sections, hsections, hlength, hsize⟩ := app.sectionLines_ok copy hdecoded
  have hindex : app.sectionIndex < app.sections.length := h.sectionIndex_lt (Nat.pos_of_ne_zero hrow)
  have hselected := List.getElem?_eq_getElem hindex
  obtain ⟨sectionLines, hlines, hrender⟩ := renderSectionsFrom_getElem? hsections hselected
  simp only [Nat.zero_add, decide_true] at hrender
  refine ⟨p, _, sectionLines, hp, hselected, hrender, fun hrows => ⟨?_⟩⟩
  have hmode : app.rightMode = .sections := if_neg hrow
  have htotal : total linesSize sections < fuel := by
    unfold App.rightFuel at hfuel
    rw [hsections] at hfuel
    simp only [Except.toOption, Option.getD_some] at hfuel
    omega
  have hheight' : withoutBorders area.height ≠ 0 := by
    intro hzero
    have hnat := congrArg UInt16.toNat hzero
    have hlt := area.height.toNat_lt
    rw [withoutBorders, UInt16.toNat_ofNat', Nat.mod_eq_of_lt (by omega)] at hnat
    have hzeroNat : (0 : UInt16).toNat = 0 := rfl
    omega
  have hfits : ∀ sectionLines ∈ sections, ∀ line ∈ sectionLines, line.chars.length < fuel :=
    fun sectionLines hsection line hline => Nat.lt_trans (length_chars_lt_total hsection hline) htotal
  have hne : sections ≠ [] := by
    rintro rfl
    cases hlines
  obtain ⟨view, hview, -⟩ := sectionsView_layout strWidth ruleStyle (Style.ofColor .darkGray)
    (withoutBorders area.width) hne hfits
  -- The pane is made of the view, whose rows are those of the paragraph.
  unfold App.renderRight at hp
  rw [hmode] at hp
  simp only at hp
  rw [hsections, ok_bind] at hp
  obtain ⟨view', hview', hp⟩ := exists_of_bind_eq_ok hp
  obtain rfl := Except.ok.inj hp
  have hparts := hview'
  unfold renderSections at hparts
  rw [hview, ok_bind] at hparts
  obtain ⟨scroll', -, hparts⟩ := exists_of_bind_eq_ok hparts
  obtain rfl := Except.ok.inj hparts
  obtain ⟨rows, scroll, hshows, hrender', hshort, htall⟩ := renderSections_inView strWidth ruleStyle
    (Style.ofColor .darkGray) area.width hheight' hfits hlines hview hrows
  obtain ⟨-, rfl⟩ := Prod.mk.inj (Except.ok.inj (hrender'.symm.trans hview'))
  exact ⟨rows, hshows, hshort, htall⟩

/-! ## The program -/

namespace Program

/-- A frame from the client of the reference connection, with a ChangeCipherSpec record. -/
def Reference.ccsBytes : Bytes :=
  [2, 0, 0, 0, 0, 1, 2, 0, 0, 0, 0, 2, 8, 0] ++
  [0x45, 0, 0, 46, 0, 0, 0, 0, 64, 6, 0, 0, 10, 0, 0, 1, 93, 184, 216, 34] ++
  [0xD4, 0x31, 1, 0xBB, 0, 0, 0, 1, 0, 0, 0, 1, 0x50, 0x18, 1, 0, 0, 0, 0, 0] ++ [20, 3, 3, 0, 1, 1]

/-- A turn of the event loop in which a key is pressed, up to the next frame. -/
def keyTurn (code : KeyCode) : List ThreadAction :=
  [.ui (.draw (.ok ())), .ui (.poll (.ok true)), .ui (.read (.ok (.key code .press))), .ui .tick, .ui .tryRecv]

/-- The user goes to the sections of the only record. -/
def Reference.sectionRun : List ThreadAction :=
  Reference.talkRun [(Reference.ccsBytes, 7)] ++ .ui .tryRecv :: (keyTurn .right ++ keyTurn .right)

/-- A screen of 25, 35 and 40 percent, above a status line. -/
def Reference.layouts : Layouts where
  screen area := (⟨area.x, area.y, area.width, area.height - 1⟩, ⟨area.x, area.y + area.height - 1, area.width, 1⟩)
  panels area :=
    let left := area.width / 4
    let middle := area.width * 7 / 20
    (⟨area.x, area.y, left, area.height⟩, ⟨area.x + left, area.y, middle, area.height⟩,
      ⟨area.x + left + middle, area.y, area.width - left - middle, area.height⟩)
  inner area := ⟨area.x + 1, area.y + 1, area.width - 2, area.height - 2⟩

theorem Reference.sectionRun_drawing : ∃ s, Reference.program Reference.sectionRun = some s ∧ s.ui = .drawing ∧
    s.app.recordsRow = 1 := by
  have hstate : (Reference.program Reference.sectionRun).map (fun s => (s.ui, s.app.recordsRow)) =
      some (.drawing, 1) := by rfl
  obtain ⟨s, hs, hview⟩ := Option.map_eq_some_iff.mp hstate
  obtain ⟨hui, hrow⟩ := Prod.mk.inj hview
  exact ⟨s, hs, hui, hrow⟩

variable {ρ : Type} [PanickingResolver ρ] {args : Args} {fromEthernet : FromEthernet} {tp : TlsParser} {resolver : ρ}
  {s : Program ρ} {as : List ThreadAction}

/-- What holds of the user interface whenever the event loop draws. -/
theorem drawing_run (hrun : runs (step args fromEthernet tp) (init resolver) as = some s) (hdraw : s.ui = .drawing) :
    s.app.Valid ∧ s.app.Decoded :=
  decoded_run hrun (by rw [hdraw]; decide)

/-- Drawing never panics: whenever the event loop draws, whatever was captured and pressed and whatever the size
of the terminal, the screen can be drawn. -/
theorem draw_never_panics (args : Args) (fromEthernet : FromEthernet) (tp : TlsParser) (resolver : ρ)
    (as : List ThreadAction) (s : Program ρ)
    (hrun : runs (step args fromEthernet tp) (init resolver) as = some s) (hdraw : s.ui = .drawing)
    (strWidth : List Char → ℕ) (copy : EducationalCopy) (layouts : Layouts) :
    ∃ fuel₀, ∀ fuel, fuel₀ < fuel → ∀ area, ∃ screen,
      s.app.render strWidth fuel copy layouts area = .ok screen := by
  obtain ⟨hvalid, hdecoded⟩ := drawing_run hrun hdraw
  exact ⟨s.app.rightFuel copy, fun fuel hfuel area => App.render_ok strWidth copy layouts hvalid hdecoded hfuel area⟩

theorem draw_never_panics_sections : ∃ s, Reference.program Reference.sectionRun = some s ∧
    ∃ fuel₀, ∀ fuel, fuel₀ < fuel → ∀ area, ∃ screen,
      s.app.render List.length fuel educationalCopy Reference.layouts area = .ok screen := by
  obtain ⟨s, hs, hui, -⟩ := Reference.sectionRun_drawing
  exact ⟨s, hs, draw_never_panics {} Reference.fromEthernet Reference.parser _ Reference.sectionRun s hs hui
    List.length educationalCopy Reference.layouts⟩

/-- The screen shows what is selected: whenever the event loop draws, it lists the connections in order and
highlights the selected one, and a row for each of its records, with that of the selected record highlighted. -/
theorem screen_shows_selection (args : Args) (fromEthernet : FromEthernet) (tp : TlsParser) (resolver : ρ)
    (as : List ThreadAction) (s : Program ρ)
    (hrun : runs (step args fromEthernet tp) (init resolver) as = some s) (hdraw : s.ui = .drawing)
    (strWidth : List Char → ℕ) (fuel : ℕ) (copy : EducationalCopy) (layouts : Layouts) (area : Rect) (screen : Screen)
    (hscreen : s.app.render strWidth fuel copy layouts area = .ok screen) : screen.Shows s.app :=
  (drawing_run hrun hdraw).1.shows hscreen

theorem screen_shows_selection_sections : ∃ s fuel screen, Reference.program Reference.sectionRun = some s ∧
    s.app.render List.length fuel educationalCopy Reference.layouts ⟨0, 0, 80, 24⟩ = .ok screen ∧
    screen.Shows s.app := by
  obtain ⟨s, hs, hui, -⟩ := Reference.sectionRun_drawing
  obtain ⟨hvalid, hdecoded⟩ := drawing_run hs hui
  obtain ⟨screen, hscreen⟩ := App.render_ok List.length educationalCopy Reference.layouts hvalid hdecoded
    (Nat.lt_succ_self _) ⟨0, 0, 80, 24⟩
  exact ⟨s, _, screen, hs, hscreen, screen_shows_selection {} Reference.fromEthernet Reference.parser _
    Reference.sectionRun s hs hui List.length _ educationalCopy Reference.layouts _ screen hscreen⟩

/-- The selected section is in view: whenever the event loop draws with a record selected, the right pane has the
lines of the selected section of the record in view, all of them or the first ones, as long as its rows can be
counted in 16 bits. -/
theorem selected_section_inView (args : Args) (fromEthernet : FromEthernet) (tp : TlsParser) (resolver : ρ)
    (as : List ThreadAction) (s : Program ρ)
    (hrun : runs (step args fromEthernet tp) (init resolver) as = some s) (hdraw : s.ui = .drawing)
    (hrow : s.app.recordsRow ≠ 0) (strWidth : List Char → ℕ) (copy : EducationalCopy) (area : Rect)
    (hheight : 2 < area.height.toNat) :
    ∃ fuel₀, ∀ fuel, fuel₀ < fuel → ∃ p selected sectionLines,
      s.app.renderRight strWidth fuel copy area = .ok p ∧ s.app.sections[s.app.sectionIndex]? = some selected ∧
      renderSection copy selected true s.app.education = .ok sectionLines ∧
      (p.lines.length ≤ 65535 → p.ShowsSection (withoutBorders area.width).toNat
        (withoutBorders area.height).toNat sectionLines) := by
  obtain ⟨hvalid, hdecoded⟩ := drawing_run hrun hdraw
  exact ⟨s.app.rightFuel copy, fun fuel hfuel =>
    hvalid.renderRight_inView hdecoded hrow strWidth copy hfuel hheight⟩

theorem selected_section_inView_ccs : ∃ s, Reference.program Reference.sectionRun = some s ∧
    ∃ fuel₀, ∀ fuel, fuel₀ < fuel → ∃ p selected sectionLines,
      s.app.renderRight List.length fuel educationalCopy ⟨48, 0, 32, 23⟩ = .ok p ∧
      s.app.sections[s.app.sectionIndex]? = some selected ∧
      renderSection educationalCopy selected true s.app.education = .ok sectionLines ∧
      (p.lines.length ≤ 65535 → p.ShowsSection (withoutBorders 32).toNat (withoutBorders 23).toNat
        sectionLines) := by
  obtain ⟨s, hs, hui, hrow⟩ := Reference.sectionRun_drawing
  exact ⟨s, hs, selected_section_inView {} Reference.fromEthernet Reference.parser _ Reference.sectionRun s hs hui
    (by rw [hrow]; decide) List.length educationalCopy ⟨48, 0, 32, 23⟩ (by decide)⟩

end Program

end SeeHandshake

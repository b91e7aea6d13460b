import SeeHandshake.Proofs.DrawProofs

/-!
# Proofs: everything shown can be reached

The arrow keys bring the cursor to every section of every record of every connection that is listed.
-/

namespace SeeHandshake

open Lib

/-- The arrow keys. -/
inductive Arrow where
  | left
  | right
  | up
  | down
  deriving DecidableEq, Repr

def Arrow.code : Arrow → KeyCode
  | .left => .left
  | .right => .right
  | .up => .up
  | .down => .down

/-- The operation that an arrow key stands for. -/
def Arrow.op : Arrow → AppOp
  | .left => .focusLeft
  | .right => .focusRight
  | .up => .selectPrev
  | .down => .selectNext

/-- The user interface after an arrow key, up to the next frame. -/
def App.press (app : App) (a : Arrow) : App := (app.op a.op).tick

def App.presses (app : App) (as : List Arrow) : App := as.foldl App.press app

/-! ## Places -/

/-- What the arrow keys leave as it is, and the pane that has the focus. -/
structure App.At (app₀ : App) (pane : PaneFocus) (app : App) : Prop extends app.Valid where
  order : app.order = app₀.order
  connections : app.connections = app₀.connections
  focus : app.focus = pane

namespace App.At

variable {app₀ app : App} {pane : PaneFocus}

theorem valid_press (h : app.Valid) (a : Arrow) : (app.press a).Valid :=
  (h.op a.op).congr rfl rfl rfl rfl rfl

/-- A press whose operation changes neither the lists nor, but for `pane'`, the focus. -/
theorem pressed (h : At app₀ pane app) {a : Arrow} {app' : App} (hop : app.op a.op = app')
    (horder : app'.order = app.order) (hconnections : app'.connections = app.connections) {pane' : PaneFocus}
    (hfocus : app'.focus = pane') : At app₀ pane' (app.press a) ∧
      (app.press a).selectedIndex = app'.selectedIndex ∧ (app.press a).recordsRow = app'.recordsRow ∧
        (app.press a).sectionIndex = app'.sectionIndex := by
  have hpress : app.press a = app'.tick := congrArg App.tick hop
  have hvalid := valid_press h.toValid a
  refine ⟨⟨hvalid, ?_, ?_, ?_⟩, ?_⟩ <;> rw [hpress]
  · exact horder.trans h.order
  · exact hconnections.trans h.connections
  · exact hfocus
  · exact ⟨rfl, rfl, rfl⟩

/-- The connections pane has the focus after two presses. -/
theorem leftmost (h : app.Valid) : At app .connections ((app.press .left).press .left) := by
  refine ⟨valid_press (valid_press h .left) .left, rfl, rfl, ?_⟩
  show app.focus.left.left = .connections
  cases app.focus <;> rfl

/-- To the records pane. -/
theorem toRecords (h : At app₀ .connections app) :
    At app₀ .records (app.press .right) ∧ (app.press .right).selectedIndex = app.selectedIndex := by
  have hop : app.focusRight = { app with focus := .records } := by
    unfold App.focusRight
    rw [h.focus]
    exact if_neg PaneFocus.noConfusion
  obtain ⟨hat, hindex, -, -⟩ := h.pressed (a := .right) hop rfl rfl rfl
  exact ⟨hat, hindex⟩

/-- To the right pane, once a record is selected. -/
theorem toRight (h : At app₀ .records app) (hrow : app.recordsRow ≠ 0) :
    At app₀ .right (app.press .right) ∧ (app.press .right).selectedIndex = app.selectedIndex ∧
      (app.press .right).recordsRow = app.recordsRow := by
  have hop : app.focusRight = { app with focus := .right } := by
    unfold App.focusRight
    rw [h.focus]
    refine (if_pos rfl).trans ?_
    unfold App.advancePastMetadataRow
    exact if_neg fun hzero => hrow hzero.1
  obtain ⟨hat, hindex, hsame, -⟩ := h.pressed (a := .right) hop rfl rfl rfl
  exact ⟨hat, hindex, hsame⟩

/-! ## One row up or down -/

theorem connectionUp (h : At app₀ .connections app) (hpos : 0 < app.selectedIndex) :
    At app₀ .connections (app.press .up) ∧ (app.press .up).selectedIndex + 1 = app.selectedIndex := by
  have hop : app.selectPrev = { app with selectedIndex := app.selectedIndex - 1 }.onConnectionChanged := by
    have hlt := h.selectedIndex_lt
    have hne : ¬ app.order.isEmpty := by
      rw [List.isEmpty_iff]
      exact List.ne_nil_of_length_pos (by omega)
    unfold App.selectPrev App.connectionPrev
    rw [h.focus]
    simp only [if_neg hne]
    exact if_pos (by omega)
  obtain ⟨hat, hindex, -, -⟩ := h.pressed (a := .up) hop rfl rfl h.focus
  exact ⟨hat, by rw [hindex]; exact Nat.sub_add_cancel hpos⟩

theorem connectionDown (h : At app₀ .connections app) (hlt : app.selectedIndex + 1 < app₀.order.length) :
    At app₀ .connections (app.press .down) ∧ (app.press .down).selectedIndex = app.selectedIndex + 1 := by
  have hop : app.selectNext = { app with selectedIndex := app.selectedIndex + 1 }.onConnectionChanged := by
    rw [← h.order] at hlt
    have hne : ¬ app.order.isEmpty := by
      rw [List.isEmpty_iff]
      exact List.ne_nil_of_length_pos (by omega)
    have hstep : app.selectedIndex < app.order.length - 1 := by omega
    unfold App.selectNext App.connectionNext
    rw [h.focus]
    simp only [if_neg hne, if_pos hstep]
    exact if_pos (Nat.succ_ne_self _)
  obtain ⟨hat, hindex, -, -⟩ := h.pressed (a := .down) hop rfl rfl h.focus
  exact ⟨hat, hindex⟩

theorem recordUp (h : At app₀ .records app) (hpos : 0 < app.recordsRow) :
    (At app₀ .records (app.press .up) ∧ (app.press .up).selectedIndex = app.selectedIndex) ∧
      (app.press .up).recordsRow + 1 = app.recordsRow := by
  have hop : app.selectPrev = { app with recordsRow := app.recordsRow - 1 }.onRecordsRowChanged := by
    have hne : app.recordsRow - 1 ≠ app.recordsRow := by omega
    unfold App.selectPrev App.recordPrev
    rw [h.focus]
    exact if_pos hne
  obtain ⟨hat, hindex, hrow, -⟩ := h.pressed (a := .up) hop rfl rfl h.focus
  exact ⟨⟨hat, hindex⟩, by rw [hrow]; exact Nat.sub_add_cancel hpos⟩

theorem recordDown (h : At app₀ .records app) (hlt : app.recordsRow < app.selectedRecordCount) :
    (At app₀ .records (app.press .down) ∧ (app.press .down).selectedIndex = app.selectedIndex) ∧
      (app.press .down).recordsRow = app.recordsRow + 1 := by
  have hop : app.selectNext = { app with recordsRow := app.recordsRow + 1 }.onRecordsRowChanged := by
    unfold App.selectNext App.recordNext
    rw [h.focus]
    simp only [if_pos hlt]
    exact if_pos (Nat.succ_ne_self _)
  obtain ⟨hat, hindex, hrow, -⟩ := h.pressed (a := .down) hop rfl rfl h.focus
  exact ⟨⟨hat, hindex⟩, hrow⟩

theorem sectionUp (h : At app₀ .right app) (hpos : 0 < app.sectionIndex) :
    (At app₀ .right (app.press .up) ∧ (app.press .up).selectedIndex = app.selectedIndex ∧
      (app.press .up).recordsRow = app.recordsRow) ∧ (app.press .up).sectionIndex + 1 = app.sectionIndex := by
  have hop : app.selectPrev = { app with sectionIndex := app.sectionIndex - 1 } := by
    have hrow : app.recordsRow ≠ 0 := by
      intro hzero
      have hsection := h.sectionIndex_eq hzero
      omega
    unfold App.selectPrev App.sectionPrev
    rw [h.focus]
    exact if_neg hrow
  obtain ⟨hat, hindex, hrow, hsection⟩ := h.pressed (a := .up) hop rfl rfl h.focus
  exact ⟨⟨hat, hindex, hrow⟩, by rw [hsection]; exact Nat.sub_add_cancel hpos⟩

theorem sectionDown (h : At app₀ .right app) (hrow : app.recordsRow ≠ 0)
    (hlt : app.sectionIndex + 1 < app.sectionCount) :
    (At app₀ .right (app.press .down) ∧ (app.press .down).selectedIndex = app.selectedIndex ∧
      (app.press .down).recordsRow = app.recordsRow) ∧ (app.press .down).sectionIndex = app.sectionIndex + 1 := by
  have hop : app.selectNext = { app with sectionIndex := app.sectionIndex + 1 } := by
    have hstep : app.sectionIndex < app.sectionCount - 1 := by omega
    unfold App.selectNext App.sectionNext
    rw [h.focus]
    simp only [if_neg hrow, if_pos hstep]
  obtain ⟨hat, hindex, hsame, hsection⟩ := h.pressed (a := .down) hop rfl rfl h.focus
  exact ⟨⟨hat, hindex, hsame⟩, hsection⟩

/-! ## Everywhere -/

/-- The record and the sections under the cursor. -/
theorem recordSelected (h : At app₀ pane app) {key : ConnectionKey} (hkey : app₀.order[app.selectedIndex]? = some key)
    {conn : ConnectionState} (hconn : app₀.connections.lookup key = some conn) :
    app.selected = some conn ∧ app.selectedRecordCount = conn.records.length ∧
      ∀ j, app.recordsRow = j + 1 → app.recordSelected = conn.records[j]? := by
  have hselected : app.selected = some conn := by
    unfold App.selected
    rw [h.order, h.connections, hkey]
    exact hconn
  refine ⟨hselected, ?_, ?_⟩
  · unfold App.selectedRecordCount
    rw [hselected]
  · intro j hrow
    unfold App.recordSelected
    rw [hrow, if_neg (Nat.succ_ne_zero j), hselected]
    rfl

/-- To any connection, from anywhere. -/
theorem exists_connection (h : app.Valid) {i : ℕ} (hi : i < app.order.length) :
    ∃ as : List Arrow, as.length ≤ app.order.length + 2 ∧ At app .connections (app.presses as) ∧
      (app.presses as).selectedIndex = i := by
  have hstart := leftmost h
  obtain ⟨as, hlength, hat, hindex⟩ := @exists_moves _ _ App.press (At app .connections) App.selectedIndex i
    .up .down (fun app' hat hlt => hat.connectionUp (by omega))
    (fun app' hat hlt => hat.connectionDown (by omega)) _ hstart
  have hbound := hstart.selectedIndex_lt
  rw [hstart.order] at hbound
  refine ⟨.left :: .left :: as, ?_, hat, hindex⟩
  rw [List.length_cons, List.length_cons]
  omega

/-- From a connection to any of its records. -/
theorem exists_record (h : At app₀ .connections app) {key : ConnectionKey}
    (hkey : app₀.order[app.selectedIndex]? = some key) {conn : ConnectionState}
    (hconn : app₀.connections.lookup key = some conn) {j : ℕ} (hj : j < conn.records.length) :
    ∃ as : List Arrow, as.length ≤ conn.records.length + 1 ∧ At app₀ .records (app.presses as) ∧
      (app.presses as).selectedIndex = app.selectedIndex ∧ (app.presses as).recordsRow = j + 1 := by
  obtain ⟨hstart, hindex⟩ := h.toRecords
  obtain ⟨as, hlength, ⟨hat, hsame⟩, hrow⟩ := @exists_moves _ _ App.press
    (fun app' => At app₀ .records app' ∧ app'.selectedIndex = app.selectedIndex) App.recordsRow (j + 1) .up .down
    (fun app' hat hlt => by
      obtain ⟨⟨hnext, hsame⟩, hrow⟩ := hat.1.recordUp (by omega)
      exact ⟨⟨hnext, hsame.trans hat.2⟩, hrow⟩)
    (fun app' hat hlt => by
      have hcount := (hat.1.recordSelected (hat.2 ▸ hkey) hconn).2.1
      obtain ⟨⟨hnext, hsame⟩, hrow⟩ := hat.1.recordDown (by omega)
      exact ⟨⟨hnext, hsame.trans hat.2⟩, hrow⟩) _ ⟨hstart, hindex⟩
  have hbound := hstart.recordsRow_le
  rw [(hstart.recordSelected (hindex ▸ hkey) hconn).2.1] at hbound
  refine ⟨.right :: as, ?_, hat, hsame, hrow⟩
  rw [List.length_cons]
  omega

/-- From a record to any of its sections. -/
theorem exists_section (h : At app₀ .records app) {r : RecordEvent} (hrow : app.recordsRow ≠ 0)
    (hrecord : ∀ app', At app₀ .right app' → app'.selectedIndex = app.selectedIndex →
      app'.recordsRow = app.recordsRow → app'.recordSelected = some r) {k : ℕ} (hk : k < (sectionsFor r).length) :
    ∃ as : List Arrow, as.length ≤ (sectionsFor r).length + 1 ∧ At app₀ .right (app.presses as) ∧
      (app.presses as).selectedIndex = app.selectedIndex ∧ (app.presses as).recordsRow = app.recordsRow ∧
      (app.presses as).sectionIndex = k := by
  have hcount : ∀ app', At app₀ .right app' → app'.selectedIndex = app.selectedIndex →
      app'.recordsRow = app.recordsRow → app'.sectionCount = (sectionsFor r).length := by
    intro app' hat hindex hsame
    unfold App.sectionCount App.sections
    rw [hrecord app' hat hindex hsame]
  obtain ⟨hstart, hindex, hsame⟩ := h.toRight hrow
  obtain ⟨as, hlength, ⟨hat, hindex', hsame'⟩, hsection⟩ := @exists_moves _ _ App.press
    (fun app' => At app₀ .right app' ∧ app'.selectedIndex = app.selectedIndex ∧ app'.recordsRow = app.recordsRow)
    App.sectionIndex k .up .down
    (fun app' hat hlt => by
      obtain ⟨⟨hnext, hi, hj⟩, hsection⟩ := hat.1.sectionUp (by omega)
      exact ⟨⟨hnext, hi.trans hat.2.1, hj.trans hat.2.2⟩, hsection⟩)
    (fun app' hat hlt => by
      have hsections := hcount app' hat.1 hat.2.1 hat.2.2
      obtain ⟨⟨hnext, hi, hj⟩, hsection⟩ := hat.1.sectionDown (by omega) (by omega)
      exact ⟨⟨hnext, hi.trans hat.2.1, hj.trans hat.2.2⟩, hsection⟩) _ ⟨hstart, hindex, hsame⟩
  have hbound := hstart.sectionIndex_lt (by omega)
  rw [hcount _ hstart hindex hsame] at hbound
  refine ⟨.right :: as, ?_, hat, hindex', hsame', hsection⟩
  rw [List.length_cons]
  omega

/-- The arrow keys reach every section of every record of every connection. -/
theorem exists_presses (h : app.Valid) {i : ℕ} {key : ConnectionKey} (hkey : app.order[i]? = some key)
    {conn : ConnectionState} (hconn : app.connections.lookup key = some conn) {j : ℕ} {r : RecordEvent}
    (hr : conn.records[j]? = some r) {k : ℕ} (hk : k < (sectionsFor r).length) :
    ∃ as : List Arrow, as.length ≤ app.order.length + conn.records.length + (sectionsFor r).length + 4 ∧
      At app .right (app.presses as) ∧ (app.presses as).selectedIndex = i ∧
      (app.presses as).recordsRow = j + 1 ∧ (app.presses as).sectionIndex = k ∧
      (app.presses as).selected = some conn ∧ (app.presses as).recordSelected = some r := by
  obtain ⟨as₁, hlength₁, hat₁, hi⟩ := exists_connection h (List.getElem?_eq_some_iff.mp hkey).1
  obtain ⟨as₂, hlength₂, hat₂, hi₂, hj⟩ := hat₁.exists_record (hi.symm ▸ hkey) hconn
    (List.getElem?_eq_some_iff.mp hr).1
  have hrecord : ∀ app', At app .right app' → app'.selectedIndex = ((app.presses as₁).presses as₂).selectedIndex →
      app'.recordsRow = ((app.presses as₁).presses as₂).recordsRow →
      app'.selected = some conn ∧ app'.recordSelected = some r := by
    intro app' hat hindex hrow
    rw [hi₂, hi] at hindex
    rw [hj] at hrow
    obtain ⟨hselected, -, hrecord⟩ := hat.recordSelected (hindex ▸ hkey) hconn
    exact ⟨hselected, (hrecord j hrow).trans hr⟩
  obtain ⟨as₃, hlength₃, hat₃, hi₃, hj₃, hsection⟩ := hat₂.exists_section (by omega)
    (fun app' hat hindex hrow => (hrecord app' hat hindex hrow).2) hk
  obtain ⟨hselected, hsome⟩ := hrecord _ hat₃ hi₃ hj₃
  have hall : app.presses (as₁ ++ as₂ ++ as₃) = ((app.presses as₁).presses as₂).presses as₃ := by
    unfold App.presses
    rw [List.foldl_append, List.foldl_append]
  refine ⟨as₁ ++ as₂ ++ as₃, ?_, ?_⟩
  · rw [List.length_append, List.length_append]
    omega
  · rw [hall]
    exact ⟨hat₃, hi₃.trans (hi₂.trans hi), hj₃.trans hj, hsection, hselected, hsome⟩

end App.At

/-! ## The program -/

namespace Program

variable {ρ : Type} [PanickingResolver ρ] {args : Args} {fromEthernet : FromEthernet} {tp : TlsParser} {s : Program ρ}

/-- A turn with an arrow key, while no update comes in. -/
theorem runs_keyTurn (hui : s.ui = .drawing) (hevents : s.events = []) (a : Arrow) :
    runs (step args fromEthernet tp) s (keyTurn a.code) = some { s with app := s.app.press a } := by
  obtain ⟨shutdown, capture, frames, tracking, tracker, events, ui, app⟩ := s
  obtain rfl : ui = .drawing := hui
  obtain rfl : events = [] := hevents
  cases a <;> rfl

theorem runs_keyTurns (hui : s.ui = .drawing) (hevents : s.events = []) (as : List Arrow) :
    runs (step args fromEthernet tp) s (as.flatMap fun a => keyTurn a.code) =
      some { s with app := s.app.presses as } := by
  induction as generalizing s with
  | nil => rfl
  | cons a as ih =>
    rw [List.flatMap_cons, runs_append, runs_keyTurn hui hevents, Option.bind_some]
    exact ih hui hevents

/-- Everything that is listed can be selected: whenever the event loop draws and no update waits, some arrow keys, no
more than there are rows in the three panes and four, select any section of any record of any connection. If the
right pane has a row, and 16 bits count its lines, it then has those of the section in view, or the first of them if
they are more than the pane has rows. -/
theorem every_section_reachable (args : Args) (fromEthernet : FromEthernet) (tp : TlsParser) (resolver : ρ)
    (as : List ThreadAction) (s : Program ρ)
    (hrun : runs (step args fromEthernet tp) (init resolver) as = some s) (hdraw : s.ui = .drawing)
    (hevents : s.events = []) (i : ℕ) (key : ConnectionKey) (hkey : s.app.order[i]? = some key)
    (conn : ConnectionState) (hconn : s.app.connections.lookup key = some conn) (j : ℕ) (r : RecordEvent)
    (hr : conn.records[j]? = some r) (k : ℕ) (shown : Section)
    (hshown : (sectionsFor r)[k]? = some shown) :
    ∃ keys : List Arrow, keys.length ≤ s.app.order.length + conn.records.length + (sectionsFor r).length + 4 ∧
      ∃ s', runs (step args fromEthernet tp) s (keys.flatMap fun a => keyTurn a.code) = some s' ∧
        s'.ui = .drawing ∧ s'.app.order = s.app.order ∧ s'.app.connections = s.app.connections ∧
        s'.app.selectedIndex = i ∧ s'.app.recordsRow = j + 1 ∧ s'.app.sectionIndex = k ∧ s'.app.focus = .right ∧
        s'.app.selected = some conn ∧ s'.app.recordSelected = some r ∧
        ∀ (strWidth : List Char → ℕ) (copy : EducationalCopy) (area : Rect), 2 < area.height.toNat →
          ∃ fuel₀, ∀ fuel, fuel₀ < fuel → ∃ p sectionLines, s'.app.renderRight strWidth fuel copy area = .ok p ∧
            renderSection copy shown true s'.app.education = .ok sectionLines ∧
            (p.lines.length ≤ 65535 → p.ShowsSection (withoutBorders area.width).toNat
              (withoutBorders area.height).toNat sectionLines) := by
  obtain ⟨hvalid, hdecoded⟩ := drawing_run hrun hdraw
  obtain ⟨keys, hlength, hat, hi, hj, hk, hselected, hrecord⟩ :=
    App.At.exists_presses hvalid hkey hconn hr (List.getElem?_eq_some_iff.mp hshown).1
  refine ⟨keys, hlength, _, runs_keyTurns hdraw hevents keys, hdraw, hat.order, hat.connections, hi, hj, hk, hat.focus,
    hselected, hrecord, ?_⟩
  intro strWidth copy area hheight
  have hrow : (s.app.presses keys).recordsRow ≠ 0 := by omega
  have hsections : (s.app.presses keys).sections[(s.app.presses keys).sectionIndex]? = some shown := by
    unfold App.sections
    rw [hrecord, hk]
    exact hshown
  have hframed : (s.app.presses keys).Decoded := by
    unfold App.Decoded
    rw [hat.connections]
    exact hdecoded
  refine ⟨(s.app.presses keys).rightFuel copy, fun fuel hfuel => ?_⟩
  obtain ⟨p, selected, sectionLines, hp, hsame, hlines, hview⟩ :=
    hat.toValid.renderRight_inView hframed hrow strWidth copy hfuel hheight
  obtain rfl := Option.some.inj (hsame.symm.trans hsections)
  exact ⟨p, sectionLines, hp, hlines, hview⟩

theorem every_section_reachable_ccs : ∃ s conn r shown, Reference.program Reference.sectionRun = some s ∧
    ∃ keys : List Arrow, keys.length ≤ s.app.order.length + conn.records.length + (sectionsFor r).length + 4 ∧
      ∃ s', runs (step {} Reference.fromEthernet Reference.parser) s (keys.flatMap fun a => keyTurn a.code) = some s' ∧
        s'.ui = .drawing ∧ s'.app.order = s.app.order ∧ s'.app.connections = s.app.connections ∧
        s'.app.selectedIndex = 0 ∧ s'.app.recordsRow = 1 ∧ s'.app.sectionIndex = 0 ∧ s'.app.focus = .right ∧
        s'.app.selected = some conn ∧ s'.app.recordSelected = some r ∧
        ∀ (strWidth : List Char → ℕ) (copy : EducationalCopy) (area : Rect), 2 < area.height.toNat →
          ∃ fuel₀, ∀ fuel, fuel₀ < fuel → ∃ p sectionLines, s'.app.renderRight strWidth fuel copy area = .ok p ∧
            renderSection copy shown true s'.app.education = .ok sectionLines ∧
            (p.lines.length ≤ 65535 → p.ShowsSection (withoutBorders area.width).toNat
              (withoutBorders area.height).toNat sectionLines) := by
  have hstate : (Reference.program Reference.sectionRun).map (fun s => (s.ui, s.events.isEmpty,
      (s.app.order[0]?.bind fun key => (s.app.connections.lookup key).bind fun conn =>
        conn.records[0]?.bind fun r => (sectionsFor r)[0]?).isSome)) = some (.drawing, true, true) := by rfl
  obtain ⟨s, hs, hview⟩ := Option.map_eq_some_iff.mp hstate
  simp only [Prod.mk.injEq] at hview
  obtain ⟨hui, hempty, hsome⟩ := hview
  obtain ⟨shown, hsome⟩ := Option.isSome_iff_exists.mp hsome
  obtain ⟨key, hkey, hsome⟩ := Option.bind_eq_some_iff.mp hsome
  obtain ⟨conn, hconn, hsome⟩ := Option.bind_eq_some_iff.mp hsome
  obtain ⟨r, hr, hshown⟩ := Option.bind_eq_some_iff.mp hsome
  exact ⟨s, conn, r, shown, hs, every_section_reachable {} Reference.fromEthernet Reference.parser _
    Reference.sectionRun s hs hui (List.isEmpty_iff.mp hempty) 0 key hkey conn hconn 0 r hr 0 shown hshown⟩

end Program

end SeeHandshake

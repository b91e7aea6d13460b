import SeeHandshake.Lib.Simulation
import SeeHandshake.Proofs.LiveProofs
import SeeHandshake.Tracker.Flights

/-!
# Proofs: live updates do not move the cursor

An update that extends a timeline leaves every row that a cursor can point at in its place, so clamping
has nothing to do; a new key is shown last; and an eviction removes nothing.
-/

namespace SeeHandshake.App

open Lib

/-- What the user looks at: the selected connection and record, the rows of the panes, and the modes. -/
structure Cursor where
  key : Option ConnectionKey
  recordsRow : ℕ
  record : Option RecordEvent
  sectionIndex : ℕ
  focus : PaneFocus
  middleMode : MiddlePaneMode
  education : Bool
  diagramOverlay : Bool
  deriving DecidableEq

/-- The cursor of the user interface. -/
def cursor (app : App) : Cursor where
  key := app.selected.map ConnectionState.key
  recordsRow := app.recordsRow
  record := app.recordSelected
  sectionIndex := app.sectionIndex
  focus := app.focus
  middleMode := app.middleMode
  education := app.education
  diagramOverlay := app.diagramOverlay

/-- An update is about a new key or extends the timeline that is held for its key. -/
def Extends (app : App) : UiEvent → Prop
  | .handshakeUpdated state => ∀ held, app.connections.lookup state.key = some held →
      held.records <+: state.records
  | .staleEvicted _ => True

variable {app : App}

/-! ## Keys -/

/-- Every connection is held under its own key. -/
def Keyed (app : App) : Prop :=
  ∀ key state, app.connections.lookup key = some state → state.key = key

theorem Keyed.insert {m : AList fun _ : ConnectionKey => ConnectionState}
    (h : ∀ key state, m.lookup key = some state → state.key = key) (state : ConnectionState) :
    ∀ key state', (m.insert state.key state).lookup key = some state' → state'.key = key := by
  intro key state' hlookup
  by_cases hkey : key = state.key
  · subst hkey
    rw [AList.lookup_insert] at hlookup
    rw [← Option.some.inj hlookup]
  · rw [AList.lookup_insert_ne hkey] at hlookup
    exact h key state' hlookup

theorem Keyed.handleUiEvent (h : app.Keyed) (hvalid : app.Valid) (evt : UiEvent) :
    (app.handleUiEvent evt).Keyed := by
  unfold Keyed
  rw [hvalid.toListed.handleUiEvent_connections]
  cases evt with
  | handshakeUpdated state => exact Keyed.insert h state
  | staleEvicted removed => exact h

theorem Keyed.op (h : app.Keyed) (hvalid : app.Valid) (o : AppOp) : (app.op o).Keyed := by
  by_cases hclear : o = .clearConnections
  · subst hclear
    intro key state hlookup
    have hempty : (∅ : AList fun _ : ConnectionKey => ConnectionState).lookup key = some state :=
      hlookup
    rw [AList.lookup_empty] at hempty
    cases hempty
  cases hevent : o.event? with
  | none =>
    unfold Keyed
    rw [op_connections hclear hevent]
    exact h
  | some evt =>
    obtain rfl : o = .handleUiEvent evt := by
      cases o with
      | handleUiEvent evt' => exact congrArg AppOp.handleUiEvent (Option.some.inj hevent)
      | _ => cases hevent
    exact h.handleUiEvent hvalid evt

theorem Keyed.ops (h : app.Keyed) (hvalid : app.Valid) (os : List AppOp) : (app.ops os).Keyed := by
  induction os generalizing app with
  | nil => exact h
  | cons o os ih => exact ih (h.op hvalid o) (hvalid.op o)

/-! ## One event -/

/-- Clamping does nothing to cursors in range. -/
theorem InRange.clampIndices_eq (h : app.InRange) : app.clampIndices = app := by
  have hrow : ¬ app.recordsRow > app.selectedRecordCount := Nat.not_lt.mpr h.recordsRow_le
  have hsec : ¬ app.sectionIndex > app.sectionCount - 1 := by
    rcases Nat.eq_zero_or_pos app.recordsRow with hzero | hpos
    · have := h.sectionIndex_eq hzero
      omega
    · have := h.sectionIndex_lt hpos
      omega
  unfold clampIndices
  simp only [if_neg hrow, if_neg hsec]

/-- A longer timeline of the selected connection leaves the cursors in range, and the record under
them. -/
theorem InRange.extend {app' : App} {held state : ConnectionState} (h : app.InRange)
    (hheld : app.selected = some held) (hstate : app'.selected = some state)
    (hextends : held.records <+: state.records) (hrow : app'.recordsRow = app.recordsRow)
    (hsec : app'.sectionIndex = app.sectionIndex) :
    app'.recordSelected = app.recordSelected ∧ app'.InRange := by
  have hle := h.recordsRow_le
  obtain ⟨more, hmore⟩ := hextends
  have hcount : app.selectedRecordCount = held.records.length := by
    unfold selectedRecordCount
    rw [hheld]
  have hcount' : app'.selectedRecordCount = held.records.length + more.length := by
    unfold selectedRecordCount
    rw [hstate, ← List.length_append, hmore]
  have hrecord : app'.recordSelected = app.recordSelected := by
    unfold recordSelected
    rw [hrow, hheld, hstate]
    split_ifs with hzero
    · rfl
    · rw [Option.bind_some, Option.bind_some, ← hmore, List.getElem?_append_left (by omega)]
  have hsections : app'.sectionCount = app.sectionCount := by
    unfold sectionCount sections
    rw [hrecord]
  refine ⟨hrecord, ?_, ?_, ?_⟩
  · rw [hrow, hcount']
    omega
  · rw [hrow, hsec]
    exact h.sectionIndex_eq
  · rw [hrow, hsec, hsections]
    exact h.sectionIndex_lt

/-- An update of the selected connection. -/
theorem cursor_updated_selected {state : ConnectionState} (h : app.Valid) (hkeyed : app.Keyed)
    (hselected : app.selected.isSome)
    (hext : app.Extends (.handshakeUpdated state))
    (hkey : (app.orderWith state.key)[app.selectedIndex]? = some state.key) :
    (app.handleUiEvent (.handshakeUpdated state)).cursor = app.cursor := by
  rw [handleUiEvent_updated, if_pos hkey]
  set app' : App := { app with
    order := app.orderWith state.key
    connections := app.connections.insert state.key state }
  obtain ⟨held, hheld⟩ := Option.isSome_iff_exists.mp hselected
  obtain ⟨key, horder, hlookup⟩ := Option.bind_eq_some_iff.mp hheld
  obtain ⟨hlt, -⟩ := List.getElem?_eq_some_iff.mp horder
  rw [getElem?_orderWith state.key hlt, horder] at hkey
  obtain rfl := Option.some.inj hkey
  have hstate : app'.selected = some state := by
    show ((app.orderWith state.key)[app.selectedIndex]?.bind fun k =>
      (app.connections.insert state.key state).lookup k) = some state
    rw [getElem?_orderWith state.key hlt, horder, Option.bind_some, AList.lookup_insert]
  obtain ⟨hrecord, hrange⟩ := h.toInRange.extend hheld hstate (hext held hlookup)
    rfl rfl
  rw [hrange.clampIndices_eq]
  unfold cursor
  rw [hrecord, hstate, hheld, Option.map_some, Option.map_some, hkeyed _ held hlookup]

/-- An update of another connection, or of a new one. -/
theorem cursor_updated_other {state : ConnectionState} (h : app.Valid)
    (hkey : (app.orderWith state.key)[app.selectedIndex]? ≠ some state.key) :
    (app.handleUiEvent (.handshakeUpdated state)).cursor = app.cursor := by
  rw [handleUiEvent_updated, if_neg hkey]
  have hselected := h.toListed.selected_updated hkey
  unfold cursor recordSelected
  rw [hselected]

/-- An eviction counts, and leaves the rest as it is. -/
theorem cursor_evicted (h : app.Valid) (hselected : app.selected.isSome) (removed : ℕ) :
    (app.handleUiEvent (.staleEvicted removed)).cursor = app.cursor := by
  have hne : app.order ≠ [] := by
    intro hnil
    unfold selected at hselected
    rw [hnil] at hselected
    cases hselected
  have hrange : InRange { app with evicted := usizeSaturatingAdd app.evicted removed } :=
    h.toInRange.congr rfl rfl rfl
  rw [h.toListed.handleUiEvent_evicted]
  simp only [if_neg hne, hrange.clampIndices_eq]
  rfl

theorem cursor_handleUiEvent (h : app.Valid) (hkeyed : app.Keyed) (hselected : app.selected.isSome)
    {evt : UiEvent} (hext : app.Extends evt) : (app.handleUiEvent evt).cursor = app.cursor := by
  cases evt with
  | handshakeUpdated state =>
    by_cases hkey : (app.orderWith state.key)[app.selectedIndex]? = some state.key
    · exact cursor_updated_selected h hkeyed hselected hext hkey
    · exact cursor_updated_other h hkey
  | staleEvicted removed => exact cursor_evicted h hselected removed

/-- The cursor tells whether a connection is selected. -/
theorem selected_isSome_of_cursor {app' : App} (h : app'.cursor = app.cursor)
    (hselected : app.selected.isSome) : app'.selected.isSome := by
  have hkey : app'.selected.map ConnectionState.key = app.selected.map ConnectionState.key :=
    congrArg Cursor.key h
  rwa [← Option.isSome_map, hkey, Option.isSome_map]

theorem cursor_foldl (h : app.Valid) (hkeyed : app.Keyed) (hselected : app.selected.isSome)
    {evts : List UiEvent} (hext : AllSteps handleUiEvent Extends app evts) :
    (evts.foldl handleUiEvent app).cursor = app.cursor := by
  induction evts generalizing app with
  | nil => rfl
  | cons evt evts ih =>
    have hstep := cursor_handleUiEvent h hkeyed hselected hext.head
    have hrest := ih (h.op (.handleUiEvent evt)) (hkeyed.handleUiEvent h evt)
      (selected_isSome_of_cursor hstep hselected) hext.tail
    exact hrest.trans hstep

/-- Live updates do not move the cursor: whatever the user did before, as long as a connection is
selected, events that bring new keys or extend the timelines that are held, and evictions, leave the
selected connection and record, the rows and the modes as they are. -/
theorem cursor_unmoved (os : List AppOp) (evts : List UiEvent)
    (hselected : (new.ops os).selected.isSome)
    (hext : AllSteps handleUiEvent Extends (new.ops os) evts) :
    (evts.foldl handleUiEvent (new.ops os)).cursor = (new.ops os).cursor := by
  have hkeyed : new.Keyed := by
    intro key state hlookup
    cases hlookup
  exact cursor_foldl (valid_new.ops os) (hkeyed.ops valid_new os) hselected hext

/-- The cursor stays on the first record while the selected timeline grows and others are evicted. -/
theorem cursor_unmoved_grown :
    let received (xs : List Sent) : ConnectionState :=
      ((TrackedConnection.created Reference.key 0 .unknown).receive Reference.parser xs).state
    let short := received [.of .clientToServer 20 [1]]
    let long := received [.of .clientToServer 20 [1], .of .serverToClient 20 [1]]
    let app := new.ops [.handleUiEvent (.handshakeUpdated short), .focusRight, .selectNext]
    app.recordsRow = 1 ∧
      ([.handshakeUpdated long, .staleEvicted 1].foldl handleUiEvent app).cursor = app.cursor := by
  intro received short long app
  refine ⟨by decide, ?_⟩
  refine cursor_unmoved [.handleUiEvent (.handshakeUpdated short), .focusRight, .selectNext] _
    (by decide) (allSteps_cons.mpr ⟨?_, allSteps_cons.mpr ⟨trivial, allSteps_nil _ _⟩⟩)
  intro held hheld
  have hshort : app.connections.lookup long.key = some short := by decide
  obtain rfl := Option.some.inj (hshort.symm.trans hheld)
  decide

end SeeHandshake.App

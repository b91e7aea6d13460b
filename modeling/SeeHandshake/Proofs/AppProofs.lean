import SeeHandshake.Ui.App

/-!
# Proofs: the state of the user interface

`App.Valid` is the invariant of the user interface: the list of keys and the map of connections agree,
and each of the three cursors points at something. Every operation keeps it.
-/

namespace SeeHandshake.App

variable {app : App}

/-- The list of keys and the map of connections agree, and a connection is selected if there is
one. -/
structure Listed (app : App) : Prop where
  order_nodup : app.order.Nodup
  mem_order : ∀ k, k ∈ app.order ↔ k ∈ app.connections
  selectedIndex_lt : app.selectedIndex < app.order.length ∨
    app.selectedIndex = 0 ∧ app.order.length = 0

/-- The cursors of the middle and the right pane are in range. -/
structure InRange (app : App) : Prop where
  recordsRow_le : app.recordsRow ≤ app.selectedRecordCount
  sectionIndex_eq : app.recordsRow = 0 → app.sectionIndex = 0
  sectionIndex_lt : 0 < app.recordsRow → app.sectionIndex < app.sectionCount

/-- The invariant of the user interface. -/
structure Valid (app : App) : Prop extends Listed app, InRange app

/-! ## The cursors -/

/-- A row of the middle pane that is in range and not the metadata row has a record. -/
theorem isSome_recordSelected (hrow : 0 < app.recordsRow)
    (hle : app.recordsRow ≤ app.selectedRecordCount) : app.recordSelected.isSome := by
  unfold selectedRecordCount at hle
  unfold recordSelected
  rw [if_neg (by omega)]
  cases hsel : app.selected with
  | none =>
    rw [hsel] at hle
    simp only at hle
    omega
  | some conn =>
    rw [hsel] at hle
    simp only at hle
    rw [Option.bind_some, List.getElem?_eq_getElem (by omega)]
    rfl

theorem sectionCount_pos (hrow : 0 < app.recordsRow)
    (hle : app.recordsRow ≤ app.selectedRecordCount) : 0 < app.sectionCount := by
  obtain ⟨r, hr⟩ := Option.isSome_iff_exists.mp (isSome_recordSelected hrow hle)
  unfold sectionCount sections
  rw [hr]
  exact sectionsFor_length_pos r

theorem sectionCount_of_metadata (hrow : app.recordsRow = 0) : app.sectionCount = 0 := by
  unfold sectionCount sections recordSelected
  rw [if_pos hrow]
  rfl

/-- The metadata row has no sections to select. -/
theorem inRange_of_metadata (hrow : app.recordsRow = 0) (hsec : app.sectionIndex = 0) :
    app.InRange where
  recordsRow_le := by rw [hrow]; exact Nat.zero_le _
  sectionIndex_eq := fun _ => hsec
  sectionIndex_lt := fun h => absurd hrow (Nat.ne_of_gt h)

/-- The first section of a row in range can be selected. -/
theorem inRange_of_first (hle : app.recordsRow ≤ app.selectedRecordCount)
    (hsec : app.sectionIndex = 0) : app.InRange where
  recordsRow_le := hle
  sectionIndex_eq := fun _ => hsec
  sectionIndex_lt := by
    intro hrow
    rw [hsec]
    exact sectionCount_pos hrow hle

/-- Only the selected connection and the two rows matter. -/
theorem InRange.congr {app' : App} (h : app.InRange) (hsel : app'.selected = app.selected)
    (hrow : app'.recordsRow = app.recordsRow) (hsec : app'.sectionIndex = app.sectionIndex) :
    app'.InRange := by
  have hcount : app'.selectedRecordCount = app.selectedRecordCount := by
    unfold selectedRecordCount
    rw [hsel]
  have hsections : app'.sectionCount = app.sectionCount := by
    unfold sectionCount sections recordSelected
    rw [hsel, hrow]
  refine ⟨?_, ?_, ?_⟩
  · rw [hrow, hcount]
    exact h.recordsRow_le
  · rw [hrow, hsec]
    exact h.sectionIndex_eq
  · rw [hrow, hsec, hsections]
    exact h.sectionIndex_lt

/-- Clamping moves the cursors of the middle and the right pane only. -/
theorem clampIndices_frame : app.clampIndices.order = app.order ∧
    app.clampIndices.connections = app.connections ∧
    app.clampIndices.selectedIndex = app.selectedIndex := by
  unfold clampIndices
  simp only
  split_ifs <;> exact ⟨rfl, rfl, rfl⟩

/-- Clamping puts the cursors in range, wherever they were. -/
theorem inRange_clampIndices : app.clampIndices.InRange := by
  unfold clampIndices
  simp only
  generalize happ' : (if app.recordsRow > app.selectedRecordCount then
    { app with recordsRow := app.selectedRecordCount } else app) = app'
  have hle : app'.recordsRow ≤ app'.selectedRecordCount := by
    rw [← happ']
    split_ifs with hrow
    · exact Nat.le_refl _
    · omega
  have hzero := @sectionCount_of_metadata app'
  have hpos : 0 < app'.recordsRow → 0 < app'.sectionCount := fun hrow => sectionCount_pos hrow hle
  split_ifs with hsec
  · refine ⟨hle, ?_, ?_⟩
    · intro hrow
      have hcount : app'.sectionCount = 0 := hzero hrow
      show app'.sectionCount - 1 = 0
      omega
    · intro hrow
      have hcount : 0 < app'.sectionCount := hpos hrow
      show app'.sectionCount - 1 < app'.sectionCount
      omega
  · refine ⟨hle, ?_, ?_⟩
    · intro hrow
      have hcount := hzero hrow
      omega
    · intro hrow
      have hcount := hpos hrow
      omega

theorem Listed.congr {app' : App} (h : app.Listed) (horder : app'.order = app.order)
    (hconn : app'.connections = app.connections) (hidx : app'.selectedIndex = app.selectedIndex) :
    app'.Listed := by
  refine ⟨?_, ?_, ?_⟩
  · rw [horder]
    exact h.order_nodup
  · rw [horder, hconn]
    exact h.mem_order
  · rw [horder, hidx]
    exact h.selectedIndex_lt

theorem Valid.clampIndices (h : app.Listed) : app.clampIndices.Valid := by
  obtain ⟨horder, hconn, hidx⟩ := @clampIndices_frame app
  exact ⟨h.congr horder hconn hidx, inRange_clampIndices⟩

/-! ## Operations -/

theorem valid_new : App.new.Valid where
  order_nodup := List.nodup_nil
  mem_order := fun k => iff_of_false List.not_mem_nil (AList.notMem_empty k)
  selectedIndex_lt := .inr ⟨rfl, rfl⟩
  toInRange := inRange_of_metadata rfl rfl

namespace Valid

/-- The keys, the connections and the three cursors are all that matters. -/
theorem congr {app' : App} (h : app.Valid) (horder : app'.order = app.order)
    (hconn : app'.connections = app.connections) (hidx : app'.selectedIndex = app.selectedIndex)
    (hrow : app'.recordsRow = app.recordsRow) (hsec : app'.sectionIndex = app.sectionIndex) :
    app'.Valid := by
  have hsel : app'.selected = app.selected := by
    unfold selected
    rw [horder, hconn, hidx]
  exact ⟨h.toListed.congr horder hconn hidx, h.toInRange.congr hsel hrow hsec⟩

theorem onConnectionChanged (h : app.Listed) : app.onConnectionChanged.Valid :=
  ⟨⟨h.order_nodup, h.mem_order, h.selectedIndex_lt⟩, inRange_of_metadata rfl rfl⟩

/-- A move of the middle cursor to a row in range. -/
theorem toRow (h : app.Listed) {row : ℕ} (hrow : row ≤ app.selectedRecordCount) :
    (App.onRecordsRowChanged { app with recordsRow := row }).Valid :=
  ⟨⟨h.order_nodup, h.mem_order, h.selectedIndex_lt⟩, inRange_of_first hrow rfl⟩

theorem advancePastMetadataRow (h : app.Valid) : app.advancePastMetadataRow.Valid := by
  unfold App.advancePastMetadataRow
  split_ifs with hmeta
  · exact toRow h.toListed hmeta.2
  · exact h

/-- The row of a ClientHello is in range. -/
theorem clientHelloRow_le {row : ℕ} (h : app.clientHelloRow = some row) :
    row ≤ app.selectedRecordCount := by
  unfold clientHelloRow at h
  obtain ⟨conn, hsel, hindex⟩ := Option.bind_eq_some_iff.mp h
  obtain ⟨index, hfind, hrow⟩ := Option.bind_eq_some_iff.mp hindex
  have hlt := (List.findIdx?_eq_some_iff_getElem.mp hfind).1
  obtain rfl := Option.some.inj hrow
  unfold selectedRecordCount
  rw [hsel]
  exact hlt

theorem toggleMiddleMode (h : app.Valid) : app.toggleMiddleMode.Valid := by
  unfold App.toggleMiddleMode
  have hmode : Valid { app with middleMode := app.middleMode.toggle } := h.congr rfl rfl rfl rfl rfl
  simp only
  split_ifs with hflow
  · split
    · rename_i row hrow
      exact toRow hmode.toListed (clientHelloRow_le hrow)
    · exact hmode
  · exact hmode

theorem clearConnections : app.clearConnections.Valid where
  order_nodup := List.nodup_nil
  mem_order := fun k => iff_of_false List.not_mem_nil (AList.notMem_empty k)
  selectedIndex_lt := .inr ⟨rfl, rfl⟩
  toInRange := inRange_of_metadata rfl rfl

/-- A change of the focus moves the cursor past the metadata row at most. -/
theorem focusTo (h : app.Valid) (pane : PaneFocus) :
    App.Valid (if pane = .right then App.advancePastMetadataRow { app with focus := pane } else
      { app with focus := pane }) := by
  have hfocus : App.Valid { app with focus := pane } := h.congr rfl rfl rfl rfl rfl
  split_ifs
  · exact hfocus.advancePastMetadataRow
  · exact hfocus

theorem connectionPrev (h : app.Valid) : app.connectionPrev.Valid := by
  unfold App.connectionPrev
  simp only
  split_ifs with hempty hmoved
  · exact h
  · refine onConnectionChanged ⟨h.order_nodup, h.mem_order, ?_⟩
    rcases h.selectedIndex_lt with hlt | hnone
    · left
      show app.selectedIndex - 1 < app.order.length
      omega
    · exact absurd (List.isEmpty_iff.mpr (List.length_eq_zero_iff.mp hnone.2)) hempty
  · exact h.congr rfl rfl (not_not.mp hmoved) rfl rfl

theorem connectionNext (h : app.Valid) : app.connectionNext.Valid := by
  unfold App.connectionNext
  simp only
  split_ifs with hempty hlast hmoved hmoved
  · exact h
  · refine onConnectionChanged ⟨h.order_nodup, h.mem_order, .inl ?_⟩
    show app.selectedIndex + 1 < app.order.length
    omega
  · exact h.congr rfl rfl (not_not.mp hmoved) rfl rfl
  · exact onConnectionChanged h.toListed
  · exact h

theorem recordPrev (h : app.Valid) : app.recordPrev.Valid := by
  unfold App.recordPrev
  simp only
  split_ifs with hmoved
  · have hle := h.recordsRow_le
    exact toRow h.toListed (by omega)
  · exact h.congr rfl rfl rfl (not_not.mp hmoved) rfl

theorem recordNext (h : app.Valid) : app.recordNext.Valid := by
  unfold App.recordNext
  simp only
  split_ifs with hcap hmoved hmoved
  · exact toRow h.toListed hcap
  · exact h.congr rfl rfl rfl (not_not.mp hmoved) rfl
  · exact toRow h.toListed h.recordsRow_le
  · exact h

theorem sectionPrev (h : app.Valid) : app.sectionPrev.Valid := by
  unfold App.sectionPrev
  split_ifs with hmeta
  · exact h
  · refine ⟨⟨h.order_nodup, h.mem_order, h.selectedIndex_lt⟩, h.recordsRow_le, ?_, ?_⟩
    · intro hrow
      exact absurd hrow hmeta
    · intro hrow
      have hlt : app.sectionIndex < app.sectionCount := h.sectionIndex_lt hrow
      show app.sectionIndex - 1 < app.sectionCount
      omega

theorem sectionNext (h : app.Valid) : app.sectionNext.Valid := by
  unfold App.sectionNext
  simp only
  split_ifs with hmeta hcap
  · exact h
  · refine ⟨⟨h.order_nodup, h.mem_order, h.selectedIndex_lt⟩, h.recordsRow_le, ?_, ?_⟩
    · intro hrow
      exact absurd hrow hmeta
    · intro hrow
      show app.sectionIndex + 1 < app.sectionCount
      omega
  · exact h

theorem selectPrev (h : app.Valid) : app.selectPrev.Valid := by
  unfold App.selectPrev
  split
  · exact h.connectionPrev
  · exact h.recordPrev
  · exact h.sectionPrev

theorem selectNext (h : app.Valid) : app.selectNext.Valid := by
  unfold App.selectNext
  split
  · exact h.connectionNext
  · exact h.recordNext
  · exact h.sectionNext

end Valid

/-! ## Events -/

/-- The keys after an update: a new key is shown last. -/
def orderWith (app : App) (key : ConnectionKey) : List ConnectionKey :=
  if key ∈ app.connections then app.order else app.order ++ [key]

/-- What an update does: the state of its connection is replaced or added, and nothing is moved but
the cursors of the connection when it is selected. -/
theorem handleUiEvent_updated (state : ConnectionState) :
    let app' : App := { app with
      order := app.orderWith state.key
      connections := app.connections.insert state.key state }
    app.handleUiEvent (.handshakeUpdated state) =
      if (app.orderWith state.key)[app.selectedIndex]? = some state.key then app'.clampIndices
      else app' := by
  unfold handleUiEvent orderWith
  simp only
  split_ifs <;> rfl

theorem Listed.mem_orderWith (h : app.Listed) {key k : ConnectionKey} :
    k ∈ app.orderWith key ↔ k = key ∨ k ∈ app.connections := by
  unfold orderWith
  split_ifs with hkey
  · rw [h.mem_order]
    exact ⟨.inr, fun hk => hk.elim (fun heq => heq ▸ hkey) id⟩
  · rw [List.mem_append, List.mem_singleton, h.mem_order]
    exact or_comm

theorem Listed.nodup_orderWith (h : app.Listed) (key : ConnectionKey) :
    (app.orderWith key).Nodup := by
  unfold orderWith
  split_ifs with hkey
  · exact h.order_nodup
  · refine List.nodup_append.mpr ⟨h.order_nodup, List.nodup_singleton key, ?_⟩
    intro k hk k' hk' heq
    rw [List.mem_singleton.mp hk'] at heq
    rw [heq, h.mem_order] at hk
    exact hkey hk

/-- A new key does not move the keys that are shown. -/
theorem getElem?_orderWith (key : ConnectionKey) {i : ℕ} (hi : i < app.order.length) :
    (app.orderWith key)[i]? = app.order[i]? := by
  unfold orderWith
  split_ifs with hkey
  · rfl
  · exact List.getElem?_append_left hi

theorem Listed.updated (h : app.Listed) (state : ConnectionState) :
    Listed { app with
      order := app.orderWith state.key
      connections := app.connections.insert state.key state } := by
  refine ⟨h.nodup_orderWith state.key, ?_, ?_⟩
  · intro k
    show k ∈ app.orderWith state.key ↔ k ∈ app.connections.insert state.key state
    rw [h.mem_orderWith, AList.mem_insert]
  · left
    show app.selectedIndex < (app.orderWith state.key).length
    have hpos : 0 < (app.orderWith state.key).length :=
      List.length_pos_of_mem (h.mem_orderWith.mpr (.inl rfl))
    rcases h.selectedIndex_lt with hlt | ⟨hzero, -⟩
    · have hle : app.order.length ≤ (app.orderWith state.key).length := by
        unfold orderWith
        split_ifs
        · exact Nat.le_refl _
        · rw [List.length_append]
          omega
      omega
    · omega

/-- An update of a connection that is not selected leaves the selected one as it is. -/
theorem Listed.selected_updated (h : app.Listed) {state : ConnectionState}
    (hne : (app.orderWith state.key)[app.selectedIndex]? ≠ some state.key) :
    selected { app with
      order := app.orderWith state.key
      connections := app.connections.insert state.key state } = app.selected := by
  unfold selected
  rcases h.selectedIndex_lt with hlt | ⟨hzero, hempty⟩
  · rw [getElem?_orderWith state.key hlt] at hne ⊢
    rw [List.getElem?_eq_getElem hlt] at hne ⊢
    have hkey : app.order[app.selectedIndex] ≠ state.key := fun heq => hne (congrArg some heq)
    exact AList.lookup_insert_ne hkey
  · -- The first key to be shown is selected.
    have hnil : app.order = [] := List.length_eq_zero_iff.mp hempty
    have hkey : state.key ∉ app.connections := by
      rw [← h.mem_order, hnil]
      exact List.not_mem_nil
    unfold orderWith at hne
    rw [if_neg hkey, hnil, hzero] at hne
    exact absurd rfl hne

theorem Valid.handshakeUpdated (h : app.Valid) (state : ConnectionState) :
    (app.handleUiEvent (.handshakeUpdated state)).Valid := by
  rw [handleUiEvent_updated]
  have hlisted := h.toListed.updated state
  split_ifs with hsel
  · exact Valid.clampIndices hlisted
  · exact ⟨hlisted, h.toInRange.congr (h.selected_updated hsel) rfl rfl⟩

/-- An eviction changes nothing but the count: every key that is shown has a connection. -/
theorem Listed.handleUiEvent_evicted (h : app.Listed) (removed : ℕ) :
    app.handleUiEvent (.staleEvicted removed) =
      let app' : App := { app with evicted := usizeSaturatingAdd app.evicted removed }
      if app.order = [] then app'.onConnectionChanged else app'.clampIndices := by
  have hfilter : app.order.filter (fun k => k ∈ app.connections) = app.order := by
    refine List.filter_eq_self.mpr ?_
    intro k hk
    exact decide_eq_true ((h.mem_order k).mp hk)
  unfold handleUiEvent
  simp only [hfilter]
  rcases h.selectedIndex_lt with hlt | ⟨hzero, hempty⟩
  · have hne : app.order ≠ [] := List.ne_nil_of_length_pos (by omega)
    have hpos : app.order[app.selectedIndex]?.bind (fun k => app.order.findIdx? (· = k)) =
        some app.selectedIndex := by
      rw [List.getElem?_eq_getElem hlt, Option.bind_some, List.findIdx?_eq_some_iff_getElem]
      refine ⟨hlt, decide_eq_true rfl, ?_⟩
      intro j hj heq
      have hinj := (List.Nodup.getElem_inj_iff h.order_nodup).mp (of_decide_eq_true heq)
      omega
    rw [if_neg (by rwa [List.isEmpty_iff]), if_neg hne, hpos]
  · have hnil : app.order = [] := List.length_eq_zero_iff.mp hempty
    rw [if_pos (by rw [hnil]; rfl), if_pos hnil, hzero]

theorem Valid.staleEvicted (h : app.Valid) (removed : ℕ) :
    (app.handleUiEvent (.staleEvicted removed)).Valid := by
  rw [h.handleUiEvent_evicted]
  simp only
  have hlisted : Listed { app with evicted := usizeSaturatingAdd app.evicted removed } :=
    h.toListed.congr rfl rfl rfl
  split_ifs
  · exact Valid.onConnectionChanged hlisted
  · exact Valid.clampIndices hlisted

/-! ## Runs -/

theorem Valid.op (h : app.Valid) (o : AppOp) : (app.op o).Valid := by
  cases o with
  | handleUiEvent evt =>
    cases evt with
    | handshakeUpdated state => exact h.handshakeUpdated state
    | staleEvicted removed => exact h.staleEvicted removed
  | selectPrev => exact h.selectPrev
  | selectNext => exact h.selectNext
  | focusLeft => exact h.congr rfl rfl rfl rfl rfl
  | focusRight => exact h.focusTo app.focus.toRight
  | focusCycle => exact h.focusTo app.focus.cycle
  | toggleMiddleMode => exact h.toggleMiddleMode
  | toggleEducation => exact h.congr rfl rfl rfl rfl rfl
  | toggleDiagram => exact h.congr rfl rfl rfl rfl rfl
  | clearConnections => exact Valid.clearConnections
  | tick => exact h.congr rfl rfl rfl rfl rfl

theorem Valid.ops (h : app.Valid) (os : List AppOp) : (app.ops os).Valid := by
  induction os generalizing app with
  | nil => exact h
  | cons o os ih => exact ih (h.op o)

/-- Every sequence of operations leads from the empty user interface to a valid one, in which a row
of the middle pane below the metadata row has a record. -/
theorem valid_of_ops (os : List AppOp) :
    (new.ops os).Valid ∧
      (0 < (new.ops os).recordsRow → (new.ops os).recordSelected.isSome) := by
  have h := valid_new.ops os
  exact ⟨h, fun hrow => isSome_recordSelected hrow h.recordsRow_le⟩

end SeeHandshake.App

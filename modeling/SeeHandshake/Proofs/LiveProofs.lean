import SeeHandshake.Parser.Reference
import SeeHandshake.Proofs.AppProofs
import SeeHandshake.Proofs.EvictionProofs
import SeeHandshake.Ui.RunLive

/-!
# Proofs: the tracker thread and the user interface

The user interface keeps a copy of the tracked connections from the events of the tracker thread. An
update replaces a copy; an eviction removes none, because it does not tell which. So the copy is right
exactly as long as nothing is stale.
-/

namespace SeeHandshake

open Lib ConnectionTracker

/-! ## The copy of the user interface -/

/-- What an event does to the copies. -/
def UiEvent.apply (m : AList fun _ : ConnectionKey => ConnectionState) :
    UiEvent → AList fun _ : ConnectionKey => ConnectionState
  | .handshakeUpdated state => m.insert state.key state
  | .staleEvicted _ => m

namespace App

variable {app : App}

theorem Listed.handleUiEvent_connections (h : app.Listed) (evt : UiEvent) :
    (app.handleUiEvent evt).connections = evt.apply app.connections := by
  cases evt with
  | handshakeUpdated state =>
    rw [handleUiEvent_updated]
    split_ifs
    · exact clampIndices_frame.2.1
    · rfl
  | staleEvicted removed =>
    rw [h.handleUiEvent_evicted]
    split_ifs
    · rfl
    · exact clampIndices_frame.2.1

theorem advancePastMetadataRow_connections : app.advancePastMetadataRow.connections = app.connections := by
  unfold advancePastMetadataRow
  split_ifs <;> rfl

/-- The keys of the keyboard leave the copies alone, but for the one that clears them. -/
theorem op_connections {o : AppOp} (hclear : o ≠ .clearConnections) (hevent : o.event? = none) :
    (app.op o).connections = app.connections := by
  cases o with
  | handleUiEvent evt => cases hevent
  | clearConnections => exact absurd rfl hclear
  | selectPrev =>
    show app.selectPrev.connections = _
    unfold selectPrev
    split
    · unfold connectionPrev
      simp only
      split_ifs <;> rfl
    · unfold recordPrev
      simp only
      split_ifs <;> rfl
    · unfold sectionPrev
      split_ifs <;> rfl
  | selectNext =>
    show app.selectNext.connections = _
    unfold selectNext
    split
    · unfold connectionNext
      simp only
      split_ifs <;> rfl
    · unfold recordNext
      simp only
      split_ifs <;> rfl
    · unfold sectionNext
      simp only
      split_ifs <;> rfl
  | focusLeft => rfl
  | focusRight =>
    show app.focusRight.connections = _
    unfold focusRight
    simp only
    split_ifs
    · exact advancePastMetadataRow_connections
    · rfl
  | focusCycle =>
    show app.focusCycle.connections = _
    unfold focusCycle
    simp only
    split_ifs
    · exact advancePastMetadataRow_connections
    · rfl
  | toggleMiddleMode =>
    show app.toggleMiddleMode.connections = _
    unfold toggleMiddleMode
    simp only
    split_ifs
    · split <;> rfl
    · rfl
  | toggleEducation => rfl
  | toggleDiagram => rfl
  | tick => rfl

/-- The copies depend on the events alone, whatever the user does in between. -/
theorem Valid.ops_connections (h : app.Valid) {os : List AppOp} (hclear : .clearConnections ∉ os) :
    (app.ops os).connections = (os.filterMap AppOp.event?).foldl UiEvent.apply app.connections := by
  induction os generalizing app with
  | nil => rfl
  | cons o os ih =>
    have hne : o ≠ .clearConnections := fun heq => hclear (heq ▸ List.mem_cons_self)
    have hrest := ih (h.op o) fun hmem => hclear (List.mem_cons_of_mem o hmem)
    show ((app.op o).ops os).connections = _
    rw [hrest]
    cases hevent : o.event? with
    | none =>
      rw [List.filterMap_cons_none hevent, op_connections hne hevent]
    | some evt =>
      obtain rfl : o = .handleUiEvent evt := by
        cases o with
        | handleUiEvent evt' => exact congrArg AppOp.handleUiEvent (Option.some.inj hevent)
        | _ => cases hevent
      rw [List.filterMap_cons_some hevent, List.foldl_cons]
      show List.foldl UiEvent.apply (app.handleUiEvent evt).connections _ = _
      rw [h.toListed.handleUiEvent_connections]

end App

/-! ## The tracker thread -/

section Thread

variable {ρ : Type}

/-- The segment brings bytes of the connection. -/
def TcpSegment.Touches (key : ConnectionKey) (x : TcpSegment × UInt64) : Prop :=
  x.1.key = key ∧ x.1.payload ≠ []

instance (key : ConnectionKey) (x : TcpSegment × UInt64) : Decidable (TcpSegment.Touches key x) :=
  inferInstanceAs (Decidable (_ ∧ _))

/-- The second segment neither brings bytes of the connection, nor does it come too late after the
first one. -/
def TcpSegment.Keeps (timeoutMs : UInt64) (key : ConnectionKey) (x y : TcpSegment × UInt64) : Prop :=
  ¬ TcpSegment.Touches key y ∧ y.2.toNat ≤ x.2.toNat + timeoutMs.toNat

/-- The invariant of the tracker thread and the copies `m` of the user interface, after the segments
`segs`. -/
structure Copies (timeoutMs : UInt64) (segs : List (TcpSegment × UInt64)) (t : ConnectionTracker ρ)
    (m : AList fun _ : ConnectionKey => ConnectionState) : Prop where
  staleTimeoutMs : t.staleTimeoutMs = timeoutMs
  /-- Every connection that was ever seen has a copy. -/
  mem_iff : ∀ key, key ∈ m ↔ ∃ x ∈ segs, TcpSegment.Touches key x
  /-- The copy of a tracked connection is its state. -/
  copy : ∀ key conn, t.connections.lookup key = some conn → m.lookup key = some conn.state
  key_eq : ∀ key conn, t.connections.lookup key = some conn → conn.state.key = key
  seen : ∀ key seen, (t.connections.lookup key).map (·.state.lastSeenMs) = some seen ↔
    ∃ x, Since (TcpSegment.Touches key) (TcpSegment.Keeps timeoutMs key) segs x ∧ x.2 = seen

namespace Copies

variable {timeoutMs : UInt64} {segs : List (TcpSegment × UInt64)} {t : ConnectionTracker ρ}
  {m : AList fun _ : ConnectionKey => ConnectionState}

theorem fresh (timeoutMs : UInt64) (r : ρ) :
    Copies timeoutMs [] (withStaleTimeout timeoutMs r) ∅ where
  staleTimeoutMs := rfl
  mem_iff := by
    intro key
    refine iff_of_false (AList.notMem_empty key) ?_
    rintro ⟨x, hx, -⟩
    exact List.not_mem_nil hx
  copy := by
    intro key conn h
    cases h
  key_eq := by
    intro key conn h
    cases h
  seen := by
    intro key seen
    refine iff_of_false (by rintro ⟨⟩) ?_
    rintro ⟨x, hsince, -⟩
    exact since_nil hsince

/-- A key is tracked iff nothing came too late for its last nonempty segment. -/
theorem tracks_iff (h : Copies timeoutMs segs t m) (key : ConnectionKey) :
    t.Tracks key ↔
      ∃ x, Since (TcpSegment.Touches key) (TcpSegment.Keeps timeoutMs key) segs x := by
  unfold Tracks
  rw [Option.isSome_iff_exists]
  constructor
  · rintro ⟨conn, hconn⟩
    obtain ⟨x, hsince, -⟩ := (h.seen key conn.state.lastSeenMs).mp (by rw [hconn]; rfl)
    exact ⟨x, hsince⟩
  · rintro ⟨x, hsince⟩
    obtain ⟨conn, hconn, -⟩ := Option.map_eq_some_iff.mp ((h.seen key x.2).mpr ⟨x, hsince, rfl⟩)
    exact ⟨conn, hconn⟩

/-- What was seen of a connection, after one more segment. -/
theorem mem_iff_turn (h : Copies timeoutMs segs t m) (x : TcpSegment × UInt64)
    (state : ConnectionState) (key : ConnectionKey) :
    key ∈ (if x.1.payload = [] then m else m.insert x.1.key state) ↔
      ∃ y ∈ segs ++ [x], TcpSegment.Touches key y := by
  have hlast : (∃ y ∈ segs ++ [x], TcpSegment.Touches key y) ↔
      (∃ y ∈ segs, TcpSegment.Touches key y) ∨ TcpSegment.Touches key x := by
    simp [or_and_right, exists_or]
  rw [hlast, ← h.mem_iff key]
  split_ifs with hempty
  · have hnot : ¬ TcpSegment.Touches key x := fun htouch => htouch.2 hempty
    exact (or_iff_left hnot).symm
  · rw [AList.mem_insert, or_comm]
    have htouch : TcpSegment.Touches key x ↔ key = x.1.key :=
      ⟨fun htouch => htouch.1.symm, fun heq => ⟨heq.symm, hempty⟩⟩
    rw [htouch]

/-- The copies are right iff every connection that was ever seen is tracked. -/
theorem copies_right_iff (h : Copies timeoutMs segs t m) :
    (∀ key, (key ∈ m ↔ t.Tracks key) ∧
        m.lookup key = (t.connections.lookup key).map TrackedConnection.state) ↔
      ∀ key, (∃ x ∈ segs, TcpSegment.Touches key x) → t.Tracks key := by
  constructor
  · intro hright key hseen
    exact (hright key).1.mp ((h.mem_iff key).mpr hseen)
  · intro htracks key
    cases hlookup : t.connections.lookup key with
    | some conn =>
      have hcopy := h.copy key conn hlookup
      refine ⟨iff_of_true ?_ ?_, hcopy⟩
      · rw [← AList.lookup_isSome, hcopy]
        rfl
      · unfold Tracks
        rw [hlookup]
        rfl
    | none =>
      have huntracked : ¬ t.Tracks key := by
        unfold Tracks
        rw [hlookup]
        exact Bool.false_ne_true
      have hunseen : key ∉ m := by
        rw [h.mem_iff]
        exact fun hseen => huntracked (htracks key hseen)
      exact ⟨iff_of_false hunseen huntracked, AList.lookup_eq_none.mpr hunseen⟩

end Copies

variable [OriginResolver ρ] {tp : TlsParser}

theorem trackerThread_concat (t : ConnectionTracker ρ) (segs : List (TcpSegment × UInt64))
    (x : TcpSegment × UInt64) :
    trackerThread tp t (segs ++ [x]) =
      let run := trackerThread tp t segs
      let turn := trackerTurn tp run.2 x.1 x.2
      (run.1 ++ turn.1, turn.2) := by
  induction segs generalizing t with
  | nil =>
    show ((trackerTurn tp t x.1 x.2).1 ++ [], (trackerTurn tp t x.1 x.2).2) = _
    rw [List.append_nil]
    rfl
  | cons y segs ih =>
    show ((trackerTurn tp t y.1 y.2).1 ++ (trackerThread tp _ (segs ++ [x])).1,
      (trackerThread tp _ (segs ++ [x])).2) = _
    rw [ih]
    simp only [trackerThread, List.append_assoc]

theorem trackerTurn_snd (t : ConnectionTracker ρ) (seg : TcpSegment) (nowMs : UInt64) :
    (trackerTurn tp t seg nowMs).2 = ((t.call tp (seg.call nowMs)).evictStale nowMs).2 := rfl

/-- The result of `ingest`. -/
theorem ingest_fst (t : ConnectionTracker ρ) (c : Call) :
    (t.ingest tp c.key c.direction c.endpointA c.endpointB c.payload c.nowMs).1 =
      .ok (if c.payload = [] then none
        else some ((t.target c).1.ingest tp c.direction c.payload c.nowMs).state) := by
  unfold ConnectionTracker.ingest target
  by_cases hempty : c.payload = []
  · rw [if_pos hempty, if_pos (by rw [hempty]; rfl)]
  · have hne : ¬ c.payload.isEmpty := by simpa using hempty
    cases t.connections.lookup c.key with
    | some conn => exact (congrArg Prod.fst (if_neg hne)).trans (congrArg Except.ok (if_neg hempty)).symm
    | none => exact (congrArg Prod.fst (if_neg hne)).trans (congrArg Except.ok (if_neg hempty)).symm

/-- An empty segment is not told to the user interface, and any other segment as the new state of its
connection. -/
theorem apply_trackerTurn (t : ConnectionTracker ρ) (seg : TcpSegment) (nowMs : UInt64)
    (m : AList fun _ : ConnectionKey => ConnectionState) :
    (trackerTurn tp t seg nowMs).1.foldl UiEvent.apply m =
      if seg.payload = [] then m
      else
        let state := ((t.target (seg.call nowMs)).1.ingest tp seg.direction seg.payload nowMs).state
        m.insert state.key state := by
  have hevict : ∀ (removed : ℕ) m', (if removed > 0 then [UiEvent.staleEvicted removed] else []).foldl
      UiEvent.apply m' = m' := by
    intro removed m'
    split_ifs <;> rfl
  have hresult := @ingest_fst ρ _ tp t (seg.call nowMs)
  unfold trackerTurn
  by_cases hempty : seg.payload = []
  · rw [if_pos (show (seg.call nowMs).payload = [] from hempty)] at hresult
    simp only [hresult]
    rw [List.foldl_append, hevict, if_pos hempty]
    rfl
  · rw [if_neg (show (seg.call nowMs).payload ≠ [] from hempty)] at hresult
    simp only [hresult]
    rw [List.foldl_append, hevict, if_neg hempty]
    rfl

/-- After a turn, the connection of the segment was last seen now, and any other connection is as it
was, unless it is stale. -/
theorem lookup_trackerTurn (t : ConnectionTracker ρ) (x : TcpSegment × UInt64) (key : ConnectionKey) :
    (trackerTurn tp t x.1 x.2).2.connections.lookup key =
      if TcpSegment.Touches key x then
        some ((t.target (x.1.call x.2)).1.ingest tp x.1.direction x.1.payload x.2)
      else
        (t.connections.lookup key).filter fun conn =>
          conn.state.lastSeenMs ≥ u64SaturatingSub x.2 t.staleTimeoutMs := by
  rw [trackerTurn_snd, lookup_evictStale, call_staleTimeoutMs]
  split_ifs with htouch
  · have hkey : key = (x.1.call x.2).key := htouch.1.symm
    have hlookup := @lookup_call ρ _ tp t (x.1.call x.2) htouch.2 key
    rw [if_pos hkey] at hlookup
    rw [hlookup, Option.filter_eq_some_iff]
    refine ⟨rfl, decide_eq_true ?_⟩
    have hseen := (@TrackedConnection.ingest_state tp (t.target (x.1.call x.2)).1 x.1.direction
      x.1.payload x.2).1
    show (TrackedConnection.ingest tp _ x.1.direction x.1.payload x.2).state.lastSeenMs ≥ _
    rw [hseen, u64SaturatingSub_le_iff]
    omega
  · by_cases hempty : x.1.payload = []
    · rw [call_of_nil (show (x.1.call x.2).payload = [] from hempty)]
    · have hkey : key ≠ (x.1.call x.2).key := fun heq => htouch ⟨heq.symm, hempty⟩
      have hlookup := @lookup_call ρ _ tp t (x.1.call x.2) hempty key
      rw [if_neg hkey] at hlookup
      rw [hlookup]

namespace Copies

variable {timeoutMs : UInt64} {segs : List (TcpSegment × UInt64)} {t : ConnectionTracker ρ}
  {m : AList fun _ : ConnectionKey => ConnectionState}

/-- The connection that a segment works on has the key of the segment. -/
theorem target_key (h : Copies timeoutMs segs t m) (c : Call) :
    (t.target c).1.state.key = c.key := by
  unfold target
  cases hlookup : t.connections.lookup c.key with
  | some conn => exact h.key_eq c.key conn hlookup
  | none => rfl

/-- When a connection was last seen, after one more segment. -/
theorem seen_turn (h : Copies timeoutMs segs t m) (x : TcpSegment × UInt64) (key : ConnectionKey)
    (seen : UInt64) :
    ((trackerTurn tp t x.1 x.2).2.connections.lookup key).map (·.state.lastSeenMs) = some seen ↔
      ∃ y, Since (TcpSegment.Touches key) (TcpSegment.Keeps timeoutMs key) (segs ++ [x]) y ∧
        y.2 = seen := by
  rw [lookup_trackerTurn]
  split_ifs with htouch
  · rw [Option.map_some, (TrackedConnection.ingest_state _ _ _ _).1, Option.some.injEq]
    constructor
    · rintro rfl
      exact ⟨x, since_concat.mpr (.inl ⟨rfl, htouch⟩), rfl⟩
    · rintro ⟨y, hsince, rfl⟩
      rcases since_concat.mp hsince with ⟨rfl, -⟩ | ⟨-, hkeep⟩
      · rfl
      · exact absurd htouch hkeep.1
  · rw [h.staleTimeoutMs, lastSeen_filter_iff, h.seen key seen]
    constructor
    · rintro ⟨⟨y, hsince, rfl⟩, hle⟩
      exact ⟨y, since_concat.mpr (.inr ⟨hsince, htouch, hle⟩), rfl⟩
    · rintro ⟨y, hsince, rfl⟩
      rcases since_concat.mp hsince with ⟨rfl, htouch'⟩ | ⟨hsince, -, hle⟩
      · exact absurd htouch' htouch
      · exact ⟨⟨y, hsince, rfl⟩, hle⟩

theorem turn (h : Copies timeoutMs segs t m) (x : TcpSegment × UInt64) :
    Copies timeoutMs (segs ++ [x]) (trackerTurn tp t x.1 x.2).2
      ((trackerTurn tp t x.1 x.2).1.foldl UiEvent.apply m) := by
  have hkey : ((t.target (x.1.call x.2)).1.ingest tp x.1.direction x.1.payload x.2).state.key =
      x.1.key :=
    (TrackedConnection.ingest_state _ _ _ _).2.2.trans (h.target_key _)
  have hlookup := @lookup_trackerTurn ρ _ tp t x
  rw [apply_trackerTurn]
  simp only
  rw [hkey]
  -- The copy of a connection that the segment does not touch stays.
  have hkept : ∀ key, ¬ TcpSegment.Touches key x → ∀ state,
      (if x.1.payload = [] then m else m.insert x.1.key state).lookup key = m.lookup key := by
    intro key htouch state
    split_ifs with hempty
    · rfl
    · exact AList.lookup_insert_ne fun heq => htouch ⟨heq.symm, hempty⟩
  refine ⟨?_, h.mem_iff_turn x _, ?_, ?_, h.seen_turn x⟩
  · rw [trackerTurn_snd]
    exact call_staleTimeoutMs.trans h.staleTimeoutMs
  · intro key conn hconn
    rw [hlookup key] at hconn
    split_ifs at hconn with htouch
    · obtain rfl := Option.some.inj hconn
      rw [if_neg htouch.2, htouch.1]
      exact AList.lookup_insert _
    · rw [hkept key htouch]
      exact h.copy key conn (Option.filter_eq_some_iff.mp hconn).1
  · intro key conn hconn
    rw [hlookup key] at hconn
    split_ifs at hconn with htouch
    · obtain rfl := Option.some.inj hconn
      exact hkey.trans htouch.1
    · exact h.key_eq key conn (Option.filter_eq_some_iff.mp hconn).1

theorem run (timeoutMs : UInt64) (r : ρ) (segs : List (TcpSegment × UInt64)) :
    Copies timeoutMs segs (trackerThread tp (withStaleTimeout timeoutMs r) segs).2
      ((trackerThread tp (withStaleTimeout timeoutMs r) segs).1.foldl UiEvent.apply ∅) := by
  induction segs using List.reverseRecOn with
  | nil => exact fresh timeoutMs r
  | append_singleton segs x ih =>
    rw [trackerThread_concat]
    simp only
    rw [List.foldl_append]
    exact ih.turn x

end Copies

/-- Nothing is stale iff nothing came too late for the last nonempty segment of any connection. -/
theorem noneStale_iff {timeoutMs : UInt64} {segs : List (TcpSegment × UInt64)} :
    NoneStale timeoutMs segs ↔
      ∀ key, (∃ x ∈ segs, TcpSegment.Touches key x) →
        ∃ x, Since (TcpSegment.Touches key) (TcpSegment.Keeps timeoutMs key) segs x := by
  constructor
  · intro hstale key hseen
    obtain ⟨a, x, b, rfl, htouch, hlater⟩ := exists_last_split hseen
    obtain ⟨hkey, hne⟩ := htouch
    have hlate := hstale a x.1 x.2 b rfl hne (by
      intro y hy hykey
      by_contra hyne
      exact hlater y hy ⟨hykey.trans hkey, hyne⟩)
    exact ⟨x, a, b, rfl, ⟨hkey, hne⟩, fun y hy => ⟨hlater y hy, hlate y hy⟩⟩
  · intro hsince before seg nowMs after hsegs hne hlater y hy
    have htouch : TcpSegment.Touches seg.key (seg, nowMs) := ⟨rfl, hne⟩
    have hnone : ∀ z ∈ after, ¬ TcpSegment.Touches seg.key z :=
      fun z hz htouched => htouched.2 (hlater z hz htouched.1)
    obtain ⟨x, a, b, heq, hx, hkeeps⟩ := hsince seg.key ⟨(seg, nowMs), by simp [hsegs], htouch⟩
    obtain ⟨-, rfl, rfl⟩ := last_split_unique (hsegs.symm.trans heq) htouch hx hnone
      fun z hz => (hkeeps z hz).1
    exact (hkeeps y hy).2

/-- The user interface lists what the tracker tracks iff no connection is stale, since no connection
is ever taken off the list for being stale. -/
theorem shows_iff_noneStale (tp : TlsParser) (timeoutMs : UInt64) (r : ρ)
    (segs : List (TcpSegment × UInt64)) (os : List AppOp) (hclear : .clearConnections ∉ os)
    (hevents : os.filterMap AppOp.event? =
      (trackerThread tp (withStaleTimeout timeoutMs r) segs).1) :
    (App.new.ops os).Shows (trackerThread tp (withStaleTimeout timeoutMs r) segs).2 ↔
      NoneStale timeoutMs segs := by
  have hcopies := @Copies.run ρ _ tp timeoutMs r segs
  have hconns := App.valid_new.ops_connections hclear
  rw [hevents] at hconns
  have hvalid := App.valid_new.ops os
  rw [noneStale_iff]
  have hright := hcopies.copies_right_iff
  simp only [hcopies.tracks_iff] at hright
  rw [← hright]
  unfold App.Shows
  simp only [hvalid.mem_order, hconns, hcopies.tracks_iff]
  rfl

end Thread

/-- A connection, and another one after the first was idle for more than five minutes. -/
def Reference.staleRun : List (TcpSegment × UInt64) :=
  [(⟨.v4 10 0 0 1, .v4 93 184 216 34, 54321, 443, [22]⟩, 0),
    (⟨.v4 10 0 0 1, .v4 93 184 216 34, 54322, 443, [22]⟩, 300001)]

theorem shows_iff_noneStale_staleRun :
    let thread := trackerThread Reference.parser
      (withStaleTimeout DEFAULT_STALE_TIMEOUT_MS (FixedResolver.mk .unknown)) Reference.staleRun
    (App.new.ops (thread.1.map AppOp.handleUiEvent ++ [.selectNext])).Shows thread.2 ↔
      NoneStale DEFAULT_STALE_TIMEOUT_MS Reference.staleRun :=
  shows_iff_noneStale Reference.parser _ (FixedResolver.mk .unknown) Reference.staleRun _ (by decide)
    (by rfl)

/-- The first connection is evicted and stays on the list. -/
theorem evicted_stays_listed :
    let thread := trackerThread Reference.parser
      (withStaleTimeout DEFAULT_STALE_TIMEOUT_MS (FixedResolver.mk .unknown)) Reference.staleRun
    let app := App.new.ops (thread.1.map AppOp.handleUiEvent)
    ¬ thread.2.Tracks Reference.key ∧ Reference.key ∈ app.order ∧ app.evicted = 1 ∧
      ¬ app.Shows thread.2 := by
  intro thread app
  have hgone : ¬ thread.2.Tracks Reference.key := by decide
  have hlisted : Reference.key ∈ app.order := by decide
  refine ⟨hgone, hlisted, by decide, ?_⟩
  intro hshows
  exact hgone ((hshows Reference.key).1.mp hlisted)

end SeeHandshake

import SeeHandshake.Proofs.ConfluenceProofs
import SeeHandshake.Proofs.EndpointProofs
import SeeHandshake.Proofs.ProgramProofs

/-!
# Proofs: what is shown of a connection

The list on the screen is settled by the frames that were captured and the times at which they were
received, and what is shown of a connection by its own segments alone, as long as none was evicted.
-/

namespace SeeHandshake

open Lib ConnectionTracker

/-! ## The list -/

/-- What the left pane and the status line show. -/
structure App.Shown where
  order : List ConnectionKey
  connections : AList fun _ : ConnectionKey => ConnectionState
  evicted : ℕ

/-- What an event does to what is shown. -/
def App.Shown.handle (shown : App.Shown) : UiEvent → App.Shown
  | .handshakeUpdated state =>
    { shown with
      order := if state.key ∈ shown.connections then shown.order else shown.order ++ [state.key]
      connections := shown.connections.insert state.key state }
  | .staleEvicted removed => { shown with evicted := usizeSaturatingAdd shown.evicted removed }

namespace App

variable {app : App}

/-- What the user interface shows of the connections. -/
def shown (app : App) : Shown := ⟨app.order, app.connections, app.evicted⟩

theorem Listed.shown_handleUiEvent (h : app.Listed) (evt : UiEvent) :
    (app.handleUiEvent evt).shown = app.shown.handle evt := by
  have hconns := h.handleUiEvent_connections evt
  have hevicted := h.handleUiEvent_evicted_eq evt
  have horder : (app.handleUiEvent evt).order = (app.shown.handle evt).order := by
    cases evt with
    | handshakeUpdated state =>
      rw [handleUiEvent_updated]
      split_ifs
      · exact clampIndices_frame.1
      · rfl
    | staleEvicted removed =>
      rw [h.handleUiEvent_evicted]
      split_ifs
      · rfl
      · exact clampIndices_frame.1
  unfold shown at horder ⊢
  rw [hconns, hevicted, horder]
  cases evt <;> rfl

/-- What is shown depends on the events alone, whatever the user does but for wiping. -/
theorem Valid.shown_ops (h : app.Valid) {os : List AppOp} (hclear : .clearConnections ∉ os) :
    (app.ops os).shown = (os.filterMap AppOp.event?).foldl Shown.handle app.shown := by
  induction os generalizing app with
  | nil => rfl
  | cons o os ih =>
    have hne : o ≠ .clearConnections := fun heq => hclear (heq ▸ List.mem_cons_self)
    have hrest := ih (h.op o) fun hmem => hclear (List.mem_cons_of_mem o hmem)
    show ((app.op o).ops os).shown = _
    rw [hrest]
    cases hevent : o.event? with
    | none =>
      have hframe := @op_shown app o hevent
      rw [List.filterMap_cons_none hevent]
      unfold shown
      rw [hframe.1, hframe.2 hne, op_connections hne hevent]
    | some evt =>
      obtain rfl := AppOp.eq_handleUiEvent hevent
      rw [List.filterMap_cons_some hevent, List.foldl_cons]
      show List.foldl Shown.handle (app.handleUiEvent evt).shown _ = _
      rw [h.toListed.shown_handleUiEvent]

end App

/-! ## A tracker that evicts nothing -/

section Thread

variable {ρ : Type} [OriginResolver ρ] {tp : TlsParser}

/-- Where no eviction is told, the tracker only ingests. -/
theorem trackerThread_of_not_evicted {t : ConnectionTracker ρ} {segs : List (TcpSegment × UInt64)}
    (h : ∀ removed, .staleEvicted removed ∉ (trackerThread tp t segs).1) :
    (trackerThread tp t segs).2 = t.calls tp (segs.map fun x => x.1.call x.2) := by
  induction segs generalizing t with
  | nil => rfl
  | cons x segs ih =>
    have hsplit : (trackerThread tp t (x :: segs)).1 =
        (trackerTurn tp t x.1 x.2).1 ++ (trackerThread tp (trackerTurn tp t x.1 x.2).2 segs).1 := rfl
    rw [hsplit] at h
    have hkept := evictStale_zero_of_turn fun removed hmem => h removed (List.mem_append_left _ hmem)
    have hturn : (trackerTurn tp t x.1 x.2).2 = t.call tp (x.1.call x.2) := by
      rw [trackerTurn_snd, evictStale_of_zero hkept]
    have hrest := ih fun removed hmem => h removed (List.mem_append_right _ hmem)
    rw [hturn] at hrest
    show (trackerThread tp (trackerTurn tp t x.1 x.2).2 segs).2 = _
    rw [hturn, hrest]
    rfl

end Thread

namespace Program

variable {ρ : Type} [PanickingResolver ρ]

/-- The segments of the frames that the tracker thread took in in a run, with the times at which it did: the first
ones that were captured. -/
def segments (fromEthernet : FromEthernet) (as : List ThreadAction) : List (TcpSegment × UInt64) :=
  segmentsOf fromEthernet
    ((as.filterMap ThreadAction.captured?).zip (as.filterMap ThreadAction.receivedAt?))

section

variable {args : Args} {fromEthernet : FromEthernet} {tp : TlsParser} {resolver : ρ} {s : Program ρ}
  {as : List ThreadAction}

theorem quiet_shown (hrun : runs (step args fromEthernet tp) (init resolver) as = some s)
    (hfail : ∀ e, s.ui ≠ .failed e) (hquiet : s.Quiet)
    (hclear : .clearConnections ∉ as.filterMap ThreadAction.op?) :
    let thread := trackerThread tp (.withResolver resolver) (segments fromEthernet as)
    s.app.shown = thread.1.foldl App.Shown.handle App.new.shown ∧ s.tracker = thread.2 := by
  obtain ⟨_, _, -, os, happ, hpressed, hthread⟩ := quiet_run hrun (UiThread.phase_le hfail) hquiet
  have hnoclear := not_wiped hpressed hclear
  intro thread
  rw [show thread = _ from hthread, happ]
  exact ⟨App.valid_new.shown_ops hnoclear, rfl⟩

/-- The connections that are shown, where no eviction was told. -/
theorem quiet_lookup (hrun : runs (step args fromEthernet tp) (init resolver) as = some s)
    (hfail : ∀ e, s.ui ≠ .failed e) (hquiet : s.Quiet)
    (hclear : .clearConnections ∉ as.filterMap ThreadAction.op?) (hevicted : s.app.evicted = 0)
    (key : ConnectionKey) :
    s.app.connections.lookup key =
      (((withResolver resolver).calls tp ((segments fromEthernet as).map fun x => x.1.call x.2)).connections.lookup
        key).map TrackedConnection.state := by
  obtain ⟨_, _, -, os, happ, hpressed, hthread⟩ := quiet_run hrun (UiThread.phase_le hfail) hquiet
  have hnoclear := not_wiped hpressed hclear
  have hevents : (trackerThread tp (withResolver resolver) (segments fromEthernet as)).1 =
      os.filterMap AppOp.event? := congrArg Prod.fst hthread
  have hnone := App.not_evicted (hevents.trans (List.append_nil _).symm) (happ ▸ hevicted)
  rw [← hevents] at hnone
  have hcalls := trackerThread_of_not_evicted hnone
  have hcopies := @Copies.run ρ _ tp DEFAULT_STALE_TIMEOUT_MS resolver (segments fromEthernet as)
  rw [show withStaleTimeout DEFAULT_STALE_TIMEOUT_MS resolver = withResolver resolver from rfl, hcalls,
    hevents] at hcopies
  have hshown : s.app.connections = (os.filterMap AppOp.event?).foldl UiEvent.apply ∅ := by
    rw [happ]
    exact App.valid_new.ops_connections hnoclear
  rw [hshown]
  cases hlookup : ((withResolver resolver).calls tp
      ((segments fromEthernet as).map fun x => x.1.call x.2)).connections.lookup key with
  | some conn => exact hcopies.copy key conn hlookup
  | none =>
    rw [Option.map_none, AList.lookup_eq_none, hcopies.mem_iff]
    rintro ⟨x, hx, htouch⟩
    have hfresh : (withResolver resolver).connections.lookup key = none := rfl
    rcases lookup_calls_of_none tp hfresh ((segments fromEthernet as).map fun x => x.1.call x.2) with
      ⟨hempty, -⟩ | ⟨-, now, origin, hsome⟩
    · exact htouch.2 (hempty _ (List.mem_map_of_mem hx) htouch.1)
    · rw [hlookup] at hsome
      cases hsome

/-- A connection is shown in the state of one of its own that has run through its segments, if one of them
brought bytes, and is not shown otherwise. -/
theorem quiet_own (hrun : runs (step args fromEthernet tp) (init resolver) as = some s)
    (hfail : ∀ e, s.ui ≠ .failed e) (hquiet : s.Quiet)
    (hclear : .clearConnections ∉ as.filterMap ThreadAction.op?) (hevicted : s.app.evicted = 0)
    (key : ConnectionKey) :
    let own := (segments fromEthernet as).filter fun x => x.1.key = key
    (s.app.connections.lookup key = none ∧ ∀ x ∈ own, x.1.payload = []) ∨
      (∃ x ∈ own, x.1.payload ≠ []) ∧ ∃ nowMs origin, s.app.connections.lookup key =
        some ((TrackedConnection.created key nowMs origin).run tp (own.map TcpSegment.segment)).state := by
  intro own
  have hlookup := quiet_lookup hrun hfail hquiet hclear hevicted key
  have hfresh : (withResolver resolver).connections.lookup key = none := rfl
  have hown : (((segments fromEthernet as).map fun x => x.1.call x.2).filter
      fun c => decide (c.key = key)).map Call.segment = own.map TcpSegment.segment := by
    rw [List.filter_map, List.map_map]
    rfl
  have hempty : (∀ c ∈ (segments fromEthernet as).map fun x => x.1.call x.2, c.key = key → c.payload = []) ↔
      ∀ x ∈ own, x.1.payload = [] := by
    simp only [own, List.forall_mem_map, List.mem_filter, decide_eq_true_eq, and_imp]
    exact Iff.rfl
  rw [hlookup]
  rcases lookup_calls_of_none tp hfresh ((segments fromEthernet as).map fun x => x.1.call x.2) with
    ⟨hnone, hcalls⟩ | ⟨hsome, nowMs, origin, hcalls⟩
  · rw [hempty] at hnone
    rw [hcalls]
    exact .inl ⟨rfl, hnone⟩
  · rw [hempty] at hsome
    push Not at hsome
    rw [hcalls, hown]
    exact .inr ⟨hsome, nowMs, origin, rfl⟩

end

/-- A frame of the server, in answer to the one of the client. -/
def Reference.answerBytes : Bytes :=
  [2, 0, 0, 0, 0, 2, 2, 0, 0, 0, 0, 1, 8, 0] ++
  [0x45, 0, 0, 41, 0, 0, 0, 0, 64, 6, 0, 0, 93, 184, 216, 34, 10, 0, 0, 1] ++
  [1, 0xBB, 0xD4, 0x31, 0, 0, 0, 1, 0, 0, 0, 1, 0x50, 0x18, 1, 0, 0, 0, 0, 0] ++ [22]

/-- A run in which every frame is shown before the next one is captured. -/
def Reference.talkRun (frames : List (Bytes × UInt64)) : List ThreadAction :=
  [.ui (.spawn (.ok ())), .ui (.spawn (.ok ())), .ui (.setup (.ok ())), .ui (.setup (.ok ())),
    .ui (.setup (.ok ())), .capture (.openSource Reference.pcap)] ++
  frames.flatMap fun x => [.capture .checkShutdown, .capture (.nextFrame (.ok ⟨1700000000, 0, x.1⟩)),
    .capture .send, .tracker (.recv x.2), .tracker .send, .tracker .evict, .ui .tryRecv]

/-- The order of the steps does not show: two runs that captured the same frames and received them at the
same times, with resolvers that answer alike, show the same connections in the same order, and track the same
ones, whatever the threads did in between and whatever the user pressed but for wiping, once nothing is under
way; and a tracker thread has panicked in both or in none. -/
theorem schedule_independent (args args' : Args) (fromEthernet : FromEthernet) (tp : TlsParser) (resolver : ρ)
    (as as' : List ThreadAction) (s s' : Program ρ)
    (hrun : runs (step args fromEthernet tp) (init resolver) as = some s)
    (hrun' : runs (step args' fromEthernet tp) (init resolver) as' = some s')
    (hfail : ∀ e, s.ui ≠ .failed e) (hfail' : ∀ e, s'.ui ≠ .failed e)
    (hquiet : s.Quiet) (hquiet' : s'.Quiet)
    (hclear : .clearConnections ∉ as.filterMap ThreadAction.op?)
    (hclear' : .clearConnections ∉ as'.filterMap ThreadAction.op?)
    (hcaptured : as.filterMap ThreadAction.captured? = as'.filterMap ThreadAction.captured?)
    (htimes : as.filterMap ThreadAction.receivedAt? = as'.filterMap ThreadAction.receivedAt?) :
    s.app.shown = s'.app.shown ∧ s.tracker = s'.tracker ∧ (s.tracking = .panicked ↔ s'.tracking = .panicked) := by
  obtain ⟨hshown, htracker⟩ := quiet_shown hrun hfail hquiet hclear
  obtain ⟨hshown', htracker'⟩ := quiet_shown hrun' hfail' hquiet' hclear'
  obtain ⟨_, _, hprocessed, -⟩ := quiet_run hrun (UiThread.phase_le hfail) hquiet
  obtain ⟨_, _, hprocessed', -⟩ := quiet_run hrun' (UiThread.phase_le hfail') hquiet'
  have hsegments : segments fromEthernet as = segments fromEthernet as' := by
    unfold segments
    rw [hcaptured, htimes]
  rw [hshown, htracker, hsegments, hshown', htracker', hprocessed.panicked_iff, hprocessed'.panicked_iff, hcaptured,
    htimes]
  exact ⟨rfl, rfl, Iff.rfl⟩

theorem schedule_independent_talk : ∃ s s', Reference.program (Reference.startRun.take 15) = some s ∧
    Reference.program (Reference.talkRun [(Reference.frameBytes, 1700000000000)]) = some s' ∧
    s.app.shown = s'.app.shown ∧ s.tracker = s'.tracker ∧ (s.tracking = .panicked ↔ s'.tracking = .panicked) := by
  have hstate : (Reference.program (Reference.startRun.take 15)).map
      (fun s => (s.ui, s.capture, s.frames, s.tracking, s.events)) =
        some (.drawing, .polling, [], .receiving, []) := by rfl
  have hstate' : (Reference.program (Reference.talkRun [(Reference.frameBytes, 1700000000000)])).map
      (fun s => (s.ui, s.capture, s.frames, s.tracking, s.events)) =
        some (.draining, .looping, [], .receiving, []) := by rfl
  obtain ⟨s, hs, hquiet⟩ := Option.map_eq_some_iff.mp hstate
  obtain ⟨s', hs', hquiet'⟩ := Option.map_eq_some_iff.mp hstate'
  simp only [Prod.mk.injEq] at hquiet hquiet'
  obtain ⟨hui, hcapture, hframes, htracking, hevents⟩ := hquiet
  obtain ⟨hui', hcapture', hframes', htracking', hevents'⟩ := hquiet'
  exact ⟨s, s', hs, hs', schedule_independent {} {} Reference.fromEthernet Reference.parser _ _ _ s s' hs hs'
    (by simp [hui]) (by simp [hui']) ⟨⟨by simp [hcapture], hframes, .inl htracking⟩, hevents⟩
    ⟨⟨by simp [hcapture'], hframes', .inl htracking'⟩, hevents'⟩ (by decide) (by decide) (by rfl) (by rfl)⟩

/-- What is shown of a connection comes of its own segments alone, of those that were taken in: once nothing is
under way, and as long as no eviction was told, a key is shown iff a segment of it brought bytes, in the state
of a connection of its own that has run through its segments, in the order in which they were captured. -/
theorem shown_is_own_run (args : Args) (fromEthernet : FromEthernet) (tp : TlsParser) (resolver : ρ)
    (as : List ThreadAction) (s : Program ρ)
    (hrun : runs (step args fromEthernet tp) (init resolver) as = some s) (hfail : ∀ e, s.ui ≠ .failed e)
    (hquiet : s.Quiet) (hclear : .clearConnections ∉ as.filterMap ThreadAction.op?)
    (hevicted : s.app.evicted = 0) (key : ConnectionKey) :
    let own := (segments fromEthernet as).filter fun x => x.1.key = key
    (key ∈ s.app.order ↔ ∃ x ∈ own, x.1.payload ≠ []) ∧
      ((∃ x ∈ own, x.1.payload ≠ []) → ∃ nowMs origin, s.app.connections.lookup key =
        some ((TrackedConnection.created key nowMs origin).run tp (own.map TcpSegment.segment)).state) := by
  intro own
  obtain ⟨_, _, -, os, happ, -, -⟩ := caughtUp_run hrun (UiThread.phase_le hfail) hquiet.toCaughtUp
  have hlisted : key ∈ s.app.order ↔ (s.app.connections.lookup key).isSome := by
    rw [happ, (App.valid_new.ops os).mem_order, AList.lookup_isSome]
  rw [hlisted]
  rcases quiet_own hrun hfail hquiet hclear hevicted key with ⟨hnone, hempty⟩ | ⟨hsome, nowMs, origin, hlookup⟩
  · have hall : ¬ ∃ x ∈ own, x.1.payload ≠ [] := by
      rintro ⟨x, hx, hne⟩
      exact hne (hempty x hx)
    rw [hnone]
    exact ⟨iff_of_false Bool.false_ne_true hall, fun h => absurd h hall⟩
  · rw [hlookup]
    exact ⟨iff_of_true rfl hsome, fun _ => ⟨nowMs, origin, rfl⟩⟩

theorem shown_is_own_run_talk : ∃ s,
    Reference.program (Reference.talkRun [(Reference.frameBytes, 7), (Reference.answerBytes, 9)]) = some s ∧
    let own := (segments Reference.fromEthernet
      (Reference.talkRun [(Reference.frameBytes, 7), (Reference.answerBytes, 9)])).filter
        fun x => x.1.key = Reference.key
    (Reference.key ∈ s.app.order ↔ ∃ x ∈ own, x.1.payload ≠ []) ∧
      ((∃ x ∈ own, x.1.payload ≠ []) → ∃ nowMs origin, s.app.connections.lookup Reference.key =
        some ((TrackedConnection.created Reference.key nowMs origin).run Reference.parser
          (own.map TcpSegment.segment)).state) := by
  have hstate : (Reference.program
      (Reference.talkRun [(Reference.frameBytes, 7), (Reference.answerBytes, 9)])).map
        (fun s => (s.ui, s.capture, s.frames, s.tracking, s.events, s.app.evicted)) =
          some (.draining, .looping, [], .receiving, [], 0) := by rfl
  obtain ⟨s, hs, hquiet⟩ := Option.map_eq_some_iff.mp hstate
  simp only [Prod.mk.injEq] at hquiet
  obtain ⟨hui, hcapture, hframes, htracking, hevents, hevicted⟩ := hquiet
  exact ⟨s, hs, shown_is_own_run {} Reference.fromEthernet Reference.parser _ _ s hs (by simp [hui])
    ⟨⟨by simp [hcapture], hframes, .inl htracking⟩, hevents⟩ (by decide) hevicted Reference.key⟩

/-- What was negotiated is shown alike however the two sides of a connection interleave in the capture:
two runs in which the same payloads of each side of it were taken in in the same order show the same offers
and the same choices, whatever else was captured, at whatever times, and whatever was pressed. -/
theorem shown_confluent (args args' : Args) (fromEthernet fromEthernet' : FromEthernet) (tp : TlsParser)
    (resolver resolver' : ρ) (as as' : List ThreadAction) (s s' : Program ρ)
    (hrun : runs (step args fromEthernet tp) (init resolver) as = some s)
    (hrun' : runs (step args' fromEthernet' tp) (init resolver') as' = some s')
    (hfail : ∀ e, s.ui ≠ .failed e) (hfail' : ∀ e, s'.ui ≠ .failed e)
    (hquiet : s.Quiet) (hquiet' : s'.Quiet)
    (hclear : .clearConnections ∉ as.filterMap ThreadAction.op?)
    (hclear' : .clearConnections ∉ as'.filterMap ThreadAction.op?)
    (hevicted : s.app.evicted = 0) (hevicted' : s'.app.evicted = 0) (key : ConnectionKey)
    (hpayloads : ∀ d, Call.payloads key d ((segments fromEthernet as).map fun x => x.1.call x.2) =
      Call.payloads key d ((segments fromEthernet' as').map fun x => x.1.call x.2)) :
    (s.app.connections.lookup key).map (fun state => state.handshake.negotiated) =
      (s'.app.connections.lookup key).map (fun state => state.handshake.negotiated) := by
  rw [quiet_lookup hrun hfail hquiet hclear hevicted, quiet_lookup hrun' hfail' hquiet' hclear' hevicted']
  have hsegs := hpayloads
  simp only [Call.payloads_eq] at hsegs
  have hempty : (∀ c ∈ (segments fromEthernet as).map fun x => x.1.call x.2, c.key = key → c.payload = []) ↔
      ∀ c ∈ (segments fromEthernet' as').map fun x => x.1.call x.2, c.key = key → c.payload = [] := by
    rw [payload_nil_iff, payload_nil_iff]
    simp only [hpayloads]
  have hfresh : (withResolver resolver).connections.lookup key = none := rfl
  have hfresh' : (withResolver resolver').connections.lookup key = none := rfl
  rcases lookup_calls_of_none tp hfresh ((segments fromEthernet as).map fun x => x.1.call x.2) with
    ⟨hall, hlook⟩ | ⟨hsome, now, origin, hlook⟩
  · rcases lookup_calls_of_none tp hfresh' ((segments fromEthernet' as').map fun x => x.1.call x.2) with
      ⟨-, hlook'⟩ | ⟨hsome', -⟩
    · rw [hlook, hlook']
    · exact absurd (hempty.mp hall) hsome'
  · rcases lookup_calls_of_none tp hfresh' ((segments fromEthernet' as').map fun x => x.1.call x.2) with
      ⟨hall', -⟩ | ⟨-, now', origin', hlook'⟩
    · exact absurd (hempty.mpr hall') hsome
    · rw [hlook, hlook']
      exact congrArg some (TrackedConnection.negotiated_run
        (TrackedConnection.sideBySide_created key now origin)
        (TrackedConnection.sideBySide_created key now' origin') hsegs)

theorem shown_confluent_talk : ∃ s s',
    Reference.program (Reference.talkRun [(Reference.frameBytes, 7), (Reference.answerBytes, 9)]) = some s ∧
    Reference.program (Reference.talkRun [(Reference.answerBytes, 5), (Reference.frameBytes, 5)]) = some s' ∧
    (s.app.connections.lookup Reference.key).map (fun state => state.handshake.negotiated) =
      (s'.app.connections.lookup Reference.key).map (fun state => state.handshake.negotiated) := by
  have hstate : (Reference.program
      (Reference.talkRun [(Reference.frameBytes, 7), (Reference.answerBytes, 9)])).map
        (fun s => (s.ui, s.capture, s.frames, s.tracking, s.events, s.app.evicted)) =
          some (.draining, .looping, [], .receiving, [], 0) := by rfl
  have hstate' : (Reference.program
      (Reference.talkRun [(Reference.answerBytes, 5), (Reference.frameBytes, 5)])).map
        (fun s => (s.ui, s.capture, s.frames, s.tracking, s.events, s.app.evicted)) =
          some (.draining, .looping, [], .receiving, [], 0) := by rfl
  obtain ⟨s, hs, hquiet⟩ := Option.map_eq_some_iff.mp hstate
  obtain ⟨s', hs', hquiet'⟩ := Option.map_eq_some_iff.mp hstate'
  simp only [Prod.mk.injEq] at hquiet hquiet'
  obtain ⟨hui, hcapture, hframes, htracking, hevents, hevicted⟩ := hquiet
  obtain ⟨hui', hcapture', hframes', htracking', hevents', hevicted'⟩ := hquiet'
  exact ⟨s, s', hs, hs', shown_confluent {} {} Reference.fromEthernet Reference.fromEthernet Reference.parser
    _ _ _ _ s s' hs hs' (by simp [hui]) (by simp [hui'])
    ⟨⟨by simp [hcapture], hframes, .inl htracking⟩, hevents⟩
    ⟨⟨by simp [hcapture'], hframes', .inl htracking'⟩, hevents'⟩ (by decide) (by decide) hevicted hevicted'
    Reference.key fun d => by cases d <;> decide⟩

/-! ## After a wipe -/

end Program

/-- A wipe forgets copies, and leaves no outdated one. -/
theorem App.Valid.copies_ops {app : App} (h : app.Valid) {m : AList fun _ : ConnectionKey => ConnectionState}
    (hsub : ∀ key state, app.connections.lookup key = some state → m.lookup key = some state) (os : List AppOp)
    {key : ConnectionKey} {state : ConnectionState} (hlookup : (app.ops os).connections.lookup key = some state) :
    ((os.filterMap AppOp.event?).foldl UiEvent.apply m).lookup key = some state := by
  induction os generalizing app m with
  | nil => exact hsub key state hlookup
  | cons o os ih =>
    cases hevent : o.event? with
    | none =>
      rw [List.filterMap_cons_none hevent]
      refine ih (h.op o) (fun key state hstate => ?_) hlookup
      by_cases hclear : o = .clearConnections
      · subst hclear
        cases hstate
      · rw [App.op_connections hclear hevent] at hstate
        exact hsub key state hstate
    | some evt =>
      obtain rfl := AppOp.eq_handleUiEvent hevent
      rw [List.filterMap_cons_some hevent, List.foldl_cons]
      refine ih (h.op _) (fun key state hstate => ?_) hlookup
      have hconns : (app.op (.handleUiEvent evt)).connections = evt.apply app.connections :=
        h.toListed.handleUiEvent_connections evt
      rw [hconns] at hstate
      cases evt with
      | staleEvicted removed => exact hsub key state hstate
      | handshakeUpdated updated =>
        by_cases hkey : key = updated.key
        · subst hkey
          rw [UiEvent.apply, AList.lookup_insert] at hstate ⊢
          exact hstate
        · rw [UiEvent.apply, AList.lookup_insert_ne hkey] at hstate ⊢
          exact hsub key state hstate

namespace Program

variable {ρ : Type} [PanickingResolver ρ]

/-- What is listed is up to date: in every run, with wipes and evictions, once nothing is under way, a connection
that is listed and tracked is shown in its current state, every tracked connection is listed unless the list was
wiped, and every listed one is tracked unless an eviction was told. -/
theorem listed_is_current (args : Args) (fromEthernet : FromEthernet) (tp : TlsParser) (resolver : ρ)
    (as : List ThreadAction) (s : Program ρ)
    (hrun : runs (step args fromEthernet tp) (init resolver) as = some s) (hfail : ∀ e, s.ui ≠ .failed e)
    (hquiet : s.Quiet) :
    (∀ key state conn, s.app.connections.lookup key = some state → s.tracker.connections.lookup key = some conn →
        state = conn.state) ∧
      (.clearConnections ∉ as.filterMap ThreadAction.op? → ∀ key, s.tracker.Tracks key → key ∈ s.app.order) ∧
      (s.app.evicted = 0 → ∀ key ∈ s.app.order, s.tracker.Tracks key) := by
  obtain ⟨_, _, -, os, happ, hpressed, hthread⟩ := quiet_run hrun (UiThread.phase_le hfail) hquiet
  generalize segmentsOf fromEthernet _ = segs at hthread
  have hcopies := @Copies.run ρ _ tp DEFAULT_STALE_TIMEOUT_MS resolver segs
  rw [show trackerThread tp (withStaleTimeout DEFAULT_STALE_TIMEOUT_MS resolver) segs = _ from hthread]
    at hcopies
  have hvalid := App.valid_new.ops os
  have hlisted : ∀ key state, s.app.connections.lookup key = some state →
      ((os.filterMap AppOp.event?).foldl UiEvent.apply ∅).lookup key = some state := by
    intro key state hlookup
    rw [happ] at hlookup
    exact App.valid_new.copies_ops (fun key state hnone => by cases hnone) os hlookup
  refine ⟨?_, ?_, ?_⟩
  · intro key state conn hlookup htracked
    have hcopy := hcopies.copy key conn htracked
    rw [hlisted key state hlookup] at hcopy
    exact Option.some.inj hcopy
  · intro hclear key htracks
    have hnoclear := not_wiped hpressed hclear
    obtain ⟨conn, hconn⟩ := Option.isSome_iff_exists.mp htracks
    rw [happ, hvalid.mem_order, App.valid_new.ops_connections hnoclear, ← AList.lookup_isSome]
    exact Option.isSome_iff_exists.mpr ⟨_, hcopies.copy key conn hconn⟩
  · intro hevicted key hmem
    have hevents : (trackerThread tp (withResolver resolver) segs).1 = os.filterMap AppOp.event? :=
      congrArg Prod.fst hthread
    have hnone := App.not_evicted (hevents.trans (List.append_nil _).symm) (happ ▸ hevicted)
    rw [← hevents] at hnone
    have hcalls := trackerThread_of_not_evicted hnone
    rw [happ, hvalid.mem_order, ← happ, ← AList.lookup_isSome] at hmem
    obtain ⟨state, hstate⟩ := Option.isSome_iff_exists.mp hmem
    have hseen : key ∈ (os.filterMap AppOp.event?).foldl UiEvent.apply ∅ :=
      AList.lookup_isSome.mp (Option.isSome_iff_exists.mpr ⟨state, hlisted key state hstate⟩)
    obtain ⟨x, hx, htouch⟩ := (hcopies.mem_iff key).mp hseen
    have htracker : s.tracker = (withResolver resolver).calls tp (segs.map fun x => x.1.call x.2) := by
      rw [← hcalls, hthread]
    have hfresh : (withResolver resolver).connections.lookup key = none := rfl
    rcases lookup_calls_of_none tp hfresh (segs.map fun x => x.1.call x.2) with ⟨hempty, -⟩ | ⟨-, now, origin, hsome⟩
    · exact absurd (hempty _ (List.mem_map_of_mem hx) htouch.1) htouch.2
    · unfold ConnectionTracker.Tracks
      rw [htracker, hsome]
      rfl

/-- The list is wiped between two frames of a connection. -/
def Reference.wipeRun : List ThreadAction :=
  Reference.talkRun [(Reference.frameBytes, 7)] ++
  [.ui .tryRecv, .ui (.draw (.ok ())), .ui (.poll (.ok true)), .ui (.read (.ok (.key (.char 'w') .press))),
    .ui .tick] ++
  (Reference.talkRun [(Reference.answerBytes, 9)]).drop 6

theorem listed_is_current_wiped : ∃ s, Reference.program Reference.wipeRun = some s ∧
    (∀ key state conn, s.app.connections.lookup key = some state → s.tracker.connections.lookup key = some conn →
        state = conn.state) ∧
      (.clearConnections ∉ Reference.wipeRun.filterMap ThreadAction.op? →
        ∀ key, s.tracker.Tracks key → key ∈ s.app.order) ∧
      (s.app.evicted = 0 → ∀ key ∈ s.app.order, s.tracker.Tracks key) := by
  have hstate : (Reference.program Reference.wipeRun).map
      (fun s => (s.ui, s.capture, s.frames, s.tracking, s.events)) =
        some (.draining, .looping, [], .receiving, []) := by rfl
  obtain ⟨s, hs, hquiet⟩ := Option.map_eq_some_iff.mp hstate
  simp only [Prod.mk.injEq] at hquiet
  obtain ⟨hui, hcapture, hframes, htracking, hevents⟩ := hquiet
  exact ⟨s, hs, listed_is_current {} Reference.fromEthernet Reference.parser _ _ s hs (by simp [hui])
    ⟨⟨by simp [hcapture], hframes, .inl htracking⟩, hevents⟩⟩

end Program

end SeeHandshake

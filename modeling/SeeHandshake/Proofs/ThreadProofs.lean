import SeeHandshake.Proofs.CursorProofs
import SeeHandshake.Ui.Threads

/-!
# Proofs: the threads of the program

The steps of each thread are read as a relation with a case for each transition. From it come the
invariants: which threads are there in which phase of `run_live`, and that nothing gets lost or
reordered between the threads, whatever the order of their steps.
-/

namespace SeeHandshake

open Lib

namespace Program

variable {ρ : Type}

/-! ## Transitions -/

/-- What a step of the capture thread can do. -/
inductive CaptureMove (s : Program ρ) : CaptureAction → Program ρ → Prop where
  | opened (pcap : Pcap) (h : s.capture = .opening) :
    CaptureMove s (.openSource pcap) { s with capture := .looping }
  | notOpened (pcap : Pcap) (h : s.capture = .opening) :
    CaptureMove s (.openSource pcap) { s with capture := .ended }
  | checked (h : s.capture = .looping) (hrun : s.shutdown = false) :
    CaptureMove s .checkShutdown { s with capture := .polling }
  | stopped (h : s.capture = .looping) (hshut : s.shutdown = true) :
    CaptureMove s .checkShutdown { s with capture := .ended }
  | captured (result : Except PcapError PcapPacket) (frame : Frame) (h : s.capture = .polling)
      (hresult : LivePcapSource.nextFrame result = .ok (some frame)) :
    CaptureMove s (.nextFrame result) { s with capture := .sending frame }
  | idle (result : Except PcapError PcapPacket) (h : s.capture = .polling)
      (hresult : LivePcapSource.nextFrame result = .ok none) :
    CaptureMove s (.nextFrame result) { s with capture := .looping }
  | broken (result : Except PcapError PcapPacket) (e : Error) (h : s.capture = .polling)
      (hresult : LivePcapSource.nextFrame result = .error e) :
    CaptureMove s (.nextFrame result) { s with capture := .ended }
  | sent (frame : Frame) (h : s.capture = .sending frame)
      (hopen : s.tracking ≠ .ended ∧ s.tracking ≠ .panicked) :
    CaptureMove s .send { s with frames := s.frames ++ [frame], capture := .looping }
  | refused (frame : Frame) (h : s.capture = .sending frame)
      (hclosed : s.tracking = .ended ∨ s.tracking = .panicked) :
    CaptureMove s .send { s with capture := .ended }

/-- What a step of the tracker thread can do. -/
inductive TrackerMove [PanickingResolver ρ] (fromEthernet : FromEthernet) (tp : TlsParser) (s : Program ρ) :
    TrackerAction → Program ρ → Prop where
  | received (frame : Frame) (frames : List Frame) (nowMs : UInt64) (h : s.tracking = .receiving)
      (hframes : s.frames = frame :: frames) (hreturns : s.panicsOn fromEthernet frame = false) :
    TrackerMove fromEthernet tp s (.recv nowMs) ({ s with frames }.ingestFrame fromEthernet tp frame nowMs)
  | panicked (frame : Frame) (frames : List Frame) (h : s.tracking = .receiving)
      (hframes : s.frames = frame :: frames) (hpanics : s.panicsOn fromEthernet frame = true) :
    TrackerMove fromEthernet tp s .panic { s with frames := [], tracking := .panicked }
  | hungUp (h : s.tracking = .receiving) (hframes : s.frames = []) (hend : s.capture = .ended) :
    TrackerMove fromEthernet tp s .hangUp { s with tracking := .ended }
  | updated (state : ConnectionState) (nowMs : UInt64) (h : s.tracking = .updating state nowMs)
      (hopen : s.ui.result? = none) :
    TrackerMove fromEthernet tp s .send { s with
      events := s.events ++ [.handshakeUpdated state], tracking := .evicting nowMs }
  | refused (state : ConnectionState) (nowMs : UInt64) (h : s.tracking = .updating state nowMs)
      (hclosed : s.ui.result?.isSome) :
    TrackerMove fromEthernet tp s .send { s with tracking := .ended }
  | evicted (nowMs : UInt64) (h : s.tracking = .evicting nowMs) (removed : ℕ)
      (tracker : ConnectionTracker ρ) (hevict : s.tracker.evictStale nowMs = (removed, tracker)) :
    TrackerMove fromEthernet tp s .evict { s with
      tracker, tracking := if removed > 0 then .reporting removed else .receiving }
  | reported (removed : ℕ) (h : s.tracking = .reporting removed) (hopen : s.ui.result? = none) :
    TrackerMove fromEthernet tp s .send { s with
      events := s.events ++ [.staleEvicted removed], tracking := .receiving }
  | unheard (removed : ℕ) (h : s.tracking = .reporting removed) (hclosed : s.ui.result?.isSome) :
    TrackerMove fromEthernet tp s .send { s with tracking := .receiving }

/-- The steps of the terminal setup. -/
def SetupNext (ui next : UiThread) : Prop :=
  (ui = .enablingRawMode ∧ next = .enteringAlternateScreen) ∨
  (ui = .enteringAlternateScreen ∧ next = .creatingTerminal) ∨ (ui = .creatingTerminal ∧ next = .draining)

/-- The calls of the event loop that can fail. -/
def LoopFails (ui : UiThread) (e : String) (a : UiAction) : Prop :=
  (ui = .drawing ∧ a = .draw (.error e)) ∨ (ui = .polling ∧ a = .poll (.error e)) ∨
    (ui = .reading ∧ a = .read (.error e))

/-- What a step of the user interface can do. -/
inductive UiMove (s : Program ρ) : UiAction → Program ρ → Prop where
  | spawnedCapture (h : s.ui = .spawningCapture) :
    UiMove s (.spawn (.ok ())) { s with capture := .opening, ui := .spawningTracker }
  | noCapture (e msg : String) (h : s.ui = .spawningCapture) :
    UiMove s (.spawn (.error e)) { s with capture := .ended, ui := .failed (.ui msg) }
  | spawnedTracker (h : s.ui = .spawningTracker) :
    UiMove s (.spawn (.ok ())) { s with tracking := .receiving, ui := .enablingRawMode }
  | noTracker (e msg : String) (h : s.ui = .spawningTracker) :
    UiMove s (.spawn (.error e)) { s with tracking := .ended, ui := .failed (.ui msg) }
  | setUp (next : UiThread) (h : SetupNext s.ui next) : UiMove s (.setup (.ok ())) { s with ui := next }
  | noTerminal (e : String) (next : UiThread) (h : SetupNext s.ui next) :
    UiMove s (.setup (.error e)) { s with ui := .failed (.ui e) }
  | handled (evt : UiEvent) (events : List UiEvent) (h : s.ui = .draining)
      (hevents : s.events = evt :: events) :
    UiMove s .tryRecv { s with events, app := s.app.handleUiEvent evt }
  | drained (h : s.ui = .draining) (hevents : s.events = []) : UiMove s .tryRecv { s with ui := .drawing }
  | drawn (h : s.ui = .drawing) : UiMove s (.draw (.ok ())) { s with ui := .polling }
  | polled (ready : Bool) (h : s.ui = .polling) :
    UiMove s (.poll (.ok ready)) { s with ui := if ready then .reading else .ticking }
  | broken (e : String) (a : UiAction) (h : LoopFails s.ui e a) :
    UiMove s a { s with ui := .leaving (.error (.ui e)) }
  | repeated (code : KeyCode) (kind : KeyEventKind) (h : s.ui = .reading) (hkind : kind ≠ .press) :
    UiMove s (.read (.ok (.key code kind))) { s with ui := .draining }
  | quit (h : s.ui = .reading) :
    UiMove s (.read (.ok (.key (.char 'q') .press))) { s with ui := .leaving (.ok ()) }
  | pressed (code : KeyCode) (o : AppOp) (h : s.ui = .reading) (hop : code.op? = some o) :
    UiMove s (.read (.ok (.key code .press))) { s with app := s.app.op o, ui := .ticking }
  | ignored (code : KeyCode) (h : s.ui = .reading) (hquit : code ≠ .char 'q') (hop : code.op? = none) :
    UiMove s (.read (.ok (.key code .press))) { s with ui := .ticking }
  | other (h : s.ui = .reading) : UiMove s (.read (.ok .other)) { s with ui := .ticking }
  | ticked (h : s.ui = .ticking) : UiMove s .tick { s with app := s.app.tick, ui := .draining }
  | left (outcome : Except Error Unit) (h : s.ui = .leaving outcome) :
    UiMove s .teardown { s with shutdown := true, ui := .joiningCapture outcome }
  | joinedCapture (outcome : Except Error Unit) (h : s.ui = .joiningCapture outcome)
      (hend : s.capture = .ended) :
    UiMove s .join { s with ui := .joiningTracker outcome }
  | joinedTracker (outcome : Except Error Unit) (h : s.ui = .joiningTracker outcome)
      (hend : s.tracking = .ended ∨ s.tracking = .panicked) :
    UiMove s .join { s with ui := .returned (loopResult outcome) }

theorem captureStep_cases {args : Args} {s s' : Program ρ} {a : CaptureAction}
    (h : s.captureStep args a = some s') : CaptureMove s a s' := by
  unfold captureStep at h
  split at h
  case h_1 pcap hopening =>
    simp only at h
    split at h
    · obtain rfl := Option.some.inj h
      exact .opened pcap hopening
    · obtain rfl := Option.some.inj h
      exact .notOpened pcap hopening
  case h_2 hlooping =>
    obtain rfl := Option.some.inj h
    by_cases hshut : s.shutdown = true
    · rw [if_pos hshut]
      exact .stopped hlooping hshut
    · rw [if_neg hshut]
      exact .checked hlooping (Bool.eq_false_iff.mpr hshut)
  case h_3 result hpolling =>
    split at h
    case h_1 frame hresult =>
      obtain rfl := Option.some.inj h
      exact .captured result frame hpolling hresult
    case h_2 hresult =>
      obtain rfl := Option.some.inj h
      exact .idle result hpolling hresult
    case h_3 e hresult =>
      obtain rfl := Option.some.inj h
      exact .broken result e hpolling hresult
  case h_4 frame hsending =>
    split_ifs at h with hclosed
    · obtain rfl := Option.some.inj h
      exact .refused frame hsending hclosed
    · obtain rfl := Option.some.inj h
      exact .sent frame hsending (not_or.mp hclosed)
  case h_5 => cases h

theorem trackerStep_cases [PanickingResolver ρ] {fromEthernet : FromEthernet} {tp : TlsParser}
    {s s' : Program ρ} {a : TrackerAction} (h : s.trackerStep fromEthernet tp a = some s') :
    TrackerMove fromEthernet tp s a s' := by
  have hui : ¬ s.ui.result?.isSome → s.ui.result? = none := Option.not_isSome_iff_eq_none.mp
  unfold trackerStep at h
  cases htracking : s.tracking with
  | unspawned => cases a <;> simp only [htracking] at h <;> cases h
  | ended | panicked => cases a <;> simp only [htracking] at h <;> cases h
  | receiving =>
    cases a with
    | recv nowMs =>
      simp only [htracking] at h
      cases hframes : s.frames with
      | nil =>
        simp only [hframes] at h
        cases h
      | cons frame frames =>
        simp only [hframes] at h
        split_ifs at h with hpanics
        obtain rfl := Option.some.inj h
        rw [← htracking]
        exact .received frame frames nowMs htracking hframes (Bool.eq_false_iff.mpr hpanics)
    | panic =>
      simp only [htracking] at h
      cases hframes : s.frames with
      | nil =>
        simp only [hframes] at h
        cases h
      | cons frame frames =>
        simp only [hframes] at h
        split_ifs at h with hpanics
        obtain rfl := Option.some.inj h
        exact .panicked frame frames htracking hframes hpanics
    | hangUp =>
      simp only [htracking] at h
      split_ifs at h with hend
      obtain rfl := Option.some.inj h
      exact .hungUp htracking hend.1 hend.2
    | evict | send =>
      simp only [htracking] at h
      cases h
  | updating state nowMs =>
    cases a with
    | send =>
      simp only [htracking] at h
      split_ifs at h with hclosed
      · obtain rfl := Option.some.inj h
        exact .refused state nowMs htracking hclosed
      · obtain rfl := Option.some.inj h
        exact .updated state nowMs htracking (hui hclosed)
    | recv | panic | hangUp | evict =>
      simp only [htracking] at h
      cases h
  | evicting nowMs =>
    cases a with
    | evict =>
      simp only [htracking] at h
      obtain rfl := Option.some.inj h
      exact .evicted nowMs htracking _ _ rfl
    | recv | panic | hangUp | send =>
      simp only [htracking] at h
      cases h
  | reporting removed =>
    cases a with
    | send =>
      simp only [htracking] at h
      split_ifs at h with hclosed
      · obtain rfl := Option.some.inj h
        exact .unheard removed htracking hclosed
      · obtain rfl := Option.some.inj h
        exact .reported removed htracking (hui hclosed)
    | recv | panic | hangUp | evict =>
      simp only [htracking] at h
      cases h

theorem handleCtEvent_cases {s : Program ρ} (event : CtEvent) (h : s.ui = .reading) :
    UiMove s (.read (.ok event)) (s.handleCtEvent event) := by
  unfold handleCtEvent
  cases event with
  | other => exact .other h
  | key code kind =>
    by_cases hkind : kind = .press
    · subst hkind
      simp only [ne_eq, not_true_eq_false, if_false]
      by_cases hquit : code = .char 'q'
      · subst hquit
        exact .quit h
      · rw [if_neg hquit]
        cases hop : code.op? with
        | some o => exact .pressed code o h hop
        | none => exact .ignored code h hquit hop
    · simp only [ne_eq, hkind, not_false_eq_true, if_true]
      exact .repeated code kind h hkind

theorem uiStep_cases {s s' : Program ρ} {a : UiAction} (h : s.uiStep a = some s') : UiMove s a s' := by
  unfold uiStep at h
  split at h
  case h_1 result hui =>
    split at h
    · obtain rfl := Option.some.inj h
      exact .spawnedCapture hui
    · obtain rfl := Option.some.inj h
      exact .noCapture _ _ hui
  case h_2 result hui =>
    split at h
    · obtain rfl := Option.some.inj h
      exact .spawnedTracker hui
    · obtain rfl := Option.some.inj h
      exact .noTracker _ _ hui
  case h_3 result hui =>
    have hnext : SetupNext s.ui .enteringAlternateScreen := .inl ⟨hui, rfl⟩
    split at h
    · obtain rfl := Option.some.inj h
      exact .setUp _ hnext
    · obtain rfl := Option.some.inj h
      exact .noTerminal _ _ hnext
  case h_4 result hui =>
    have hnext : SetupNext s.ui .creatingTerminal := .inr (.inl ⟨hui, rfl⟩)
    split at h
    · obtain rfl := Option.some.inj h
      exact .setUp _ hnext
    · obtain rfl := Option.some.inj h
      exact .noTerminal _ _ hnext
  case h_5 result hui =>
    have hnext : SetupNext s.ui .draining := .inr (.inr ⟨hui, rfl⟩)
    split at h
    · obtain rfl := Option.some.inj h
      exact .setUp _ hnext
    · obtain rfl := Option.some.inj h
      exact .noTerminal _ _ hnext
  case h_6 hui =>
    split at h
    case h_1 evt events hevents =>
      obtain rfl := Option.some.inj h
      exact .handled evt events hui hevents
    case h_2 hevents =>
      obtain rfl := Option.some.inj h
      exact .drained hui hevents
  case h_7 result hui =>
    split at h
    · obtain rfl := Option.some.inj h
      exact .drawn hui
    · obtain rfl := Option.some.inj h
      exact .broken _ _ (.inl ⟨hui, rfl⟩)
  case h_8 result hui =>
    split at h
    · obtain rfl := Option.some.inj h
      exact .polled true hui
    · obtain rfl := Option.some.inj h
      exact .polled false hui
    · obtain rfl := Option.some.inj h
      exact .broken _ _ (.inr (.inl ⟨hui, rfl⟩))
  case h_9 result hui =>
    split at h
    · obtain rfl := Option.some.inj h
      exact handleCtEvent_cases _ hui
    · obtain rfl := Option.some.inj h
      exact .broken _ _ (.inr (.inr ⟨hui, rfl⟩))
  case h_10 hui =>
    obtain rfl := Option.some.inj h
    exact .ticked hui
  case h_11 outcome hui =>
    obtain rfl := Option.some.inj h
    exact .left outcome hui
  case h_12 outcome hui =>
    split_ifs at h with hend
    obtain rfl := Option.some.inj h
    exact .joinedCapture outcome hui hend
  case h_13 outcome hui =>
    split_ifs at h with hend
    obtain rfl := Option.some.inj h
    exact .joinedTracker outcome hui hend
  case h_14 => cases h

/-! ## Phases -/

end Program

/-- How far `run_live` is; a return with an error before the event loop is apart. -/
def UiThread.phase : UiThread → ℕ
  | .spawningCapture => 0
  | .spawningTracker => 1
  | .joiningCapture _ => 3
  | .joiningTracker _ => 4
  | .returned _ => 5
  | .failed _ => 6
  | _ => 2

theorem UiThread.result?_isSome (ui : UiThread) : ui.result?.isSome ↔ 5 ≤ ui.phase := by
  cases ui <;> simp [UiThread.result?, UiThread.phase]

namespace Program

variable {ρ : Type} {args : Args} {fromEthernet : FromEthernet} {tp : TlsParser} {s s' : Program ρ}

/-- Which threads there are in which phase. -/
structure Consistent (s : Program ρ) : Prop where
  capture_unspawned : s.capture = .unspawned ↔ s.ui.phase = 0
  tracker_unspawned : s.tracking = .unspawned ↔ s.ui.phase ≤ 1
  shutdown : s.shutdown = true ↔ 3 ≤ s.ui.phase
  capture_ended : 4 ≤ s.ui.phase → s.capture = .ended
  tracker_ended : s.ui.phase = 5 → s.tracking = .ended ∨ s.tracking = .panicked
  /-- The tracker thread ends last, and leaves no frame behind. -/
  hungUp : s.tracking = .ended → s.capture = .ended ∧ s.frames = []
  /-- After a panic there is no channel. -/
  dropped : s.tracking = .panicked → s.frames = []

theorem consistent_init (resolver : ρ) : (init resolver).Consistent := by
  constructor <;> simp [init, UiThread.phase]

/-- As long as the capture thread runs, the tracker thread does not end but by a panic, and nobody has joined
it. -/
theorem Consistent.running (h : s.Consistent) (hrun : s.capture ≠ .ended) :
    s.ui.phase < 4 ∧ s.tracking ≠ .ended := by
  refine ⟨?_, ?_⟩
  · by_contra hphase
    exact hrun (h.capture_ended (by omega))
  · intro hend
    exact hrun (h.hungUp hend).1

theorem ui_of_capture {a : CaptureAction} (hmove : CaptureMove s a s') : s'.ui = s.ui := by
  cases hmove <;> rfl

theorem Consistent.capture {a : CaptureAction} (h : s.Consistent) (hmove : CaptureMove s a s') :
    s'.Consistent := by
  have hspawned := h.capture_unspawned
  have hrunning := h.running
  have hdropped := h.dropped
  have htracker := h.tracker_unspawned
  have hshutdown := h.shutdown
  cases hmove <;> constructor <;> grind

section Tracker

variable [PanickingResolver ρ]

/-- What ingesting a frame changes. -/
theorem ingestFrame_frame (s : Program ρ) (fromEthernet : FromEthernet) (tp : TlsParser) (frame : Frame)
    (nowMs : UInt64) :
    ∃ tracker thread, s.ingestFrame fromEthernet tp frame nowMs =
        { s with tracker, tracking := thread } ∧
      (thread = s.tracking ∨ (∃ state, thread = .updating state nowMs) ∨ thread = .evicting nowMs) := by
  unfold ingestFrame
  split
  · exact ⟨s.tracker, s.tracking, rfl, .inl rfl⟩
  · simp only
    split
    · exact ⟨_, _, rfl, .inr (.inl ⟨_, rfl⟩)⟩
    · exact ⟨_, _, rfl, .inr (.inr rfl)⟩
    · exact ⟨_, _, rfl, .inr (.inr rfl)⟩

theorem ui_of_tracker {a : TrackerAction} (hmove : TrackerMove fromEthernet tp s a s') : s'.ui = s.ui := by
  cases hmove with
  | received frame frames nowMs _ _ _ =>
    obtain ⟨tracker, thread, heq, -⟩ := ingestFrame_frame { s with frames } fromEthernet tp frame nowMs
    rw [heq]
  | _ => rfl

theorem Consistent.tracker {a : TrackerAction} (h : s.Consistent) (hphase : s.ui.phase ≤ 5)
    (hmove : TrackerMove fromEthernet tp s a s') : s'.Consistent := by
  have hcapture := h.capture_unspawned
  have hspawned := h.tracker_unspawned
  have hshutdown := h.shutdown
  have hended := h.capture_ended
  have hjoined := h.tracker_ended
  have hlast := h.hungUp
  have hdropped := h.dropped
  cases hmove with
  | received frame frames nowMs hreceiving hframes _ =>
    obtain ⟨tracker, thread, heq, hthread⟩ :=
      ingestFrame_frame { s with frames } fromEthernet tp frame nowMs
    rw [heq]
    constructor <;> grind
  | refused state nowMs hupdating hclosed =>
    -- Once `run_live` has returned regularly, the tracker thread sends nothing.
    rw [UiThread.result?_isSome] at hclosed
    rcases hjoined (by omega) with hend | hend <;> rw [hupdating] at hend <;> cases hend
  | _ => constructor <;> grind

end Tracker

theorem Consistent.ui {a : UiAction} (h : s.Consistent) (hmove : UiMove s a s')
    (hphase : s'.ui.phase ≤ 5) : s'.Consistent := by
  have hcapture := h.capture_unspawned
  have hspawned := h.tracker_unspawned
  have hshutdown := h.shutdown
  have hended := h.capture_ended
  have hjoined := h.tracker_ended
  have hlast := h.hungUp
  have hdropped := h.dropped
  cases hmove <;> constructor <;> grind [UiThread.phase, SetupNext, LoopFails]

/-- An early return is the end for the thread of the user interface. -/
theorem phase_step_of_failed [PanickingResolver ρ] {a : ThreadAction}
    (hstep : s.step args fromEthernet tp a = some s') (hphase : s'.ui.phase ≤ 5) : s.ui.phase ≤ 5 := by
  cases a with
  | capture a => rwa [← ui_of_capture (captureStep_cases hstep)]
  | tracker a => rwa [← ui_of_tracker (trackerStep_cases hstep)]
  | ui a => cases uiStep_cases hstep <;> grind [UiThread.phase, SetupNext, LoopFails]

theorem Consistent.step [PanickingResolver ρ] {a : ThreadAction} (h : s.Consistent) (hphase : s.ui.phase ≤ 5)
    (hstep : s.step args fromEthernet tp a = some s') (hphase' : s'.ui.phase ≤ 5) : s'.Consistent := by
  cases a with
  | capture a => exact h.capture (captureStep_cases hstep)
  | tracker a => exact h.tracker hphase (trackerStep_cases hstep)
  | ui a => exact h.ui (uiStep_cases hstep) hphase'

/-- In every state that the program can reach without an early return, the threads are where the phase
of `run_live` wants them. -/
theorem consistent_run [PanickingResolver ρ] {resolver : ρ} {as : List ThreadAction}
    (h : runs (Program.step args fromEthernet tp) (init resolver) as = some s)
    (hphase : s.ui.phase ≤ 5) : s.Consistent := by
  have hrun : s.ui.phase ≤ 5 → s.Consistent :=
    runs_invariant (J := fun s => s.ui.phase ≤ 5 → s.Consistent) (fun t a t' ht hstep hphase' =>
      have hphase := phase_step_of_failed hstep hphase'
      (ht hphase).step hphase hstep hphase') (fun _ => consistent_init resolver) h
  exact hrun hphase

/-! ## Nothing is lost or reordered -/

theorem heldFrames_of_none (hnone : ∀ frame, s.capture ≠ .sending frame) : s.heldFrames = [] := by
  unfold heldFrames
  split
  case h_1 frame hsending => exact absurd hsending (hnone frame)
  case h_2 => rfl

section Linear

variable [PanickingResolver ρ]

theorem restOfTurn_ingestFrame (hreceiving : s.tracking = .receiving) (frame : Frame)
    (nowMs : UInt64) :
    (s.ingestFrame fromEthernet tp frame nowMs).restOfTurn =
      match extractTcp fromEthernet frame.bytes with
      | none => ([], s.tracker)
      | some seg => trackerTurn tp s.tracker seg nowMs := by
  unfold ingestFrame
  cases extractTcp fromEthernet frame.bytes with
  | none =>
    unfold restOfTurn
    simp only [hreceiving]
  | some seg =>
    unfold trackerTurn
    simp only
    generalize s.tracker.ingest tp _ _ _ _ _ _ = answer
    obtain ⟨result, tracker⟩ := answer
    rcases result with e | state?
    · rfl
    · cases state? <;> rfl

/-- After the frames `received` with their times and the operations `os` of the user interface, nothing
that was captured, received, sent or pressed is doubled or out of order, and nothing is missing but the
frames `lost`, from one on over which the tracker thread has panicked. -/
structure Linearized (fromEthernet : FromEthernet) (tp : TlsParser) (resolver : ρ) (captured : List Frame)
    (times : List UInt64) (pressed : List AppOp) (s : Program ρ) (received : List (Frame × UInt64))
    (lost : List Frame) (os : List AppOp) : Prop where
  captured_eq : captured = received.map Prod.fst ++ lost ++ s.frames ++ s.heldFrames
  lost_iff : lost = [] ↔ s.tracking ≠ .panicked
  lost_panics : ∀ frame ∈ lost.head?, s.panicsOn fromEthernet frame
  times_eq : times = received.map Prod.snd
  events_eq : (trackerThread tp (.withResolver resolver) (segmentsOf fromEthernet received)).1 =
    os.filterMap AppOp.event? ++ s.events ++ s.restOfTurn.1
  tracker_eq : (trackerThread tp (.withResolver resolver) (segmentsOf fromEthernet received)).2 =
    s.restOfTurn.2
  app_eq : s.app = App.new.ops os
  pressed_eq : pressed = os.filter fun o => o.event?.isNone

theorem linearized_init (resolver : ρ) :
    Linearized fromEthernet tp resolver [] [] [] (init resolver) [] [] [] where
  captured_eq := rfl
  lost_iff := iff_of_true rfl TrackerThread.noConfusion
  lost_panics := by
    intro frame hmem
    cases hmem
  times_eq := rfl
  events_eq := rfl
  tracker_eq := rfl
  app_eq := rfl
  pressed_eq := rfl

end Linear

end Program

/-- What the capture thread has captured, by the answer of the source. -/
theorem ThreadAction.captured?_of_ok {result : Except PcapError PcapPacket} {frame? : Option Frame}
    (h : LivePcapSource.nextFrame result = .ok frame?) :
    (ThreadAction.capture (.nextFrame result)).captured? = frame? := by
  show (LivePcapSource.nextFrame result).toOption.join = frame?
  rw [h]
  rfl

theorem ThreadAction.captured?_of_error {result : Except PcapError PcapPacket} {e : Error}
    (h : LivePcapSource.nextFrame result = .error e) :
    (ThreadAction.capture (.nextFrame result)).captured? = none := by
  show (LivePcapSource.nextFrame result).toOption.join = none
  rw [h]
  rfl

/-- No key is an event of the tracker thread. -/
theorem KeyCode.event?_op? {code : KeyCode} {o : AppOp} (h : code.op? = some o) : o.event? = none := by
  unfold KeyCode.op? at h
  cases code with
  | char c =>
    simp only at h
    split_ifs at h
    all_goals
      obtain rfl := Option.some.inj h
      rfl
  | other => cases h
  | _ =>
    obtain rfl := Option.some.inj h
    rfl

namespace Program

section Linear

variable [PanickingResolver ρ] {resolver : ρ} {captured lost : List Frame} {times : List UInt64}
  {pressed os : List AppOp} {received : List (Frame × UInt64)}

namespace Linearized

variable (h : Linearized fromEthernet tp resolver captured times pressed s received lost os)

include h

/-- A step that concerns the frames on their way to the tracker thread. -/
theorem forwarded {captured' lost' : List Frame} (frames : List Frame) (capture : CaptureThread)
    (hcaptured : captured' =
      received.map Prod.fst ++ lost' ++ frames ++ { s with frames, capture }.heldFrames)
    (hlost : lost' = [] ↔ lost = []) (hhead : lost'.head? = lost.head?) :
    Linearized fromEthernet tp resolver captured' times pressed { s with frames, capture } received lost' os where
  captured_eq := hcaptured
  lost_iff := hlost.trans h.lost_iff
  lost_panics := by
    rw [hhead]
    exact h.lost_panics
  times_eq := h.times_eq
  events_eq := h.events_eq
  tracker_eq := h.tracker_eq
  app_eq := h.app_eq
  pressed_eq := h.pressed_eq

/-- A step of a capture thread that holds no frame before and after it. -/
theorem idled (capture : CaptureThread) (hnone : ∀ frame, s.capture ≠ .sending frame)
    (hnone' : ∀ frame, capture ≠ .sending frame) :
    Linearized fromEthernet tp resolver captured times pressed { s with capture } received lost os := by
  refine h.forwarded s.frames capture ?_ Iff.rfl rfl
  have hcaptured := h.captured_eq
  rw [heldFrames_of_none hnone] at hcaptured
  rw [hcaptured]
  exact congrArg _ (heldFrames_of_none hnone').symm

theorem capture {a : CaptureAction} (hs : s.Consistent) (hmove : CaptureMove s a s') :
    ∃ lost', Linearized fromEthernet tp resolver (captured ++ (ThreadAction.capture a).captured?.toList) times
      pressed s' received lost' os := by
  have hcaptured := h.captured_eq
  have hkept : ∀ a : CaptureAction, (ThreadAction.capture a).captured? = none →
      captured ++ (ThreadAction.capture a).captured?.toList = captured := by
    intro a hnone
    rw [hnone, Option.toList_none, List.append_nil]
  cases hmove with
  | captured result frame hpolling hresult =>
    refine ⟨lost, h.forwarded s.frames (.sending frame) ?_ Iff.rfl rfl⟩
    rw [ThreadAction.captured?_of_ok hresult, hcaptured, heldFrames_of_none (by simp [hpolling]), List.append_nil]
    rfl
  | idle result hpolling hresult =>
    rw [hkept _ (ThreadAction.captured?_of_ok hresult)]
    exact ⟨lost, h.idled .looping (by simp [hpolling]) fun _ => CaptureThread.noConfusion⟩
  | broken result e hpolling hresult =>
    rw [hkept _ (ThreadAction.captured?_of_error hresult)]
    exact ⟨lost, h.idled .ended (by simp [hpolling]) fun _ => CaptureThread.noConfusion⟩
  | sent frame hsending hopen =>
    have hframe : s.heldFrames = [frame] := by
      unfold heldFrames
      rw [hsending]
    refine ⟨lost, h.forwarded (s.frames ++ [frame]) .looping ?_ Iff.rfl rfl⟩
    rw [hkept _ rfl, hcaptured, hframe, heldFrames_of_none fun _ => CaptureThread.noConfusion, List.append_nil,
      List.append_assoc _ s.frames]
  | refused frame hsending hclosed =>
    rcases hclosed with hended | hpanicked
    · exact absurd hended (hs.running (by simp [hsending])).2
    · -- The frame comes after the ones that were lost in the panic.
      have hframe : s.heldFrames = [frame] := by
        unfold heldFrames
        rw [hsending]
      have hlost : lost ≠ [] := fun hnil => h.lost_iff.mp hnil hpanicked
      refine ⟨lost ++ [frame], h.forwarded s.frames .ended ?_ ?_ ?_⟩
      · rw [hkept _ rfl, hcaptured, hframe, hs.dropped hpanicked,
          heldFrames_of_none fun _ => CaptureThread.noConfusion]
        simp only [List.append_nil, List.append_assoc]
      · exact iff_of_false (List.append_ne_nil_of_left_ne_nil hlost _) hlost
      · exact List.head?_append_of_ne_nil lost hlost
  | opened pcap hopening =>
    rw [hkept _ rfl]
    exact ⟨lost, h.idled .looping (by simp [hopening]) fun _ => CaptureThread.noConfusion⟩
  | notOpened pcap hopening =>
    rw [hkept _ rfl]
    exact ⟨lost, h.idled .ended (by simp [hopening]) fun _ => CaptureThread.noConfusion⟩
  | checked hlooping _ =>
    rw [hkept _ rfl]
    exact ⟨lost, h.idled .polling (by simp [hlooping]) fun _ => CaptureThread.noConfusion⟩
  | stopped hlooping _ =>
    rw [hkept _ rfl]
    exact ⟨lost, h.idled .ended (by simp [hlooping]) fun _ => CaptureThread.noConfusion⟩

/-- A step of a tracker thread that does not panic, and leaves it the same events to send. -/
theorem turned (tracking : TrackerThread) (tracker : ConnectionTracker ρ) (events : List UiEvent)
    (hrun : s.tracking ≠ .panicked) (hrun' : tracking ≠ .panicked)
    (hevents : s.events ++ s.restOfTurn.1 =
      events ++ { s with tracking, tracker, events }.restOfTurn.1)
    (htracker : s.restOfTurn.2 = { s with tracking, tracker, events }.restOfTurn.2) :
    Linearized fromEthernet tp resolver captured times pressed { s with tracking, tracker, events }
      received lost os where
  captured_eq := h.captured_eq
  lost_iff := iff_of_true (h.lost_iff.mpr hrun) hrun'
  lost_panics := by
    rw [h.lost_iff.mpr hrun]
    intro frame hmem
    cases hmem
  times_eq := h.times_eq
  events_eq := by
    rw [List.append_assoc, ← hevents, ← List.append_assoc]
    exact h.events_eq
  tracker_eq := h.tracker_eq.trans htracker
  app_eq := h.app_eq
  pressed_eq := h.pressed_eq

/-- The threads after one more frame was received. -/
theorem received_frame {frame : Frame} {frames : List Frame} (nowMs : UInt64)
    (hreceiving : s.tracking = .receiving) (hframes : s.frames = frame :: frames) :
    Linearized fromEthernet tp resolver captured (times ++ [nowMs]) pressed
      ({ s with frames }.ingestFrame fromEthernet tp frame nowMs) (received ++ [(frame, nowMs)]) lost os := by
  obtain rfl := h.lost_iff.mpr (by simp [hreceiving])
  have hrest : s.restOfTurn = ([], s.tracker) := by
    unfold restOfTurn
    simp only [hreceiving]
  have hturn := @restOfTurn_ingestFrame ρ fromEthernet tp { s with frames } _ hreceiving frame nowMs
  have hevents := h.events_eq
  have htracker := h.tracker_eq
  rw [hrest] at hevents htracker
  have hsegs : segmentsOf fromEthernet (received ++ [(frame, nowMs)]) =
      segmentsOf fromEthernet received ++
        ((extractTcp fromEthernet frame.bytes).map fun seg => (seg, nowMs)).toList := by
    unfold segmentsOf
    rw [List.filterMap_append]
    cases hseg : extractTcp fromEthernet frame.bytes <;> simp [hseg]
  have hthread : trackerThread tp (.withResolver resolver)
        (segmentsOf fromEthernet (received ++ [(frame, nowMs)])) =
      (os.filterMap AppOp.event? ++ s.events ++
          ({ s with frames }.ingestFrame fromEthernet tp frame nowMs).restOfTurn.1,
        ({ s with frames }.ingestFrame fromEthernet tp frame nowMs).restOfTurn.2) := by
    rw [hsegs, hturn]
    cases extractTcp fromEthernet frame.bytes with
    | none =>
      rw [Option.map_none, Option.toList_none, List.append_nil]
      exact Prod.ext hevents htracker
    | some seg =>
      rw [Option.map_some, Option.toList_some, trackerThread_concat]
      simp only [hevents, htracker, List.append_nil]
  obtain ⟨tracker, thread, heq, hthread'⟩ :=
    ingestFrame_frame { s with frames } fromEthernet tp frame nowMs
  have hrun : thread ≠ .panicked := by
    rcases hthread' with rfl | ⟨state, rfl⟩ | rfl
    · simp [hreceiving]
    · exact TrackerThread.noConfusion
    · exact TrackerThread.noConfusion
  refine ⟨?_, ?_, ?_, ?_, ?_, ?_, ?_, h.pressed_eq⟩
  · rw [h.captured_eq, hframes, List.map_append, heq]
    simp [heldFrames]
  · rw [heq]
    exact iff_of_true rfl hrun
  · intro frame hmem
    cases hmem
  · rw [h.times_eq, List.map_append]
    rfl
  · rw [hthread, heq]
  · rw [hthread]
  · rw [heq]
    exact h.app_eq

theorem tracker {a : TrackerAction} (hs : s.Consistent) (hphase : s.ui.phase ≤ 5)
    (hmove : TrackerMove fromEthernet tp s a s') :
    ∃ received' lost', Linearized fromEthernet tp resolver captured
      (times ++ (ThreadAction.tracker a).receivedAt?.toList) pressed s' received' lost' os := by
  -- Nobody refuses an event as long as the program runs.
  have hopen : s.tracking ≠ .ended → s.tracking ≠ .panicked → ¬ s.ui.result?.isSome := by
    rw [UiThread.result?_isSome]
    intro hrun hrun' hreturned
    exact (hs.tracker_ended (by omega)).elim hrun hrun'
  have hnone : ∀ a : TrackerAction, (ThreadAction.tracker a).receivedAt? = none →
      times ++ (ThreadAction.tracker a).receivedAt?.toList = times := by
    intro a hnone
    rw [hnone, Option.toList_none, List.append_nil]
  cases hmove with
  | received frame frames nowMs hreceiving hframes _ =>
    exact ⟨_, lost, h.received_frame nowMs hreceiving hframes⟩
  | panicked frame frames hreceiving hframes hpanics =>
    obtain rfl := h.lost_iff.mpr (by simp [hreceiving])
    rw [hnone _ rfl]
    refine ⟨received, frame :: frames, ?_, ?_, ?_, h.times_eq, ?_, ?_, h.app_eq, h.pressed_eq⟩
    · have hcaptured := h.captured_eq
      rw [hframes, List.append_nil] at hcaptured
      rw [hcaptured, List.append_nil]
      rfl
    · exact iff_of_false (List.cons_ne_nil _ _) (not_not_intro rfl)
    · intro frame' hmem
      obtain rfl := Option.some.inj hmem
      exact hpanics
    · simpa only [restOfTurn, hreceiving] using h.events_eq
    · simpa only [restOfTurn, hreceiving] using h.tracker_eq
  | hungUp hreceiving hframes hend =>
    rw [hnone _ rfl]
    refine ⟨received, lost, h.turned .ended s.tracker s.events (by simp [hreceiving])
      TrackerThread.noConfusion ?_ ?_⟩
    · simp only [restOfTurn, hreceiving]
    · simp only [restOfTurn, hreceiving]
  | updated state nowMs hupdating _ =>
    rw [hnone _ rfl]
    refine ⟨received, lost, h.turned (.evicting nowMs) s.tracker _ (by simp [hupdating])
      TrackerThread.noConfusion ?_ ?_⟩
    · simp only [restOfTurn, hupdating, List.append_assoc, List.cons_append, List.nil_append]
    · simp only [restOfTurn, hupdating]
  | refused state nowMs hupdating hclosed =>
    exact absurd hclosed (hopen (by simp [hupdating]) (by simp [hupdating]))
  | evicted nowMs hevicting removed tracker hevict =>
    rw [hnone _ rfl]
    refine ⟨received, lost, h.turned _ tracker s.events (by simp [hevicting]) ?_ ?_ ?_⟩
    · split_ifs <;> exact TrackerThread.noConfusion
    · simp only [restOfTurn, hevicting, hevict]
      split_ifs <;> rfl
    · simp only [restOfTurn, hevicting, hevict]
      split_ifs <;> rfl
  | reported removed hreporting _ =>
    rw [hnone _ rfl]
    refine ⟨received, lost, h.turned .receiving s.tracker _ (by simp [hreporting])
      TrackerThread.noConfusion ?_ ?_⟩
    · simp only [restOfTurn, hreporting, List.append_nil]
    · simp only [restOfTurn, hreporting]
  | unheard removed hreporting hclosed =>
    exact absurd hclosed (hopen (by simp [hreporting]) (by simp [hreporting]))

/-- The user interface applies one more operation. -/
theorem applied (o : AppOp) (events : List UiEvent) (ui : UiThread)
    (hevents : s.events = o.event?.toList ++ events) :
    Linearized fromEthernet tp resolver captured times (pressed ++ if o.event?.isNone then [o] else [])
      { s with events, app := s.app.op o, ui } received lost (os ++ [o]) := by
  refine ⟨h.captured_eq, h.lost_iff, h.lost_panics, h.times_eq, ?_, h.tracker_eq, ?_, ?_⟩
  · rw [h.events_eq, hevents, List.filterMap_append]
    cases hevent : o.event? <;> simp [hevent] <;> rfl
  · rw [h.app_eq]
    exact (List.foldl_concat App.op _ o os).symm
  · rw [h.pressed_eq, List.filter_append]
    cases hevent : o.event? <;> simp [hevent]

/-- A step of the user interface that leaves the channel and the display alone. -/
theorem moved (ui : UiThread) (shutdown : Bool) {a : UiAction} (hop : (ThreadAction.ui a).op? = none) :
    ∃ os', Linearized fromEthernet tp resolver captured times
      (pressed ++ (ThreadAction.ui a).op?.toList) { s with ui, shutdown } received lost os' := by
  rw [hop, Option.toList_none, List.append_nil]
  exact ⟨os, h.captured_eq, h.lost_iff, h.lost_panics, h.times_eq, h.events_eq, h.tracker_eq, h.app_eq,
    h.pressed_eq⟩

theorem ui {a : UiAction} (hs : s.Consistent) (hmove : UiMove s a s') (hphase : s'.ui.phase ≤ 5) :
    ∃ os', Linearized fromEthernet tp resolver captured times
      (pressed ++ (ThreadAction.ui a).op?.toList) s' received lost os' := by
  cases hmove with
  | spawnedCapture hui =>
    have hunspawned := hs.capture_unspawned.mpr (by simp [hui, UiThread.phase])
    refine ⟨os, ?_, h.lost_iff, h.lost_panics, h.times_eq, h.events_eq, h.tracker_eq, h.app_eq, ?_⟩
    · simpa only [heldFrames, hunspawned] using h.captured_eq
    · simpa [ThreadAction.op?] using h.pressed_eq
  | spawnedTracker hui =>
    have hunspawned := hs.tracker_unspawned.mpr (by simp [hui, UiThread.phase])
    obtain rfl := h.lost_iff.mpr (by simp [hunspawned])
    refine ⟨os, h.captured_eq, iff_of_true rfl TrackerThread.noConfusion, h.lost_panics, h.times_eq, ?_, ?_,
      h.app_eq, ?_⟩
    · simpa only [restOfTurn, hunspawned] using h.events_eq
    · simpa only [restOfTurn, hunspawned] using h.tracker_eq
    · simpa [ThreadAction.op?] using h.pressed_eq
  | noCapture | noTracker | noTerminal => simp [UiThread.phase] at hphase
  | handled evt events hui hevents =>
    have happlied := h.applied (.handleUiEvent evt) events s.ui hevents
    exact ⟨_, happlied⟩
  | pressed code o hui hop =>
    have hevent := KeyCode.event?_op? hop
    have happlied := h.applied o s.events .ticking (by simp [hevent])
    simp only [hevent, Option.isNone_none, if_true] at happlied
    have hpressed : (ThreadAction.ui (.read (.ok (.key code .press)))).op?.toList = [o] := by
      show code.op?.toList = [o]
      rw [hop]
      rfl
    rw [hpressed]
    exact ⟨_, happlied⟩
  | ticked hui => exact ⟨_, h.applied .tick s.events .draining rfl⟩
  | repeated code kind hui hkind =>
    refine h.moved _ _ ?_
    cases kind with
    | press => exact absurd rfl hkind
    | repeated => rfl
    | release => rfl
  | ignored code hui hquit hop => exact h.moved _ _ hop
  | broken e a hfails =>
    rcases hfails with ⟨-, rfl⟩ | ⟨-, rfl⟩ | ⟨-, rfl⟩ <;> exact h.moved _ _ rfl
  | _ => exact h.moved _ _ rfl

end Linearized

theorem Linearized.step (h : Linearized fromEthernet tp resolver captured times pressed s received lost os)
    {a : ThreadAction} (hs : s.Consistent) (hphase : s.ui.phase ≤ 5)
    (hstep : s.step args fromEthernet tp a = some s') (hphase' : s'.ui.phase ≤ 5) :
    ∃ received' lost' os', Linearized fromEthernet tp resolver (captured ++ a.captured?.toList)
      (times ++ a.receivedAt?.toList) (pressed ++ a.op?.toList) s' received' lost' os' := by
  cases a with
  | capture a =>
    obtain ⟨lost', hcapture⟩ := h.capture hs (captureStep_cases hstep)
    refine ⟨received, lost', os, ?_⟩
    rwa [show (ThreadAction.capture a).receivedAt? = none from rfl,
      show (ThreadAction.capture a).op? = none from rfl, Option.toList_none, Option.toList_none,
      List.append_nil, List.append_nil]
  | tracker a =>
    obtain ⟨received', lost', htracker⟩ := h.tracker hs hphase (trackerStep_cases hstep)
    refine ⟨received', lost', os, ?_⟩
    rwa [show (ThreadAction.tracker a).captured? = none from rfl,
      show (ThreadAction.tracker a).op? = none from rfl, Option.toList_none, Option.toList_none,
      List.append_nil, List.append_nil]
  | ui a =>
    obtain ⟨os', hui⟩ := h.ui hs (uiStep_cases hstep) hphase'
    refine ⟨received, lost, os', ?_⟩
    rwa [show (ThreadAction.ui a).captured? = none from rfl,
      show (ThreadAction.ui a).receivedAt? = none from rfl, Option.toList_none, Option.toList_none,
      List.append_nil, List.append_nil]

/-- Whatever the order of the steps: the frames that were captured went to the tracker thread in order, up to
one over which it panicked, the events that it sent went to the user interface in order, and what is under
way is in the channels or in the hands of a thread. -/
theorem linearized_run {as : List ThreadAction}
    (h : runs (Program.step args fromEthernet tp) (init resolver) as = some s)
    (hphase : s.ui.phase ≤ 5) :
    ∃ received lost os, Linearized fromEthernet tp resolver (as.filterMap ThreadAction.captured?)
      (as.filterMap ThreadAction.receivedAt?) (as.filterMap ThreadAction.op?) s received lost os := by
  have hconcat : ∀ {β : Type} (f : ThreadAction → Option β) (as : List ThreadAction) (a : ThreadAction),
      (as ++ [a]).filterMap f = as.filterMap f ++ (f a).toList := by
    intro β f as a
    rw [List.filterMap_append]
    cases hf : f a <;> simp [hf]
  have hrun := runs_history
    (I := fun as s => s.ui.phase ≤ 5 →
      ∃ received lost os, Linearized fromEthernet tp resolver (as.filterMap ThreadAction.captured?)
        (as.filterMap ThreadAction.receivedAt?) (as.filterMap ThreadAction.op?) s received lost os)
    (fun _ => ⟨[], [], [], linearized_init resolver⟩) (fun as t a t' hruns ht hstep hphase' => by
      have hphase := phase_step_of_failed hstep hphase'
      obtain ⟨received, lost, os, hlinear⟩ := ht hphase
      rw [hconcat, hconcat, hconcat]
      exact hlinear.step (consistent_run hruns hphase) hphase hstep hphase') h
  exact hrun hphase

end Linear

end Program

end SeeHandshake

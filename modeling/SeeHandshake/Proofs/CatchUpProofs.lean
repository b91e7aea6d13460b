import SeeHandshake.Lib.Fair
import SeeHandshake.Proofs.ShutdownProofs

/-!
# Proofs: what was captured gets shown

Under a fair scheduler, once nothing more is captured the threads bring everything that is under way to the screen.
-/

namespace SeeHandshake

open Lib

/-- The thread of the user interface is in its event loop. -/
def UiThread.InLoop (ui : UiThread) : Prop :=
  ui = .draining ∨ ui = .drawing ∨ ui = .polling ∨ ui = .reading ∨ ui = .ticking

/-- The steps of the event loop until it handles the next update. -/
def UiThread.rank : UiThread → ℕ
  | .drawing => 4
  | .polling => 3
  | .reading => 2
  | .ticking => 1
  | _ => 0

theorem UiThread.InLoop.phase_eq {ui : UiThread} (h : ui.InLoop) : ui.phase = 2 := by
  rcases h with rfl | rfl | rfl | rfl | rfl <;> rfl

theorem UiThread.InLoop.result?_eq {ui : UiThread} (h : ui.InLoop) : ui.result? = none := by
  rcases h with rfl | rfl | rfl | rfl | rfl <;> rfl

namespace ThreadAction

def OfCapture (a : ThreadAction) : Prop := ∃ c, a = .capture c

def OfTracker (a : ThreadAction) : Prop := ∃ c, a = .tracker c

def OfUi (a : ThreadAction) : Prop := ∃ c, a = .ui c

end ThreadAction

namespace Program

variable {ρ : Type} {args : Args} {fromEthernet : FromEthernet} {tp : TlsParser} {s s' : Program ρ}

/-! ## One step -/

/-- What the capture thread leaves alone; it holds no frame then, if it held none before and captured none. -/
theorem capture_frame {a : CaptureAction} (hmove : CaptureMove s a s') (hidle : (ThreadAction.capture a).captured? = none)
    (hnone : ∀ frame, s.capture ≠ .sending frame) :
    (∀ frame, s'.capture ≠ .sending frame) ∧ s'.frames = s.frames ∧ s'.tracking = s.tracking ∧
      s'.events = s.events ∧ s'.ui = s.ui := by
  cases hmove with
  | captured result frame _ hresult =>
    have hsome := ThreadAction.captured?_of_ok hresult
    rw [hidle] at hsome
    cases hsome
  | sent frame hsending _ | refused frame hsending _ => exact absurd hsending (hnone frame)
  | _ => exact ⟨fun _ => CaptureThread.noConfusion, rfl, rfl, rfl, rfl⟩

/-- The capture thread sends on the frame that it holds. -/
theorem capture_sent {a : CaptureAction} (hmove : CaptureMove s a s') {frame : Frame}
    (hsending : s.capture = .sending frame) (frame' : Frame) : s'.capture ≠ .sending frame' := by
  cases hmove with
  | sent _ _ _ | refused _ _ _ => exact CaptureThread.noConfusion
  | opened _ hcapture | notOpened _ hcapture | checked hcapture _ | stopped hcapture _
  | captured _ _ hcapture _ | idle _ hcapture _ | broken _ _ hcapture _ =>
    rw [hsending] at hcapture
    cases hcapture

/-- What the thread of the user interface leaves alone in its event loop. -/
theorem ui_frame {a : UiAction} (hmove : UiMove s a s') (hloop : s.ui.InLoop) :
    s'.capture = s.capture ∧ s'.frames = s.frames ∧ s'.tracking = s.tracking := by
  have hphase := hloop.phase_eq
  cases hmove with
  | spawnedCapture hui | noCapture _ _ hui | spawnedTracker hui | noTracker _ _ hui =>
    rw [hui] at hphase
    cases hphase
  | _ => exact ⟨rfl, rfl, rfl⟩

section Tracker

variable [PanickingResolver ρ]

theorem tracker_frame {a : TrackerAction} (hmove : TrackerMove fromEthernet tp s a s') :
    s'.capture = s.capture ∧ s'.ui = s.ui := by
  refine ⟨?_, ui_of_tracker hmove⟩
  cases hmove with
  | received frame frames nowMs _ _ _ =>
    obtain ⟨tracker, thread, heq, -⟩ := ingestFrame_frame { s with frames } fromEthernet tp frame nowMs
    rw [heq]
  | _ => rfl

/-- A step of the tracker thread brings it closer to the end of what it has to do. -/
theorem backlog_tracker {a : TrackerAction} (hmove : TrackerMove fromEthernet tp s a s') :
    4 * s'.frames.length + s'.tracking.rank < 4 * s.frames.length + s.tracking.rank := by
  obtain ⟨hcapture, hui⟩ := tracker_frame hmove
  have hlt := rank_tracker hmove
  unfold rank at hlt
  rw [hcapture, hui] at hlt
  omega

/-- When it has caught up, the tracker thread can only hang up. -/
theorem CaughtUp.tracker {a : TrackerAction} (hcaught : s.CaughtUp) (hmove : TrackerMove fromEthernet tp s a s') :
    s'.CaughtUp ∧ s'.events = s.events ∧ s'.ui = s.ui := by
  have hframes := hcaught.frames
  have htracking := hcaught.tracking
  cases hmove with
  | hungUp _ _ _ => exact ⟨⟨hcaught.capture, hcaught.frames, .inr (.inl rfl)⟩, rfl, rfl⟩
  | received frame frames _ _ hcons _ | panicked frame frames _ hcons _ =>
    rw [hframes] at hcons
    cases hcons
  | updated _ _ hthread _ | refused _ _ hthread _ | evicted _ hthread _ _ _ | reported _ hthread _
  | unheard _ hthread _ => rcases htracking with heq | heq | heq <;> rw [heq] at hthread <;> cases hthread

/-- The tracker thread does not wait as long as it is behind. -/
theorem exists_trackerStep_of_behind (fromEthernet : FromEthernet) (tp : TlsParser) (hs : s.Consistent)
    (hphase : 2 ≤ s.ui.phase) (hnone : ∀ frame, s.capture ≠ .sending frame) (hbehind : ¬ s.CaughtUp) :
    ∃ a, s.trackerStep fromEthernet tp a ≠ none := by
  have hspawned : s.tracking ≠ .unspawned := by
    intro hnot
    have := hs.tracker_unspawned.mp hnot
    omega
  by_cases hended : s.tracking = .ended
  · exact absurd ⟨hnone, (hs.hungUp hended).2, .inr (.inl hended)⟩ hbehind
  by_cases hpanicked : s.tracking = .panicked
  · exact absurd ⟨hnone, hs.dropped hpanicked, .inr (.inr hpanicked)⟩ hbehind
  by_cases hreceiving : s.tracking = .receiving
  · exact exists_recv fromEthernet tp hreceiving fun hframes => hbehind ⟨hnone, hframes, .inl hreceiving⟩
  · exact exists_trackerStep_of_turn fromEthernet tp s hspawned hreceiving hended hpanicked

end Tracker

/-- A step of the event loop handles an update or leads to the next draw. -/
theorem backlog_ui {a : UiAction} (hmove : UiMove s a s') (hloop : s.ui.InLoop) (hloop' : s'.ui.InLoop) :
    (s'.events = [] ∧ s'.ui = .drawing) ∨
      s'.events.length + s'.ui.rank < s.events.length + s.ui.rank := by
  have hphase := hloop.phase_eq
  have hphase' := hloop'.phase_eq
  cases hmove with
  | drained _ hevents => exact .inl ⟨hevents, rfl⟩
  | handled evt events hui hevents =>
    refine .inr ?_
    simp only [hui, hevents, List.length_cons]
    omega
  | polled ready hui =>
    refine .inr ?_
    cases ready <;> simp [hui, UiThread.rank]
  | drawn hui | repeated _ _ hui _ | pressed _ _ hui _ | ignored _ hui _ _ | other hui | ticked hui =>
    refine .inr ?_
    simp [hui, UiThread.rank]
  | spawnedCapture hui | noCapture _ _ hui | spawnedTracker hui | noTracker _ _ hui | joinedCapture _ hui _
  | joinedTracker _ hui _ =>
    rw [hui] at hphase
    cases hphase
  | setUp next hnext | noTerminal _ next hnext =>
    rcases hnext with ⟨hui, -⟩ | ⟨hui, -⟩ | ⟨hui, -⟩ <;> rw [hui] at hloop <;> simp [UiThread.InLoop] at hloop
  | left outcome _ => cases hphase'
  | broken e a _ | quit _ => simp [UiThread.InLoop] at hloop'

/-! ## Catching up -/

/-- Every step of an execution is a transition of one of the threads. -/
theorem execution_cases [PanickingResolver ρ] (e : Execution (step (ρ := ρ) args fromEthernet tp)) (n : ℕ) :
    (∃ a, e.action n = .capture a ∧ CaptureMove (e.state n) a (e.state (n + 1))) ∨
    (∃ a, e.action n = .tracker a ∧ TrackerMove fromEthernet tp (e.state n) a (e.state (n + 1))) ∨
    (∃ a, e.action n = .ui a ∧ UiMove (e.state n) a (e.state (n + 1))) := by
  have hnext := e.next n
  cases haction : e.action n with
  | capture a =>
    rw [haction] at hnext
    exact .inl ⟨a, rfl, captureStep_cases hnext⟩
  | tracker a =>
    rw [haction] at hnext
    exact .inr (.inl ⟨a, rfl, trackerStep_cases hnext⟩)
  | ui a =>
    rw [haction] at hnext
    exact .inr (.inr ⟨a, rfl, uiStep_cases hnext⟩)

section

variable [PanickingResolver ρ] {e : Execution (step (ρ := ρ) args fromEthernet tp)} {n₀ : ℕ}

/-- The frame that the capture thread holds is sent. -/
theorem exists_sent (hfair : e.Fair ThreadAction.OfCapture) (n₀ : ℕ) :
    ∃ n, n₀ ≤ n ∧ ∀ frame, (e.state n).capture ≠ .sending frame := by
  refine Execution.exists_goal (J := fun _ => True) (μ := fun _ => 0)
    (G := fun s => ∀ frame, s.capture ≠ .sending frame) hfair ?_ ?_ (Nat.le_refl n₀) trivial
  · intro n hn _ hheld
    push Not at hheld
    obtain ⟨frame, hsending⟩ := hheld
    obtain ⟨a, ha⟩ := exists_captureStep args (e.state n) (by simp [hsending]) (by simp [hsending])
    exact ⟨.capture a, ⟨a, rfl⟩, ha⟩
  · intro n hn _ hheld
    push Not at hheld
    obtain ⟨frame, hsending⟩ := hheld
    rcases execution_cases e n with ⟨a, haction, hmove⟩ | ⟨a, haction, -⟩ | ⟨a, haction, -⟩
    · exact .inl (capture_sent hmove hsending)
    · exact .inr ⟨trivial, Nat.le_refl 0, fun hC => absurd hC (by simp [haction, ThreadAction.OfCapture])⟩
    · exact .inr ⟨trivial, Nat.le_refl 0, fun hC => absurd hC (by simp [haction, ThreadAction.OfCapture])⟩

/-- The program runs from its start, and from a time on it stays in the event loop and captures nothing. -/
structure Idles (e : Execution (step (ρ := ρ) args fromEthernet tp)) (n₀ : ℕ) : Prop where
  start : ∃ resolver, e.state 0 = init resolver
  loop : ∀ n, n₀ ≤ n → (e.state n).ui.InLoop
  nothing : ∀ n, n₀ ≤ n → (e.action n).captured? = none

namespace Idles

theorem consistent (h : Idles e n₀) {n : ℕ} (hn : n₀ ≤ n) : (e.state n).Consistent := by
  have hphase := (h.loop n hn).phase_eq
  obtain ⟨resolver, hinit⟩ := h.start
  have hrun := e.runs_state n
  rw [hinit] at hrun
  exact consistent_run hrun (by omega)

/-- A capture thread that holds no frame comes to hold none, and only the tracker thread changes what is behind. -/
theorem none_held_step (h : Idles e n₀) {n : ℕ} (hn : n₀ ≤ n)
    (hnone : ∀ frame, (e.state n).capture ≠ .sending frame) :
    (∀ frame, (e.state (n + 1)).capture ≠ .sending frame) ∧
      ((∃ a, e.action n = .tracker a ∧ TrackerMove fromEthernet tp (e.state n) a (e.state (n + 1))) ∨
        (¬ (e.action n).OfTracker ∧ (e.state (n + 1)).frames = (e.state n).frames ∧
          (e.state (n + 1)).tracking = (e.state n).tracking)) := by
  rcases execution_cases e n with ⟨a, haction, hmove⟩ | ⟨a, haction, hmove⟩ | ⟨a, haction, hmove⟩
  · obtain ⟨hnone', hframes, htracking, -, -⟩ := capture_frame hmove (haction ▸ h.nothing n hn) hnone
    exact ⟨hnone', .inr ⟨by simp [haction, ThreadAction.OfTracker], hframes, htracking⟩⟩
  · obtain ⟨hcapture, -⟩ := tracker_frame hmove
    exact ⟨hcapture ▸ hnone, .inl ⟨a, haction, hmove⟩⟩
  · obtain ⟨hcapture, hframes, htracking⟩ := ui_frame hmove (h.loop n hn)
    exact ⟨hcapture ▸ hnone, .inr ⟨by simp [haction, ThreadAction.OfTracker], hframes, htracking⟩⟩

/-- The tracker thread comes to the end of what it has to do. -/
theorem exists_caughtUp (h : Idles e n₀) (hfair : e.Fair ThreadAction.OfTracker) {n : ℕ} (hn : n₀ ≤ n)
    (hnone : ∀ frame, (e.state n).capture ≠ .sending frame) : ∃ m, n ≤ m ∧ (e.state m).CaughtUp := by
  refine Execution.exists_goal (J := fun s => ∀ frame, s.capture ≠ .sending frame)
    (μ := fun s => 4 * s.frames.length + s.tracking.rank) hfair ?_ ?_ hn hnone
  · intro n hn hnone hbehind
    have hs := h.consistent hn
    obtain ⟨a, ha⟩ := exists_trackerStep_of_behind fromEthernet tp hs (by
      rw [(h.loop n hn).phase_eq]) hnone hbehind
    exact ⟨.tracker a, ⟨a, rfl⟩, ha⟩
  · intro n hn hnone _
    obtain ⟨hnone', ⟨a, -, hmove⟩ | ⟨hother, hframes, htracking⟩⟩ := h.none_held_step hn hnone
    · have hlt := backlog_tracker hmove
      exact .inr ⟨hnone', Nat.le_of_lt hlt, fun _ => hlt⟩
    · refine .inr ⟨hnone', ?_, fun hC => absurd hC hother⟩
      rw [hframes, htracking]

/-- Once the tracker thread has caught up, only the user interface changes what it has to do. -/
theorem caughtUp_step (h : Idles e n₀) {n : ℕ} (hn : n₀ ≤ n) (hcaught : (e.state n).CaughtUp) :
    (e.state (n + 1)).CaughtUp ∧
      ((¬ (e.action n).OfUi ∧ (e.state (n + 1)).events = (e.state n).events ∧
          (e.state (n + 1)).ui = (e.state n).ui) ∨
        ∃ a, e.action n = .ui a ∧ UiMove (e.state n) a (e.state (n + 1))) := by
  rcases execution_cases e n with ⟨a, haction, hmove⟩ | ⟨a, haction, hmove⟩ | ⟨a, haction, hmove⟩
  · obtain ⟨hnone, hframes, htracking, hevents, hui⟩ :=
      capture_frame hmove (haction ▸ h.nothing n hn) hcaught.capture
    exact ⟨⟨hnone, hframes.trans hcaught.frames, htracking ▸ hcaught.tracking⟩,
      .inl ⟨by simp [haction, ThreadAction.OfUi], hevents, hui⟩⟩
  · obtain ⟨hcaught', hevents, hui⟩ := hcaught.tracker hmove
    exact ⟨hcaught', .inl ⟨by simp [haction, ThreadAction.OfUi], hevents, hui⟩⟩
  · obtain ⟨hcapture, hframes, htracking⟩ := ui_frame hmove (h.loop n hn)
    exact ⟨⟨hcapture ▸ hcaught.capture, hframes.trans hcaught.frames, htracking ▸ hcaught.tracking⟩,
      .inr ⟨a, haction, hmove⟩⟩

/-- The user interface handles the updates, and draws. -/
theorem exists_drawing (h : Idles e n₀) (hfair : e.Fair ThreadAction.OfUi) {n : ℕ} (hn : n₀ ≤ n)
    (hcaught : (e.state n).CaughtUp) : ∃ m, n ≤ m ∧ (e.state m).Quiet ∧ (e.state m).ui = .drawing := by
  refine Execution.exists_goal (J := CaughtUp) (G := fun s => s.Quiet ∧ s.ui = .drawing)
    (μ := fun s => s.events.length + s.ui.rank) hfair ?_ ?_ hn hcaught
  · intro n hn _ _
    have hloop := h.loop n hn
    have hphase := hloop.phase_eq
    obtain ⟨a, ha⟩ := exists_uiStep (e.state n) hloop.result?_eq
      (fun _ hui => by simp [hui, UiThread.phase] at hphase) (fun _ hui => by simp [hui, UiThread.phase] at hphase)
    exact ⟨.ui a, ⟨a, rfl⟩, ha⟩
  · intro n hn hcaught _
    obtain ⟨hcaught', ⟨hother, hevents, hui⟩ | ⟨a, -, hmove⟩⟩ := h.caughtUp_step hn hcaught
    · refine .inr ⟨hcaught', ?_, fun hC => absurd hC hother⟩
      rw [hevents, hui]
    · rcases backlog_ui hmove (h.loop n hn) (h.loop (n + 1) (Nat.le_succ_of_le hn)) with ⟨hevents, hui⟩ | hlt
      · exact .inl ⟨⟨hcaught', hevents⟩, hui⟩
      · exact .inr ⟨hcaught', Nat.le_of_lt hlt, fun _ => hlt⟩

/-- Once nothing is under way, nothing will be. -/
theorem quiet_step (h : Idles e n₀) {n : ℕ} (hn : n₀ ≤ n) (hquiet : (e.state n).Quiet) :
    (e.state (n + 1)).Quiet := by
  have hnone := hquiet.events
  obtain ⟨hcaught', ⟨-, hevents, -⟩ | ⟨a, -, hmove⟩⟩ := h.caughtUp_step hn hquiet.toCaughtUp
  · exact ⟨hcaught', hevents.trans hnone⟩
  · refine ⟨hcaught', ?_⟩
    generalize e.state (n + 1) = s' at hmove
    cases hmove with
    | handled evt events _ hevents =>
      rw [hnone] at hevents
      cases hevents
    | _ => exact hnone

end Idles

/-- Under a fair scheduler, once nothing more is captured and the user does not quit, the program catches up: it
comes to draw when every frame captured has been through the tracker, up to one over which its thread has panicked,
if it has, and every event that came of them has been handled, and this stays so. -/
theorem eventually_shown (args : Args) (fromEthernet : FromEthernet) (tp : TlsParser) (resolver : ρ)
    (e : Execution (step args fromEthernet tp)) (n₀ : ℕ) (hinit : e.state 0 = init resolver)
    (hcapture : e.Fair ThreadAction.OfCapture) (htracker : e.Fair ThreadAction.OfTracker)
    (hui : e.Fair ThreadAction.OfUi) (hloop : ∀ n, n₀ ≤ n → (e.state n).ui.InLoop)
    (hnothing : ∀ n, n₀ ≤ n → (e.action n).captured? = none) :
    ∃ n, n₀ ≤ n ∧ (e.state n).ui = .drawing ∧ ∀ m, n ≤ m →
      let as := (List.range m).map e.action
      ∃ processed lost, Processed fromEthernet as (e.state m) processed lost ∧
        ∃ os, (e.state m).app = App.new.ops os ∧
          as.filterMap ThreadAction.op? = os.filter (fun o => o.event?.isNone) ∧
          trackerThread tp (.withResolver resolver)
              (segmentsOf fromEthernet (processed.zip (as.filterMap ThreadAction.receivedAt?))) =
            (os.filterMap AppOp.event?, (e.state m).tracker) := by
  have h : Idles e n₀ := ⟨⟨resolver, hinit⟩, hloop, hnothing⟩
  obtain ⟨n₁, hn₁, hnone⟩ := exists_sent hcapture n₀
  obtain ⟨n₂, hn₂, hcaught⟩ := h.exists_caughtUp htracker hn₁ hnone
  obtain ⟨n, hn, hquiet, hdrawing⟩ := h.exists_drawing hui (Nat.le_trans hn₁ hn₂) hcaught
  have hle : n₀ ≤ n := Nat.le_trans (Nat.le_trans hn₁ hn₂) hn
  refine ⟨n, hle, hdrawing, fun m hm => ?_⟩
  intro as
  have hquiet : (e.state m).Quiet :=
    Execution.invariant (J := Quiet) (fun k hk => h.quiet_step hk) hle hquiet hm
  have hrun : runs (step args fromEthernet tp) (init resolver) as = some (e.state m) := hinit ▸ e.runs_state m
  have hphase := (hloop m (Nat.le_trans hle hm)).phase_eq
  obtain ⟨processed, lost, hprocessed, os, happ, hpressed, hthread⟩ := quiet_run hrun (by omega) hquiet
  rw [hprocessed.zip_eq] at hthread
  exact ⟨processed, lost, hprocessed, os, happ, hpressed, hthread⟩

/-- The threads wait for the next frame. -/
structure Waiting (s : Program ρ) : Prop where
  loop : s.ui.InLoop
  capture : s.capture = .looping ∨ s.capture = .polling
  frames : s.frames = []
  tracking : s.tracking = .receiving
  events : s.events = []
  shutdown : s.shutdown = false

end

/-- A turn of the event loop and of the capture thread in which nothing happens. -/
def Reference.idleTurn : List ThreadAction :=
  [.ui (.draw (.ok ())), .ui (.poll (.ok false)), .ui .tick, .ui .tryRecv,
    .capture (.nextFrame (.error .timeoutExpired)), .capture .checkShutdown]

/-- Where the program is when the turn begins. -/
def Reference.Idle (s : Program FixedResolver) : Prop :=
  s.Waiting ∧ s.ui = .drawing ∧ s.capture = .polling

theorem Reference.runs_idleTurn {s : Program FixedResolver} (h : Reference.Idle s) : ∃ s',
    runs (step {} Reference.fromEthernet Reference.parser) s Reference.idleTurn = some s' ∧ Reference.Idle s' := by
  obtain ⟨⟨-, -, hframes, htracking, hevents, hshutdown⟩, hui, hcapture⟩ := h
  cases s with
  | mk shutdown capture frames tracking tracker events ui app =>
    obtain rfl := hframes
    obtain rfl := htracking
    obtain rfl := hevents
    obtain rfl := hui
    obtain rfl := hcapture
    obtain rfl := hshutdown
    exact ⟨_, rfl, ⟨.inr (.inl rfl), .inr rfl, rfl, rfl, rfl, rfl⟩, rfl, rfl⟩

theorem Reference.waiting_step {s s' : Program FixedResolver} {a : ThreadAction} (h : s.Waiting)
    (ha : a ∈ Reference.idleTurn) (hstep : step {} Reference.fromEthernet Reference.parser s a = some s') :
    s'.Waiting := by
  obtain ⟨hloop, hcapture, hframes, htracking, hevents, hshutdown⟩ := h
  simp only [Reference.idleTurn, List.mem_cons, List.not_mem_nil, or_false] at ha
  rcases ha with rfl | rfl | rfl | rfl | rfl | rfl
  · cases uiStep_cases hstep with
    | drawn _ => exact ⟨.inr (.inr (.inl rfl)), hcapture, hframes, htracking, hevents, hshutdown⟩
    | broken e _ hfails => simp [LoopFails] at hfails
  · cases uiStep_cases hstep with
    | polled _ _ => exact ⟨.inr (.inr (.inr (.inr rfl))), hcapture, hframes, htracking, hevents, hshutdown⟩
    | broken e _ hfails => simp [LoopFails] at hfails
  · cases uiStep_cases hstep with
    | ticked _ => exact ⟨.inl rfl, hcapture, hframes, htracking, hevents, hshutdown⟩
    | broken e _ hfails => simp [LoopFails] at hfails
  · cases uiStep_cases hstep with
    | drained _ _ => exact ⟨.inr (.inl rfl), hcapture, hframes, htracking, hevents, hshutdown⟩
    | handled evt events _ hcons =>
      rw [hevents] at hcons
      cases hcons
    | broken e _ hfails => simp [LoopFails] at hfails
  · have hstep : s.captureStep {} _ = some s' := hstep
    cases captureStep_cases hstep with
    | idle _ _ _ => exact ⟨hloop, .inl rfl, hframes, htracking, hevents, hshutdown⟩
    | captured _ frame _ hresult | broken _ _ _ hresult => cases hresult
  · have hstep : s.captureStep {} _ = some s' := hstep
    cases captureStep_cases hstep with
    | checked _ _ => exact ⟨hloop, .inr rfl, hframes, htracking, hevents, hshutdown⟩
    | stopped _ hshut =>
      rw [hshutdown] at hshut
      cases hshut

theorem eventually_shown_idle : ∃ e : Execution (step (ρ := FixedResolver) {} Reference.fromEthernet Reference.parser),
    ∃ n, 15 ≤ n ∧ (e.state n).ui = .drawing ∧ ∀ m, n ≤ m →
      let as := (List.range m).map e.action
      ∃ processed lost, Processed Reference.fromEthernet as (e.state m) processed lost ∧
        ∃ os, (e.state m).app = App.new.ops os ∧
          as.filterMap ThreadAction.op? = os.filter (fun o => o.event?.isNone) ∧
          trackerThread Reference.parser (.withResolver (FixedResolver.mk .unknown))
              (segmentsOf Reference.fromEthernet (processed.zip (as.filterMap ThreadAction.receivedAt?))) =
            (os.filterMap AppOp.event?, (e.state m).tracker) := by
  have hstate : (Reference.program (Reference.startRun.take 15)).map
      (fun s => (s.ui, s.capture, s.frames, s.tracking, s.events, s.shutdown)) =
        some (.drawing, .polling, [], .receiving, [], false) := by rfl
  obtain ⟨s, hs, hidle⟩ := Option.map_eq_some_iff.mp hstate
  simp only [Prod.mk.injEq] at hidle
  obtain ⟨hui, hcapture, hframes, htracking, hevents, hshutdown⟩ := hidle
  have hwaiting : s.Waiting := ⟨.inr (.inl hui), .inr hcapture, hframes, htracking, hevents, hshutdown⟩
  have hpos : 0 < Reference.idleTurn.length := by decide
  obtain ⟨e, hzero, hfirst, haction⟩ := exists_lasso hpos hs (J := Reference.Idle)
    ⟨hwaiting, hui, hcapture⟩ fun _ => Reference.runs_idleTurn
  have hturn : ∀ n, 15 ≤ n → e.action n ∈ Reference.idleTurn := by
    intro n hn
    rw [haction]
    exact lasso_mem hpos hn
  have hwait : ∀ n, 15 ≤ n → (e.state n).Waiting := by
    intro n hn
    refine Execution.invariant (J := Waiting) (fun n hn h => Reference.waiting_step h (hturn n hn) (e.next n))
      (Nat.le_refl 15) ?_ hn
    exact hfirst ▸ hwaiting
  refine ⟨e, eventually_shown {} Reference.fromEthernet Reference.parser _ e 15 hzero ?_ ?_ ?_
    (fun n hn => (hwait n hn).loop) fun n hn => ?_⟩
  · intro n _
    obtain ⟨m, hm, heq⟩ := @exists_lasso_eq _ (Reference.startRun.take 15) _ hpos _
      (show .capture .checkShutdown ∈ Reference.idleTurn by simp [Reference.idleTurn]) n
    exact ⟨m, hm, _, (congrFun haction m).trans heq⟩
  · -- The tracker thread has nothing to do, after the first frame.
    intro n hall
    obtain ⟨_, ⟨a, rfl⟩, ha⟩ := hall (n + 15) (Nat.le_add_right n 15)
    obtain ⟨s', hs'⟩ := Option.ne_none_iff_exists'.mp ha
    obtain ⟨-, hcapture, hframes, htracking, -, -⟩ := hwait (n + 15) (Nat.le_add_left 15 n)
    generalize e.state (n + 15) = t at *
    cases trackerStep_cases hs' with
    | received frame frames _ _ hcons _ | panicked frame frames _ hcons _ =>
      rw [hframes] at hcons
      cases hcons
    | hungUp _ _ hend => rcases hcapture with heq | heq <;> rw [heq] at hend <;> cases hend
    | updated _ _ hthread _ | refused _ _ hthread _ | evicted _ hthread _ _ _ | reported _ hthread _
    | unheard _ hthread _ =>
      rw [htracking] at hthread
      cases hthread
  · intro n _
    obtain ⟨m, hm, heq⟩ := @exists_lasso_eq _ (Reference.startRun.take 15) _ hpos _
      (show .ui .tick ∈ Reference.idleTurn by simp [Reference.idleTurn]) n
    exact ⟨m, hm, _, (congrFun haction m).trans heq⟩
  · have hidle : ∀ a ∈ Reference.idleTurn, a.captured? = none := by
      intro a ha
      simp only [Reference.idleTurn, List.mem_cons, List.not_mem_nil, or_false] at ha
      rcases ha with rfl | rfl | rfl | rfl | rfl | rfl <;> rfl
    exact hidle _ (hturn n hn)

end Program

end SeeHandshake

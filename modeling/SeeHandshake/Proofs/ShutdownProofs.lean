import SeeHandshake.Proofs.ProgramProofs

/-!
# Proofs: how the program ends

Once the shutdown flag is set, every step of a thread brings it closer to its end, so that a run is
bounded by what is left in the channel of frames; and there is a step to take until `run_live` returns.
-/

namespace SeeHandshake

open Lib

/-! ## Ranks -/

/-- The steps that are left to the capture thread after the flag is set, counting four for a frame that
it sends on. -/
def CaptureThread.rank : CaptureThread → ℕ
  | .unspawned | .ended => 0
  | .looping => 1
  | .opening => 2
  | .sending _ => 6
  | .polling => 7

/-- The steps that are left to the tracker thread in its turn, and to hang up. -/
def TrackerThread.rank : TrackerThread → ℕ
  | .unspawned | .ended | .panicked => 0
  | .receiving => 1
  | .reporting _ => 2
  | .evicting _ => 3
  | .updating _ _ => 4

/-- The user quits. -/
def ThreadAction.Quits (a : ThreadAction) : Prop := a = .ui (.read (.ok (.key (.char 'q') .press)))

theorem ThreadAction.quits_key {code : KeyCode} {kind : KeyEventKind} :
    (ThreadAction.ui (.read (.ok (.key code kind)))).Quits ↔ code = .char 'q' ∧ kind = .press := by
  unfold ThreadAction.Quits
  rw [ThreadAction.ui.injEq, UiAction.read.injEq, Except.ok.injEq, CtEvent.key.injEq]

namespace Program

variable {ρ : Type} {args : Args} {fromEthernet : FromEthernet} {tp : TlsParser} {resolver : ρ}
  {s s' : Program ρ} {as : List ThreadAction}

/-- A bound on the steps that are left after the flag is set. -/
def rank (s : Program ρ) : ℕ :=
  s.capture.rank + 4 * s.frames.length + s.tracking.rank + (5 - s.ui.phase)

/-- The threads are to end. -/
structure Ending (s : Program ρ) : Prop extends s.Consistent where
  phase_ge : 3 ≤ s.ui.phase
  phase_le : s.ui.phase ≤ 5

theorem Ending.shutdown_eq (h : s.Ending) : s.shutdown = true := h.shutdown.mpr h.phase_ge

theorem rank_capture {a : CaptureAction} (h : s.Ending) (hmove : CaptureMove s a s') :
    s'.rank < s.rank := by
  have hshut := h.shutdown_eq
  unfold rank
  cases hmove with
  | checked hlooping hrun =>
    rw [hshut] at hrun
    cases hrun
  | sent frame hsending hopen =>
    simp only [hsending, CaptureThread.rank, List.length_append, List.length_singleton]
    omega
  | opened _ hcapture | notOpened _ hcapture | stopped hcapture _ | captured _ _ hcapture _
  | idle _ hcapture _ | broken _ _ hcapture _ | refused _ hcapture _ =>
    simp only [hcapture, CaptureThread.rank]
    omega

theorem rank_tracker [PanickingResolver ρ] {a : TrackerAction}
    (hmove : TrackerMove fromEthernet tp s a s') : s'.rank < s.rank := by
  unfold rank
  cases hmove with
  | received frame frames nowMs hreceiving hframes _ =>
    obtain ⟨tracker, thread, heq, hthread⟩ :=
      ingestFrame_frame { s with frames } fromEthernet tp frame nowMs
    have hle : thread.rank ≤ 4 := by
      cases thread <;> simp [TrackerThread.rank]
    have hone : TrackerThread.receiving.rank = 1 := rfl
    rw [heq]
    simp only [hreceiving, hframes, List.length_cons]
    omega
  | panicked frame frames hreceiving hframes _ =>
    simp only [hreceiving, TrackerThread.rank, List.length_nil]
    omega
  | evicted nowMs hevicting removed tracker _ =>
    simp only [hevicting]
    split_ifs <;> simp only [TrackerThread.rank] <;> omega
  | hungUp htracking _ _ | updated _ _ htracking _ | refused _ _ htracking _ | reported _ htracking _
  | unheard _ htracking _ =>
    simp only [htracking, TrackerThread.rank]
    omega

/-- Of the thread of the user interface, the two joins are left. -/
theorem rank_ui {a : UiAction} (h : s.Ending) (hmove : UiMove s a s') :
    s'.rank < s.rank ∧ 3 ≤ s'.ui.phase ∧ s'.ui.phase ≤ 5 := by
  have hge := h.phase_ge
  unfold rank
  cases hmove with
  | joinedCapture outcome hui _ | joinedTracker outcome hui _ =>
    simp only [hui, UiThread.phase]
    omega
  | setUp next hnext | noTerminal _ next hnext =>
    rcases hnext with ⟨hui, -⟩ | ⟨hui, -⟩ | ⟨hui, -⟩ <;> simp [hui, UiThread.phase] at hge
  | broken _ _ hfails =>
    rcases hfails with ⟨hui, -⟩ | ⟨hui, -⟩ | ⟨hui, -⟩ <;> simp [hui, UiThread.phase] at hge
  | _ => simp_all [UiThread.phase]

theorem Ending.step [PanickingResolver ρ] {a : ThreadAction} (h : s.Ending)
    (hstep : s.step args fromEthernet tp a = some s') : s'.Ending ∧ s'.rank < s.rank := by
  cases a with
  | capture a =>
    have hmove := captureStep_cases hstep
    have hui := ui_of_capture hmove
    exact ⟨⟨h.toConsistent.capture hmove, hui ▸ h.phase_ge, hui ▸ h.phase_le⟩, rank_capture h hmove⟩
  | tracker a =>
    have hmove := trackerStep_cases hstep
    have hui := ui_of_tracker hmove
    exact ⟨⟨h.toConsistent.tracker h.phase_le hmove, hui ▸ h.phase_ge, hui ▸ h.phase_le⟩,
      rank_tracker hmove⟩
  | ui a =>
    have hmove := uiStep_cases hstep
    obtain ⟨hlt, hge, hle⟩ := rank_ui h hmove
    exact ⟨⟨h.toConsistent.ui hmove hle, hge, hle⟩, hlt⟩

/-! ## Progress -/

/-- The capture thread never waits for another one. -/
theorem exists_captureStep (args : Args) (s : Program ρ) (hspawned : s.capture ≠ .unspawned)
    (hrun : s.capture ≠ .ended) : ∃ a, s.captureStep args a ≠ none := by
  unfold captureStep
  cases hcapture : s.capture with
  | unspawned => exact absurd hcapture hspawned
  | ended => exact absurd hcapture hrun
  | opening =>
    refine ⟨.openSource ⟨.ok none, fun _ => .ok (), fun _ => .ok (), fun _ _ => .ok ()⟩, ?_⟩
    simp only
    split <;> exact Option.some_ne_none _
  | looping => exact ⟨.checkShutdown, Option.some_ne_none _⟩
  | polling => exact ⟨.nextFrame (.error .timeoutExpired), Option.some_ne_none _⟩
  | sending frame =>
    refine ⟨.send, ?_⟩
    simp only
    split_ifs <;> exact Option.some_ne_none _

/-- In its turn on a frame the tracker thread never waits. -/
theorem exists_trackerStep_of_turn [PanickingResolver ρ] (fromEthernet : FromEthernet) (tp : TlsParser)
    (s : Program ρ) (hspawned : s.tracking ≠ .unspawned) (hturn : s.tracking ≠ .receiving)
    (hrun : s.tracking ≠ .ended) (hrun' : s.tracking ≠ .panicked) :
    ∃ a, s.trackerStep fromEthernet tp a ≠ none := by
  unfold trackerStep
  cases htracking : s.tracking with
  | unspawned => exact absurd htracking hspawned
  | receiving => exact absurd htracking hturn
  | ended => exact absurd htracking hrun
  | panicked => exact absurd htracking hrun'
  | updating state nowMs =>
    refine ⟨.send, ?_⟩
    simp only
    split_ifs <;> exact Option.some_ne_none _
  | evicting nowMs => exact ⟨.evict, Option.some_ne_none _⟩
  | reporting removed =>
    refine ⟨.send, ?_⟩
    simp only
    split_ifs <;> exact Option.some_ne_none _

/-- A frame is taken in, or the tracker thread panics over it. -/
theorem exists_recv [PanickingResolver ρ] (fromEthernet : FromEthernet) (tp : TlsParser) {s : Program ρ}
    (hreceiving : s.tracking = .receiving) (hframes : s.frames ≠ []) :
    ∃ a, s.trackerStep fromEthernet tp a ≠ none := by
  obtain ⟨frame, frames, hcons⟩ := List.exists_cons_of_ne_nil hframes
  unfold trackerStep
  by_cases hpanics : s.panicsOn fromEthernet frame
  · refine ⟨.panic, ?_⟩
    simp only [hreceiving, hcons, if_pos hpanics]
    exact Option.some_ne_none _
  · refine ⟨.recv 0, ?_⟩
    simp only [hreceiving, hcons, if_neg hpanics]
    exact Option.some_ne_none _

/-- The tracker thread waits for the capture thread only. -/
theorem exists_trackerStep [PanickingResolver ρ] (fromEthernet : FromEthernet) (tp : TlsParser)
    (s : Program ρ) (hspawned : s.tracking ≠ .unspawned) (hrun : s.tracking ≠ .ended)
    (hrun' : s.tracking ≠ .panicked) (hend : s.capture = .ended) :
    ∃ a, s.trackerStep fromEthernet tp a ≠ none := by
  by_cases hreceiving : s.tracking = .receiving
  · by_cases hframes : s.frames = []
    · refine ⟨.hangUp, ?_⟩
      unfold trackerStep
      simp only [hreceiving, if_pos (And.intro hframes hend)]
      exact Option.some_ne_none _
    · exact exists_recv fromEthernet tp hreceiving hframes
  · exact exists_trackerStep_of_turn fromEthernet tp s hspawned hreceiving hrun hrun'

/-- The user interface waits for the other threads only to join them. -/
theorem exists_uiStep (s : Program ρ) (hrun : s.ui.result? = none)
    (hcapture : ∀ outcome, s.ui = .joiningCapture outcome → s.capture = .ended)
    (htracking : ∀ outcome, s.ui = .joiningTracker outcome →
      s.tracking = .ended ∨ s.tracking = .panicked) :
    ∃ a, s.uiStep a ≠ none := by
  unfold uiStep
  cases hui : s.ui with
  | spawningCapture | spawningTracker => exact ⟨.spawn (.ok ()), Option.some_ne_none _⟩
  | enablingRawMode | enteringAlternateScreen | creatingTerminal =>
    exact ⟨.setup (.ok ()), Option.some_ne_none _⟩
  | draining =>
    refine ⟨.tryRecv, ?_⟩
    simp only
    split <;> exact Option.some_ne_none _
  | drawing => exact ⟨.draw (.ok ()), Option.some_ne_none _⟩
  | polling => exact ⟨.poll (.ok true), Option.some_ne_none _⟩
  | reading => exact ⟨.read (.ok .other), Option.some_ne_none _⟩
  | ticking => exact ⟨.tick, Option.some_ne_none _⟩
  | leaving outcome => exact ⟨.teardown, Option.some_ne_none _⟩
  | joiningCapture outcome =>
    refine ⟨.join, ?_⟩
    simp only [if_pos (hcapture outcome hui)]
    exact Option.some_ne_none _
  | joiningTracker outcome =>
    refine ⟨.join, ?_⟩
    simp only [if_pos (htracking outcome hui)]
    exact Option.some_ne_none _
  | returned result =>
    rw [hui] at hrun
    cases hrun
  | failed e =>
    rw [hui] at hrun
    cases hrun

/-- The capture thread is spawned first. -/
theorem spawningCapture_of_unspawned [PanickingResolver ρ]
    (h : runs (Program.step args fromEthernet tp) (init resolver) as = some s)
    (hunspawned : s.capture = .unspawned) : s.ui = .spawningCapture := by
  have hrun : s.capture = .unspawned → s.ui = .spawningCapture := by
    refine runs_invariant (J := fun s => s.capture = .unspawned → s.ui = .spawningCapture)
      (fun t a t' ht hstep hunspawned => ?_) (fun _ => rfl) h
    cases a with
    | capture a => cases captureStep_cases hstep <;> simp_all
    | tracker a =>
      cases trackerStep_cases hstep with
      | received frame frames nowMs _ _ _ =>
        obtain ⟨tracker, thread, heq, -⟩ :=
          ingestFrame_frame { t with frames } fromEthernet tp frame nowMs
        rw [heq] at hunspawned ⊢
        exact ht hunspawned
      | _ => exact ht hunspawned
    | ui a => cases uiStep_cases hstep <;> simp_all [SetupNext, LoopFails]
  exact hrun hunspawned

/-! ## What the program returns -/

/-- What `run_live` is bound to return, once that is known. -/
def promised (s : Program ρ) : Option (Except Error Unit) :=
  match s.ui with
  | .leaving outcome | .joiningCapture outcome | .joiningTracker outcome => some (loopResult outcome)
  | ui => ui.result?

/-- The result is none before it is settled; it is no error if the user quit, and an error of the terminal
if not. -/
def Settled (as : List ThreadAction) (result? : Option (Except Error Unit)) : Prop :=
  (result? = none ∧ ¬ ∃ a ∈ as, a.Quits) ∨ (result? = some (.ok ()) ∧ ∃ a ∈ as, a.Quits) ∨
    ((∃ msg, result? = some (.error (.ui msg))) ∧ ¬ ∃ a ∈ as, a.Quits)

theorem promised_congr (h : s'.ui = s.ui) : s'.promised = s.promised := by
  unfold promised
  rw [h]

theorem promised_of_result {result : Except Error Unit} (h : s.ui.result? = some result) :
    s.promised = some result := by
  unfold promised
  cases hui : s.ui <;> rw [hui] at h <;> first | exact h | cases h

/-- The result is settled once, by the key that quits or by a failure of the terminal. -/
theorem promised_ui {a : UiAction} (hmove : UiMove s a s') :
    (¬ (ThreadAction.ui a).Quits ∧ s'.promised = s.promised) ∨
    (s.promised = none ∧ (ThreadAction.ui a).Quits ∧ s'.promised = some (.ok ())) ∨
    (s.promised = none ∧ ¬ (ThreadAction.ui a).Quits ∧ ∃ msg, s'.promised = some (.error (.ui msg))) := by
  have hother : ∀ {a : UiAction}, (∀ code kind, a ≠ .read (.ok (.key code kind))) →
      ¬ (ThreadAction.ui a).Quits := by
    intro a hne hquit
    exact hne _ _ (ThreadAction.ui.inj hquit)
  cases hmove with
  | quit hui =>
    refine .inr (.inl ⟨?_, rfl, rfl⟩)
    simp [promised, hui, UiThread.result?]
  | broken e a hfails =>
    refine .inr (.inr ⟨?_, ?_, _, rfl⟩)
    · rcases hfails with ⟨hui, -⟩ | ⟨hui, -⟩ | ⟨hui, -⟩ <;> simp [promised, hui, UiThread.result?]
    · rcases hfails with ⟨-, rfl⟩ | ⟨-, rfl⟩ | ⟨-, rfl⟩ <;> exact hother (by simp)
  | noCapture e msg hui | noTracker e msg hui =>
    exact .inr (.inr ⟨by simp [promised, hui, UiThread.result?], hother (by simp), _, rfl⟩)
  | noTerminal e next hnext =>
    refine .inr (.inr ⟨?_, hother (by simp), _, rfl⟩)
    rcases hnext with ⟨hui, -⟩ | ⟨hui, -⟩ | ⟨hui, -⟩ <;> simp [promised, hui, UiThread.result?]
  | setUp next hnext =>
    refine .inl ⟨hother (by simp), ?_⟩
    rcases hnext with ⟨hui, rfl⟩ | ⟨hui, rfl⟩ | ⟨hui, rfl⟩ <;> simp [promised, hui, UiThread.result?]
  | repeated code kind hui hkind =>
    refine .inl ⟨?_, by simp [promised, hui, UiThread.result?]⟩
    exact fun hquit => hkind (ThreadAction.quits_key.mp hquit).2
  | pressed code o hui hop =>
    refine .inl ⟨?_, by simp [promised, hui, UiThread.result?]⟩
    intro hquit
    rw [(ThreadAction.quits_key.mp hquit).1] at hop
    cases hop
  | ignored code hui hne hop =>
    refine .inl ⟨?_, by simp [promised, hui, UiThread.result?]⟩
    exact fun hquit => hne (ThreadAction.quits_key.mp hquit).1
  | polled ready hui =>
    refine .inl ⟨hother (by simp), ?_⟩
    cases ready <;> simp [promised, hui, UiThread.result?]
  | spawnedCapture hui | spawnedTracker hui | drained hui _ | drawn hui | ticked hui | left _ hui
  | joinedCapture _ hui _ | joinedTracker _ hui _ | handled _ _ hui _ | other hui =>
    exact .inl ⟨hother (by simp), by simp [promised, hui, UiThread.result?]⟩

section Runs

variable [PanickingResolver ρ]

/-- Where no thread can take a step, `run_live` has returned and the threads have ended. -/
theorem ended_of_blocked (hunspawned : s.capture = .unspawned → s.ui = .spawningCapture)
    (hs : s.ui.phase ≤ 5 → s.Consistent) (hblocked : Blocked (Program.step args fromEthernet tp) s) :
    s.ui.result?.isSome ∧ s.capture = .ended ∧
      (s.tracking = .unspawned ∨ s.tracking = .ended ∨ s.tracking = .panicked) := by
  have hcapture : s.capture = .ended := by
    by_contra hrun
    have hspawned : s.capture ≠ .unspawned := by
      intro hnone
      have hspawn := hblocked (.ui (.spawn (.ok ())))
      unfold Program.step uiStep at hspawn
      rw [hunspawned hnone] at hspawn
      cases hspawn
    obtain ⟨a, ha⟩ := exists_captureStep args s hspawned hrun
    exact ha (hblocked (.capture a))
  have htracking : s.tracking = .unspawned ∨ s.tracking = .ended ∨ s.tracking = .panicked := by
    by_contra hrun
    push Not at hrun
    obtain ⟨hspawned, hended, hpanicked⟩ := hrun
    obtain ⟨a, ha⟩ := exists_trackerStep fromEthernet tp s hspawned hended hpanicked hcapture
    exact ha (hblocked (.tracker a))
  refine ⟨?_, hcapture, htracking⟩
  by_contra hui
  have hresult : s.ui.result? = none := by simpa using hui
  have hnoturn : ∀ a, s.uiStep a = none := fun a => hblocked (.ui a)
  obtain ⟨a, ha⟩ := exists_uiStep s hresult (fun _ _ => hcapture) fun outcome hjoin => by
    have hs := hs (by simp [hjoin, UiThread.phase])
    rcases htracking with hnone | hended
    · have hphase := hs.tracker_unspawned.mp hnone
      simp [hjoin, UiThread.phase] at hphase
    · exact hended
  exact ha (hnoturn a)

theorem Settled.step {a : ThreadAction} (h : Settled as s.promised)
    (hstep : s.step args fromEthernet tp a = some s') : Settled (as ++ [a]) s'.promised := by
  have hcases : (¬ a.Quits ∧ s'.promised = s.promised) ∨
      (s.promised = none ∧ a.Quits ∧ s'.promised = some (.ok ())) ∨
      (s.promised = none ∧ ¬ a.Quits ∧ ∃ msg, s'.promised = some (.error (.ui msg))) := by
    cases a with
    | capture a => exact .inl ⟨by simp [ThreadAction.Quits], promised_congr (ui_of_capture (captureStep_cases hstep))⟩
    | tracker a => exact .inl ⟨by simp [ThreadAction.Quits], promised_congr (ui_of_tracker (trackerStep_cases hstep))⟩
    | ui a => exact promised_ui (uiStep_cases hstep)
  have hconcat : (∃ x ∈ as ++ [a], x.Quits) ↔ (∃ x ∈ as, x.Quits) ∨ a.Quits := by
    simp [or_and_right, exists_or]
  rcases hcases with ⟨hquit, hsame⟩ | ⟨hnone, hquit, hok⟩ | ⟨hnone, hquit, msg, herror⟩
  · unfold Settled
    rw [hsame, hconcat, or_iff_left hquit]
    exact h
  · exact .inr (.inl ⟨hok, hconcat.mpr (.inr hquit)⟩)
  · refine .inr (.inr ⟨⟨msg, herror⟩, ?_⟩)
    rw [hconcat, or_iff_left hquit]
    rcases h with ⟨-, hnever⟩ | ⟨hsome, -⟩ | ⟨-, hnever⟩
    · exact hnever
    · rw [hnone] at hsome
      cases hsome
    · exact hnever

theorem settled_run (h : runs (Program.step args fromEthernet tp) (init resolver) as = some s) :
    Settled as s.promised := by
  refine runs_history (I := fun as s => Settled as s.promised) (.inl ⟨rfl, ?_⟩)
    (fun as t a t' _ ht hstep => ht.step hstep) h
  rintro ⟨a, ha, -⟩
  exact List.not_mem_nil ha

end Runs

/-! ## Every run ends well -/

section

variable [PanickingResolver ρ]

/-- The threads never deadlock: in every state that the program can reach, some thread can take a step,
or `run_live` has returned and the other threads have ended, the tracker thread maybe by a panic, or were
never spawned. -/
theorem never_deadlocked (args : Args) (fromEthernet : FromEthernet) (tp : TlsParser) (resolver : ρ)
    (as : List ThreadAction) (s : Program ρ)
    (hrun : runs (step args fromEthernet tp) (init resolver) as = some s) :
    (∃ a, (step args fromEthernet tp s a).isSome) ∨
      (s.ui.result?.isSome ∧ s.capture = .ended ∧
        (s.tracking = .unspawned ∨ s.tracking = .ended ∨ s.tracking = .panicked)) := by
  by_cases hblocked : Blocked (step args fromEthernet tp) s
  · exact .inr (ended_of_blocked (spawningCapture_of_unspawned hrun) (consistent_run hrun) hblocked)
  · left
    unfold Blocked at hblocked
    push Not at hblocked
    obtain ⟨a, ha⟩ := hblocked
    exact ⟨a, Option.isSome_iff_ne_none.mpr ha⟩

theorem never_deadlocked_start : ∃ s, Reference.program Reference.startRun = some s ∧
    ((∃ a, (s.step {} Reference.fromEthernet Reference.parser a).isSome) ∨
      (s.ui.result?.isSome ∧ s.capture = .ended ∧
        (s.tracking = .unspawned ∨ s.tracking = .ended ∨ s.tracking = .panicked))) := by
  have hsome : (Reference.program Reference.startRun).isSome = true := by rfl
  obtain ⟨s, hs⟩ := Option.isSome_iff_exists.mp hsome
  exact ⟨s, hs, never_deadlocked {} Reference.fromEthernet Reference.parser _ Reference.startRun s hs⟩

theorem promised_step {outcome : Except Error Unit} {a : ThreadAction}
    (h : s.promised = some outcome) (hstep : s.step args fromEthernet tp a = some s') :
    s'.promised = some outcome := by
  cases a with
  | capture a => rw [promised_congr (ui_of_capture (captureStep_cases hstep)), h]
  | tracker a => rw [promised_congr (ui_of_tracker (trackerStep_cases hstep)), h]
  | ui a =>
    rcases promised_ui (uiStep_cases hstep) with ⟨-, hsame⟩ | ⟨hnone, -⟩ | ⟨hnone, -⟩
    · rw [hsame, h]
    · rw [h] at hnone
      cases hnone
    · rw [h] at hnone
      cases hnone

/-- After the shutdown flag is set, the threads take at most four steps for each frame in the channel and
13 more, in whatever order; `run_live` can return from every state on the way, and where no thread can
take a step, it has returned the outcome of the event loop. -/
theorem shutdown_bounded (args : Args) (fromEthernet : FromEthernet) (tp : TlsParser) (resolver : ρ)
    (as bs : List ThreadAction) (s s' : Program ρ) (outcome : Except Error Unit)
    (hrun : runs (step args fromEthernet tp) (init resolver) as = some s)
    (hui : s.ui = .joiningCapture outcome)
    (hrest : runs (step args fromEthernet tp) s bs = some s') :
    bs.length ≤ 4 * s.frames.length + 13 ∧
      (Blocked (step args fromEthernet tp) s' → s'.ui = .returned (loopResult outcome)) ∧
      ∃ cs t, runs (step args fromEthernet tp) s' cs = some t ∧ t.ui = .returned (loopResult outcome) := by
  have hending : s.Ending :=
    ⟨consistent_run hrun (by simp [hui, UiThread.phase]), by simp [hui, UiThread.phase],
      by simp [hui, UiThread.phase]⟩
  have hpromised : s.promised = some (loopResult outcome) := by
    unfold promised
    rw [hui]
  have hstep : ∀ (t : Program ρ) a t', (t.Ending ∧ t.promised = some (loopResult outcome)) →
      step args fromEthernet tp t a = some t' →
      (t'.Ending ∧ t'.promised = some (loopResult outcome)) ∧ t'.rank < t.rank := by
    rintro t a t' ⟨ht, hp⟩ ha
    obtain ⟨ht', hlt⟩ := ht.step ha
    exact ⟨⟨ht', promised_step hp ha⟩, hlt⟩
  have hblocked : ∀ t : Program ρ, (t.Ending ∧ t.promised = some (loopResult outcome)) →
      Blocked (step args fromEthernet tp) t → t.ui = .returned (loopResult outcome) := by
    rintro t ⟨ht, hp⟩ hblocked
    have hspawned : t.capture ≠ .unspawned := by
      rw [Ne, ht.capture_unspawned]
      have := ht.phase_ge
      omega
    obtain ⟨hresult, -, -⟩ := ended_of_blocked (fun hnone => absurd hnone hspawned)
      (fun _ => ht.toConsistent) hblocked
    obtain ⟨result, hresult⟩ := Option.isSome_iff_exists.mp hresult
    rw [promised_of_result hresult, Option.some.injEq] at hp
    subst hp
    have hle := ht.phase_le
    cases hend : t.ui <;> rw [hend] at hresult hle <;> simp_all [UiThread.result?, UiThread.phase]
  obtain ⟨hs', hlen⟩ := runs_rank hstep ⟨hending, hpromised⟩ hrest
  refine ⟨?_, hblocked s' hs', exists_runs_done hstep hblocked hs'⟩
  have hcapture : s.capture.rank ≤ 7 := by
    cases s.capture <;> simp [CaptureThread.rank]
  have htracking : s.tracking.rank ≤ 4 := by
    cases s.tracking <;> simp [TrackerThread.rank]
  have hphase : s.ui.phase = 3 := by
    rw [hui]
    rfl
  unfold rank at hlen
  omega

theorem shutdown_bounded_quit : ∃ s s', Reference.program (Reference.quitRun.take 32) = some s ∧
    runs (step {} Reference.fromEthernet Reference.parser) s (Reference.quitRun.drop 32) = some s' ∧
    (Reference.quitRun.drop 32).length ≤ 4 * s.frames.length + 13 ∧
      (Blocked (step {} Reference.fromEthernet Reference.parser) s' →
        s'.ui = .returned (loopResult (.ok ()))) ∧
      ∃ cs t, runs (step {} Reference.fromEthernet Reference.parser) s' cs = some t ∧
        t.ui = .returned (loopResult (.ok ())) := by
  have hui : (Reference.program (Reference.quitRun.take 32)).map Program.ui =
      some (.joiningCapture (.ok ())) := by rfl
  obtain ⟨s, hs, hjoining⟩ := Option.map_eq_some_iff.mp hui
  have hrest : ((Reference.program (Reference.quitRun.take 32)).bind fun s =>
      runs (step {} Reference.fromEthernet Reference.parser) s (Reference.quitRun.drop 32)).isSome = true := by
    rfl
  rw [hs, Option.bind_some] at hrest
  obtain ⟨s', hs'⟩ := Option.isSome_iff_exists.mp hrest
  exact ⟨s, s', hs, hs', shutdown_bounded {} Reference.fromEthernet Reference.parser _ _ _ s s' (.ok ()) hs
    hjoining hs'⟩

/-- The exit code of a live run is 0 iff the user quit, and 1 otherwise, when the terminal failed. A
capture that fails, for want of privileges or otherwise, is told neither by the exit code nor by the
output of `main`, which never has the hint about privileges. -/
theorem live_exit (args : Args) (fromEthernet : FromEthernet) (tp : TlsParser) (resolver : ρ)
    (as : List ThreadAction) (s : Program ρ) (result : Except Error Unit)
    (devices : Except String (List PcapDevice)) (hlive : args.listInterfaces = false)
    (hrun : runs (step args fromEthernet tp) (init resolver) as = some s)
    (hresult : s.ui.result? = some result) :
    let exit := args.main (.ok ()) devices result
    (exit = { code := 0 } ∧ ∃ a ∈ as, a.Quits) ∨
      ((∃ msg, exit = { code := 1, stderr := ["seehandshake: running the terminal UI: UI error: " ++ msg] }) ∧
        ¬ ∃ a ∈ as, a.Quits) := by
  intro exit
  have hsettled := settled_run hrun
  rw [promised_of_result hresult] at hsettled
  have hexit : exit = args.main (.ok ()) devices result := rfl
  unfold Args.main Args.run at hexit
  rw [if_neg (by simp [hlive])] at hexit
  rcases hsettled with ⟨hnone, -⟩ | ⟨hok, hquit⟩ | ⟨⟨msg, herror⟩, hnever⟩
  · cases hnone
  · obtain rfl := Option.some.inj hok
    exact .inl ⟨hexit, hquit⟩
  · obtain rfl := Option.some.inj herror
    refine .inr ⟨⟨msg, ?_⟩, hnever⟩
    have htext : "seehandshake: " ++ (ContextError.mk "running the terminal UI" (.ui msg)).toString =
        "seehandshake: running the terminal UI: UI error: " ++ msg := by
      unfold ContextError.toString Error.toString
      rw [← String.append_assoc, ← String.append_assoc]
      rfl
    rw [hexit, ← htext]
    rfl

/-- A run in which the capture handle cannot be opened, and the user quits. -/
def Reference.deniedRun : List ThreadAction :=
  [.ui (.spawn (.ok ())),
    .capture (.openSource { Reference.pcap with activate := fun _ => .error "Operation not permitted" }),
    .ui (.spawn (.ok ())), .tracker .hangUp, .ui (.setup (.ok ())), .ui (.setup (.ok ())),
    .ui (.setup (.ok ())), .ui .tryRecv, .ui (.draw (.ok ())), .ui (.poll (.ok true)),
    .ui (.read (.ok (.key (.char 'q') .press))), .ui .teardown, .ui .join, .ui .join]

theorem live_exit_denied : ∃ s result, Reference.program Reference.deniedRun = some s ∧
    s.ui.result? = some result ∧
    let exit := Args.main {} (.ok ()) (.error "Operation not permitted") result
    (exit = { code := 0 } ∧ ∃ a ∈ Reference.deniedRun, a.Quits) ∨
      ((∃ msg, exit = { code := 1, stderr := ["seehandshake: running the terminal UI: UI error: " ++ msg] }) ∧
        ¬ ∃ a ∈ Reference.deniedRun, a.Quits) := by
  have hui : (Reference.program Reference.deniedRun).map (fun s => s.ui.result?) = some (some (.ok ())) := by
    rfl
  obtain ⟨s, hs, hresult⟩ := Option.map_eq_some_iff.mp hui
  exact ⟨s, .ok (), hs, hresult, live_exit {} Reference.fromEthernet Reference.parser _ Reference.deniedRun s
    (.ok ()) (.error "Operation not permitted") rfl hs hresult⟩

end

end Program

end SeeHandshake

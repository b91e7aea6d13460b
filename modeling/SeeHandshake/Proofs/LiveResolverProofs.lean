import SeeHandshake.Proofs.AttributionProofs
import SeeHandshake.Proofs.ProgramProofs

/-!
# Proofs: when the tracker thread panics

The tracker thread panics over a frame iff the resolver does over its connection. On Linux this is the case iff the
resolver reads `/proc` and comes upon a command line that it cannot cut.
-/

namespace SeeHandshake

open Lib

/-! ## The resolver -/

/-- The calls of the resolvers in `I` return, and leave them in `I`. -/
def PanickingResolver.Returns {ρ : Type} [PanickingResolver ρ] (I : ρ → Prop) : Prop :=
  ∀ r a b, I r → ∃ answer, tryResolve r a b = .ok answer ∧ I answer.2

theorem NullOriginResolver.returns : PanickingResolver.Returns fun _ : NullOriginResolver => True :=
  fun _ _ _ _ => ⟨_, rfl, trivial⟩

/-- Nothing that the calls will see makes them panic. -/
def LiveResolver.Cuttable (r : LiveResolver) : Prop := ∀ n, ¬ (r.moments n).image.ReadsStraddling

theorem LiveResolver.resolve_isOk_iff (r : LiveResolver) (a b : SocketAddr) :
    (r.resolve a b).isOk ↔
      ¬ (r.resolver.stale (r.moments 0) = true ∧ (r.moments 0).image.ReadsStraddling) := by
  rw [← r.resolver.resolve_returns_iff (r.moments 0) a b]
  unfold LiveResolver.resolve
  cases r.resolver.resolve (r.moments 0) a b with
  | error e =>
    refine iff_of_false Bool.false_ne_true ?_
    rintro ⟨o, r', h⟩
    cases h
  | ok answer => exact iff_of_true rfl ⟨_, _, rfl⟩

theorem LiveResolver.returns : PanickingResolver.Returns LiveResolver.Cuttable := by
  intro r a b h
  obtain ⟨o, resolver, hanswer⟩ :=
    (r.resolver.resolve_returns_iff (r.moments 0) a b).mpr fun hreads => h 0 hreads.2
  refine ⟨(o, { resolver, moments := fun n => r.moments (n + 1) }), ?_, fun n => h (n + 1)⟩
  show r.resolve a b = _
  unfold LiveResolver.resolve
  rw [hanswer]
  rfl

/-! ## The program -/

namespace Program

variable {ρ : Type} {args : Args} {fromEthernet : FromEthernet} {tp : TlsParser}

/-- The tracker thread panics over the first payload of a connection, if the resolver does. -/
theorem panicsOn_iff [PanickingResolver ρ] (s : Program ρ) (frame : Frame) :
    s.panicsOn fromEthernet frame ↔
      ∃ seg, extractTcp fromEthernet frame.bytes = some seg ∧ seg.payload ≠ [] ∧ ¬ s.tracker.Tracks seg.key ∧
        ¬ (PanickingResolver.tryResolve s.tracker.resolver ⟨seg.srcIp, seg.srcPort⟩ ⟨seg.dstIp, seg.dstPort⟩).isOk := by
  unfold panicsOn
  cases extractTcp fromEthernet frame.bytes with
  | none =>
    refine iff_of_false Bool.false_ne_true ?_
    rintro ⟨seg, h, -⟩
    cases h
  | some seg =>
    simp only [Option.some.injEq, exists_eq_left']
    unfold ConnectionTracker.ingestPanics ConnectionTracker.Tracks
    simp [and_assoc]

/-- On Linux, the tracker thread panics over the first payload of a connection iff there is no snapshot to be
trusted, and `/proc` has the socket of some process with a command line that cannot be cut. -/
theorem panicsOn_live_iff (s : Program LiveResolver) (frame : Frame) :
    s.panicsOn fromEthernet frame ↔
      ∃ seg, extractTcp fromEthernet frame.bytes = some seg ∧ seg.payload ≠ [] ∧ ¬ s.tracker.Tracks seg.key ∧
        s.tracker.resolver.resolver.stale (s.tracker.resolver.moments 0) = true ∧
        (s.tracker.resolver.moments 0).image.ReadsStraddling := by
  rw [panicsOn_iff]
  refine exists_congr fun seg => and_congr_right fun _ => and_congr_right fun _ => and_congr_right fun _ => ?_
  rw [show PanickingResolver.tryResolve s.tracker.resolver _ _ = s.tracker.resolver.resolve _ _ from rfl,
    LiveResolver.resolve_isOk_iff, not_not]

section

variable [PanickingResolver ρ] {I : ρ → Prop} {s s' : Program ρ}

/-- A call of `ingest` asks the resolver at most once. -/
theorem resolver_call {t : ConnectionTracker ρ} (hI : PanickingResolver.Returns I) (c : Call)
    (h : I t.resolver) : I (t.call tp c).resolver := by
  by_cases hempty : c.payload = []
  · rwa [ConnectionTracker.call_of_nil hempty]
  · rw [ConnectionTracker.call_of_ne_nil hempty]
    show I (t.target c).2
    cases hlookup : t.connections.lookup c.key with
    | some conn => rwa [ConnectionTracker.target_of_some hlookup]
    | none =>
      obtain ⟨answer, hanswer, hkept⟩ := hI t.resolver c.endpointA c.endpointB h
      rw [ConnectionTracker.target_of_none hlookup, PanickingResolver.resolve_eq _ _ _ _ hanswer]
      exact hkept

theorem resolver_ingestFrame (hI : PanickingResolver.Returns I) (frame : Frame) (nowMs : UInt64)
    (h : I s.tracker.resolver) :
    I (s.ingestFrame fromEthernet tp frame nowMs).tracker.resolver := by
  unfold ingestFrame
  cases extractTcp fromEthernet frame.bytes with
  | none => exact h
  | some seg =>
    have hcall := @resolver_call _ tp _ _ _ hI (seg.call nowMs) h
    simp only
    split <;> exact hcall

/-- A step of a thread, while the calls of the resolver return. -/
theorem not_panicked_step (hI : PanickingResolver.Returns I) {a : ThreadAction}
    (h : I s.tracker.resolver ∧ s.tracking ≠ .panicked) (hstep : s.step args fromEthernet tp a = some s') :
    I s'.tracker.resolver ∧ s'.tracking ≠ .panicked := by
  obtain ⟨hresolver, hrun⟩ := h
  cases a with
  | capture a => cases captureStep_cases hstep <;> exact ⟨hresolver, hrun⟩
  | ui a =>
    cases uiStep_cases hstep with
    | spawnedTracker _ | noTracker _ _ _ => exact ⟨hresolver, TrackerThread.noConfusion⟩
    | _ => exact ⟨hresolver, hrun⟩
  | tracker a =>
    cases trackerStep_cases hstep with
    | received frame frames nowMs hreceiving _ _ =>
      refine ⟨@resolver_ingestFrame _ _ _ _ _ { s with frames } hI frame nowMs hresolver, ?_⟩
      obtain ⟨tracker, thread, heq, hthread⟩ := ingestFrame_frame { s with frames } fromEthernet tp frame nowMs
      rw [heq]
      rcases hthread with rfl | ⟨state, rfl⟩ | rfl
      · exact hrun
      · exact TrackerThread.noConfusion
      · exact TrackerThread.noConfusion
    | panicked frame frames _ _ hpanics =>
      obtain ⟨seg, -, -, -, hnot⟩ := (panicsOn_iff s frame).mp hpanics
      obtain ⟨answer, hanswer, -⟩ := hI _ ⟨seg.srcIp, seg.srcPort⟩ ⟨seg.dstIp, seg.dstPort⟩ hresolver
      rw [hanswer] at hnot
      exact absurd rfl hnot
    | evicted nowMs _ removed tracker hevict =>
      have htracker : tracker = (s.tracker.evictStale nowMs).2 := (congrArg Prod.snd hevict).symm
      refine ⟨htracker ▸ hresolver, ?_⟩
      split_ifs <;> exact TrackerThread.noConfusion
    | hungUp _ _ _ | updated _ _ _ _ | refused _ _ _ _ | reported _ _ _ | unheard _ _ _ =>
      exact ⟨hresolver, TrackerThread.noConfusion⟩

/-- As long as every call of the resolver returns, the tracker thread does not panic. -/
theorem not_panicked_run {resolver : ρ} {as : List ThreadAction} (hI : PanickingResolver.Returns I)
    (hresolver : I resolver) (hrun : runs (step args fromEthernet tp) (init resolver) as = some s) :
    s.tracking ≠ .panicked := by
  have hkept := runs_invariant (J := fun s : Program ρ => I s.tracker.resolver ∧ s.tracking ≠ .panicked)
    (fun _ _ _ h hstep => not_panicked_step hI h hstep) ⟨hresolver, TrackerThread.noConfusion⟩ hrun
  exact hkept.2

end

/-- On Linux, the tracker thread does not panic in a run as long as `/proc` shows no command line that cannot be
cut. -/
theorem live_not_panicked {resolver : LiveResolver} {as : List ThreadAction} {s : Program LiveResolver}
    (hresolver : resolver.Cuttable) (hrun : runs (step args fromEthernet tp) (init resolver) as = some s) :
    s.tracking ≠ .panicked :=
  not_panicked_run LiveResolver.returns hresolver hrun

/-- Where there is no resolver, the tracker thread never panics. -/
theorem null_not_panicked {resolver : NullOriginResolver} {as : List ThreadAction} {s : Program NullOriginResolver}
    (hrun : runs (step args fromEthernet tp) (init resolver) as = some s) : s.tracking ≠ .panicked :=
  not_panicked_run NullOriginResolver.returns trivial hrun

end Program

end SeeHandshake

import SeeHandshake.Proofs.DisplayProofs
import SeeHandshake.Proofs.LifetimeProofs

/-!
# Proofs: the account of evictions

Every connection that was ever opened is tracked or was evicted, and the user interface counts the evicted ones.
-/

namespace SeeHandshake

open Lib

/-! ## The events -/

/-- The evictions that events tell of. -/
def removedIn : List UiEvent → ℕ
  | [] => 0
  | .staleEvicted removed :: evts => removed + removedIn evts
  | .handshakeUpdated _ :: evts => removedIn evts

theorem removedIn_append (evts evts' : List UiEvent) :
    removedIn (evts ++ evts') = removedIn evts + removedIn evts' := by
  induction evts with
  | nil => exact (Nat.zero_add _).symm
  | cons evt evts ih =>
    cases evt with
    | staleEvicted removed =>
      rw [List.cons_append, removedIn, removedIn, ih, Nat.add_assoc]
    | handshakeUpdated state => exact ih

/-- The counter of the user interface adds up what it was told, until it saturates. -/
theorem App.Valid.evicted_ops {app : App} (h : app.Valid) {n : ℕ} (hn : app.evicted = min n 18446744073709551615)
    (os : List AppOp) :
    (app.ops os).evicted = min (n + removedIn (os.filterMap AppOp.event?)) 18446744073709551615 := by
  induction os generalizing app n with
  | nil => exact hn
  | cons o os ih =>
    show ((app.op o).ops os).evicted = _
    cases hevent : o.event? with
    | none =>
      have hframe := @App.op_shown app o hevent
      rw [List.filterMap_cons_none hevent]
      exact ih (h.op o) (hframe.1.trans hn)
    | some evt =>
      obtain rfl := AppOp.eq_handleUiEvent hevent
      rw [List.filterMap_cons_some hevent]
      have hcount : (app.op (.handleUiEvent evt)).evicted = _ := h.toListed.handleUiEvent_evicted_eq evt
      cases evt with
      | handshakeUpdated state => exact ih (h.op _) (hcount.trans hn)
      | staleEvicted removed =>
        have hsum : usizeSaturatingAdd app.evicted removed = min (n + removed) 18446744073709551615 := by
          unfold usizeSaturatingAdd
          omega
        rw [removedIn, ← Nat.add_assoc]
        exact ih (h.op _) (hcount.trans hsum)

/-! ## The tracker -/

/-- The operations of the tracker in the turns of its thread. -/
def turnOps : List (TcpSegment × UInt64) → List TrackerOp
  | [] => []
  | (seg, nowMs) :: segs => .ingest (seg.call nowMs) :: .evictStale nowMs :: turnOps segs

namespace ConnectionTracker

variable {ρ : Type} {t : ConnectionTracker ρ}

/-- An eviction takes away what it counts. -/
theorem length_keys_evictStale (nowMs : UInt64) :
    (t.evictStale nowMs).2.connections.keys.length + (t.evictStale nowMs).1 = t.connections.keys.length := by
  have hsub : (t.evictStale nowMs).2.connections.keys.Sublist t.connections.keys :=
    List.filter_sublist.map Sigma.fst
  have hcount : (t.evictStale nowMs).1 =
      t.connections.keys.length - (t.evictStale nowMs).2.connections.keys.length := rfl
  have hle := hsub.length_le
  omega

variable [OriginResolver ρ] {tp : TlsParser}

/-- A call adds a connection iff it opens one. -/
theorem length_keys_call (c : Call) :
    (t.call tp c).connections.keys.length = t.connections.keys.length + (t.openings tp [.ingest c]).length := by
  have hopens : t.openings tp [.ingest c] = if ¬ t.Tracks c.key ∧ (t.call tp c).Tracks c.key then [c] else [] :=
    List.append_nil _
  have hafter : (t.call tp c).Tracks c.key ↔ c.Touches c.key ∨ t.Tracks c.key := tracks_call
  rw [hopens]
  by_cases hempty : c.payload = []
  · have hsame : t.call tp c = t := call_of_nil hempty
    rw [if_neg fun hopen => hopen.1 (hsame ▸ hopen.2), hsame]
    rfl
  · have htouch : c.Touches c.key := ⟨rfl, hempty⟩
    have hkeys : (t.call tp c).connections.keys = c.key :: t.connections.keys.erase c.key := by
      rw [call_of_ne_nil hempty, AList.keys_insert]
    rw [hkeys, List.length_cons]
    by_cases htracks : t.Tracks c.key
    · have hmem : c.key ∈ t.connections.keys := AList.mem_keys.mpr (AList.lookup_isSome.mp htracks)
      have hpos := List.length_pos_of_mem hmem
      rw [if_neg fun hopen => hopen.1 htracks, List.length_erase_of_mem hmem, List.length_nil]
      omega
    · have hnot : c.key ∉ t.connections.keys := fun hmem => htracks (AList.lookup_isSome.mpr (AList.mem_keys.mp hmem))
      rw [if_pos ⟨htracks, hafter.mpr (.inl htouch)⟩, List.erase_of_not_mem hnot, List.length_singleton]

/-- In a turn, what is opened is tracked after it, or told as evicted. -/
theorem length_keys_turn (x : TcpSegment × UInt64) :
    (trackerTurn tp t x.1 x.2).2.connections.keys.length + removedIn (trackerTurn tp t x.1 x.2).1 =
      t.connections.keys.length + (t.openings tp [.ingest (x.1.call x.2)]).length := by
  have htold : removedIn (trackerTurn tp t x.1 x.2).1 = ((t.call tp (x.1.call x.2)).evictStale x.2).1 := by
    rw [trackerTurn_fst, removedIn_append]
    have hupdate : ∀ (p : Prop) [Decidable p] (state : ConnectionState),
        removedIn (if p then [] else [UiEvent.handshakeUpdated state]) = 0 := by
      intro p _ state
      split_ifs <;> rfl
    rw [hupdate, Nat.zero_add]
    simp only
    split_ifs with hpos
    · rfl
    · exact (Nat.eq_zero_of_not_pos hpos).symm
  rw [trackerTurn_snd, htold, length_keys_evictStale, length_keys_call]

theorem length_keys_thread (segs : List (TcpSegment × UInt64)) :
    (trackerThread tp t segs).2.connections.keys.length + removedIn (trackerThread tp t segs).1 =
      t.connections.keys.length + (t.openings tp (turnOps segs)).length := by
  induction segs generalizing t with
  | nil => rfl
  | cons x segs ih =>
    have hturn := @length_keys_turn ρ t _ tp x
    have hrest := @ih (trackerTurn tp t x.1 x.2).2
    have hopenings : t.openings tp (turnOps (x :: segs)) =
        t.openings tp [.ingest (x.1.call x.2)] ++ (trackerTurn tp t x.1 x.2).2.openings tp (turnOps segs) := by
      show t.openings tp (.ingest _ :: .evictStale _ :: turnOps segs) = _
      rw [openings_cons]
      rfl
    show (trackerThread tp (trackerTurn tp t x.1 x.2).2 segs).2.connections.keys.length +
      removedIn ((trackerTurn tp t x.1 x.2).1 ++ (trackerThread tp (trackerTurn tp t x.1 x.2).2 segs).1) = _
    rw [removedIn_append, hopenings, List.length_append]
    omega

end ConnectionTracker

/-! ## The program -/

namespace Program

variable {ρ : Type} [PanickingResolver ρ]

/-- The counter of evictions is right: in every run, with wipes, once nothing is under way it is the number of
connections that were opened less those that are tracked, unless that does not fit. -/
theorem evictions_counted (args : Args) (fromEthernet : FromEthernet) (tp : TlsParser) (resolver : ρ)
    (as : List ThreadAction) (s : Program ρ)
    (hrun : runs (step args fromEthernet tp) (init resolver) as = some s) (hfail : ∀ e, s.ui ≠ .failed e)
    (hquiet : s.Quiet) :
    let opened := ((ConnectionTracker.withResolver resolver).openings tp (turnOps (segments fromEthernet as))).length
    s.tracker.connections.keys.length ≤ opened ∧
      s.app.evicted = min (opened - s.tracker.connections.keys.length) 18446744073709551615 := by
  intro opened
  obtain ⟨_, _, -, os, happ, -, hthread⟩ := quiet_run hrun (UiThread.phase_le hfail) hquiet
  have hcounted := App.valid_new.evicted_ops (show App.new.evicted = min 0 _ from rfl) os
  have hsum := @ConnectionTracker.length_keys_thread ρ (.withResolver resolver) _ tp (segments fromEthernet as)
  rw [show trackerThread tp (.withResolver resolver) (segments fromEthernet as) = _ from hthread] at hsum
  have hempty : (ConnectionTracker.withResolver resolver).connections.keys.length = 0 := rfl
  simp only [hempty, Nat.zero_add] at hsum
  rw [Nat.zero_add, ← happ] at hcounted
  have htracked : s.tracker.connections.keys.length + removedIn (os.filterMap AppOp.event?) = opened := hsum
  refine ⟨by omega, ?_⟩
  rw [hcounted, ← htracked, Nat.add_sub_cancel_left]

/-- A connection is evicted when another one comes in after more than five minutes. -/
def Reference.evictRun : List ThreadAction :=
  Reference.talkRun [(Reference.frameBytes, 7)] ++
  [.capture .checkShutdown, .capture (.nextFrame (.ok ⟨1700000000, 0, Reference.otherBytes⟩)), .capture .send,
    .tracker (.recv 400000), .tracker .send, .tracker .evict, .tracker .send, .ui .tryRecv, .ui .tryRecv]

theorem evictions_counted_one : ∃ s, Reference.program Reference.evictRun = some s ∧ s.app.evicted = 1 ∧
    let opened := ((ConnectionTracker.withResolver (FixedResolver.mk .unknown)).openings Reference.parser
      (turnOps (segments Reference.fromEthernet Reference.evictRun))).length
    s.tracker.connections.keys.length ≤ opened ∧
      s.app.evicted = min (opened - s.tracker.connections.keys.length) 18446744073709551615 := by
  have hstate : (Reference.program Reference.evictRun).map
      (fun s => (s.ui, s.capture, s.frames, s.tracking, s.events, s.app.evicted)) =
        some (.draining, .looping, [], .receiving, [], 1) := by rfl
  obtain ⟨s, hs, hquiet⟩ := Option.map_eq_some_iff.mp hstate
  simp only [Prod.mk.injEq] at hquiet
  obtain ⟨hui, hcapture, hframes, htracking, hevents, hevicted⟩ := hquiet
  exact ⟨s, hs, hevicted, evictions_counted {} Reference.fromEthernet Reference.parser _ _ s hs (by simp [hui])
    ⟨⟨by simp [hcapture], hframes, .inl htracking⟩, hevents⟩⟩

end Program

end SeeHandshake

import SeeHandshake.Proofs.FlightProofs
import SeeHandshake.Proofs.ProgramProofs
import SeeHandshake.Proofs.RecordLinesProofs

/-!
# The records that are shown

What holds of a connection when it is new, and is kept by every segment, holds of every connection that the
user interface shows. So every record that is shown is one that was framed.
-/

namespace SeeHandshake

open Lib ConnectionTracker

section Thread

variable {ρ : Type} [OriginResolver ρ] {tp : TlsParser} {P : ConnectionState → Prop}

/-- What holds of new connections and is kept by segments holds of every state that the tracker thread tells. -/
theorem trackerThread_forall (hcreated : ∀ key nowMs origin, P (TrackedConnection.created key nowMs origin).state)
    (hingest : ∀ (conn : TrackedConnection) d payload nowMs, payload ≠ [] → P conn.state →
      P (conn.ingest tp d payload nowMs).state) {t : ConnectionTracker ρ}
    (ht : ∀ key conn, t.connections.lookup key = some conn → P conn.state) (segs : List (TcpSegment × UInt64))
    (state : ConnectionState) (hstate : .handshakeUpdated state ∈ (trackerThread tp t segs).1) : P state := by
  induction segs generalizing t with
  | nil => exact absurd hstate List.not_mem_nil
  | cons x segs ih =>
    have htarget : P (t.target (x.1.call x.2)).1.state := by
      rw [target_fst]
      cases hlookup : t.connections.lookup (x.1.call x.2).key with
      | none => exact hcreated _ _ _
      | some conn => exact ht _ conn hlookup
    rcases List.mem_append.mp hstate with hturn | hrest
    · rw [trackerTurn_fst] at hturn
      rcases List.mem_append.mp hturn with hupdate | hevict
      · split_ifs at hupdate with hempty
        · exact absurd hupdate List.not_mem_nil
        · obtain rfl := UiEvent.handshakeUpdated.inj (List.mem_singleton.mp hupdate)
          exact hingest _ _ _ _ hempty htarget
      · simp only at hevict
        split_ifs at hevict
        · cases List.mem_singleton.mp hevict
        · exact absurd hevict List.not_mem_nil
    · refine ih ?_ hrest
      intro key conn hconn
      rw [trackerTurn_snd, lookup_evictStale] at hconn
      obtain ⟨hconn, -⟩ := Option.filter_eq_some_iff.mp hconn
      by_cases hempty : x.1.payload = []
      · rw [call_of_nil (show (x.1.call x.2).payload = [] from hempty)] at hconn
        exact ht key conn hconn
      · rw [lookup_call (show (x.1.call x.2).payload ≠ [] from hempty)] at hconn
        split_ifs at hconn
        · obtain rfl := Option.some.inj hconn
          exact hingest _ _ _ _ hempty htarget
        · exact ht key conn hconn

/-- What holds of every state that came in holds of every state that is shown. -/
theorem App.ops_forall {os : List AppOp}
    (h : ∀ state, .handshakeUpdated state ∈ os.filterMap AppOp.event? → P state) (key : ConnectionKey)
    (held : ConnectionState) (hheld : (App.new.ops os).connections.lookup key = some held) : P held := by
  have hlookup := App.valid_new.lookup_ops (fun _ _ h => h) os key held hheld
  -- The copies are made of the events.
  have hfold : ∀ (evts : List UiEvent) (m : AList fun _ : ConnectionKey => ConnectionState),
      (∀ state, .handshakeUpdated state ∈ evts → P state) → (∀ key held, m.lookup key = some held → P held) →
        ∀ key held, (evts.foldl UiEvent.apply m).lookup key = some held → P held := by
    intro evts
    induction evts with
    | nil => exact fun m _ hm => hm
    | cons evt evts ih =>
      intro m hevts hm
      refine ih _ (fun state hmem => hevts state (List.mem_cons_of_mem _ hmem)) ?_
      cases evt with
      | staleEvicted removed => exact hm
      | handshakeUpdated state =>
        intro key held hinsert
        have hinsert : (m.insert state.key state).lookup key = some held := hinsert
        by_cases hkey : key = state.key
        · subst hkey
          rw [AList.lookup_insert] at hinsert
          obtain rfl := Option.some.inj hinsert
          exact hevts state List.mem_cons_self
        · rw [AList.lookup_insert_ne hkey] at hinsert
          exact hm key held hinsert
  refine hfold _ _ h ?_ key held hlookup
  intro key held hnone
  have hempty : (∅ : AList fun _ : ConnectionKey => ConnectionState).lookup key = some held := hnone
  rw [AList.lookup_empty] at hempty
  cases hempty

end Thread

/-! ## Records -/

/-- Every record of a connection is one that was framed. -/
def ConnectionState.Decoded (state : ConnectionState) : Prop := ∀ e ∈ state.records, e.Decoded

theorem TrackedConnection.decoded_ingest (tp : TlsParser) (conn : TrackedConnection) (d : Direction) {payload : Bytes}
    (nowMs : UInt64) (hne : payload ≠ []) (h : conn.state.Decoded) :
    (conn.ingest tp d payload nowMs).state.Decoded := by
  have hrun := run_history tp (P := fun _ conn => conn.state.Decoded) (fun l conn d t r bytes hcut hconn => by
      by_cases hlog : conn.logs d r
      · rw [ConnectionState.Decoded, processRecord_entry tp hlog]
        intro e he
        rcases List.mem_append.mp he with he | he
        · exact hconn e he
        · obtain rfl := List.mem_singleton.mp he
          exact ⟨r, d, _, (payload_of_cut hcut).1, rfl⟩
      · rw [ConnectionState.Decoded, (processRecord_not_logged tp t hlog).1]
        exact hconn)
    (fun l conn t text hconn => hconn) (fun l conn t hconn => hconn)
    (fun l conn d bytes hconn => by cases d <;> exact hconn) [⟨d, payload, nowMs⟩] [] conn h
  have hstep : conn.ingest tp d payload nowMs = conn.run tp [⟨d, payload, nowMs⟩] :=
    (if_neg (by simpa using hne)).symm
  rw [hstep]
  exact hrun

namespace Program

variable {ρ : Type} [PanickingResolver ρ] {args : Args} {fromEthernet : FromEthernet} {tp : TlsParser} {resolver : ρ}
  {s : Program ρ} {as : List ThreadAction}

/-- Every record that is shown was framed, and the user interface is one that operations made. -/
theorem decoded_run (hrun : runs (step args fromEthernet tp) (init resolver) as = some s) (hphase : s.ui.phase ≤ 5) :
    s.app.Valid ∧ ∀ key state, s.app.connections.lookup key = some state → state.Decoded := by
  obtain ⟨received, _, os, hlinear⟩ := linearized_run hrun hphase
  rw [hlinear.app_eq]
  refine ⟨App.valid_new.ops os, App.ops_forall fun state hstate => ?_⟩
  have hmem : .handshakeUpdated state ∈
      (trackerThread tp (.withResolver resolver) (segmentsOf fromEthernet received)).1 := by
    rw [hlinear.events_eq]
    exact List.mem_append_left _ (List.mem_append_left _ hstate)
  refine trackerThread_forall ?_ ?_ ?_ _ state hmem
  · intro key nowMs origin e he
    exact absurd he List.not_mem_nil
  · intro conn d payload nowMs hne hconn
    exact conn.decoded_ingest tp d nowMs hne hconn
  · intro key conn hconn
    cases hconn

end Program

end SeeHandshake

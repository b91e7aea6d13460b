import SeeHandshake.Parser.Reference
import SeeHandshake.Proofs.EvictionProofs

/-!
# Proofs: tracked lifetimes

A tracked lifetime of a key starts with the first call that brings bytes. That call asks the resolver,
and no other call does; the answer stays with the connection until it is evicted.
-/

namespace SeeHandshake.ConnectionTracker

open Lib

variable {ρ : Type} [OriginResolver ρ] {tp : TlsParser}

/-! ## Lifetimes -/

section Lifetime

variable {t : ConnectionTracker ρ} {key : ConnectionKey}

theorem tracks_call {c : Call} : (t.call tp c).Tracks key ↔ c.Touches key ∨ t.Tracks key := by
  unfold Tracks Call.Touches
  by_cases hne : c.payload = []
  · rw [call_of_nil hne]
    simp [hne]
  · rw [lookup_call hne]
    by_cases hkey : key = c.key
    · simp [hkey, hne]
    · simp [hkey, Ne.symm hkey]

/-- Only a call that brings bytes starts a lifetime. -/
theorem starts_of_tracks_op {o : TrackerOp} (h : ¬ t.Tracks key) (h' : (t.op tp o).Tracks key) :
    starts key o := by
  cases o with
  | ingest c =>
    rcases tracks_call.mp h' with htouch | htracks
    · exact ⟨c, rfl, htouch⟩
    · exact absurd htracks h
  | evictStale nowMs => exact absurd (tracks_of_evictStale h') h

/-- While a key is not tracked, its calls since the last eviction brought no bytes. -/
theorem payload_of_not_tracks (tp : TlsParser) {timeoutMs : UInt64} {r : ρ} (os : List TrackerOp)
    (h : ¬ ((withStaleTimeout timeoutMs r).ops tp os).Tracks key) :
    ∀ c ∈ (withStaleTimeout timeoutMs r).ownSince tp key [] os, c.payload = [] := by
  induction os using List.reverseRecOn with
  | nil => exact fun c hc => absurd hc List.not_mem_nil
  | append_singleton os o ih =>
    rw [ops_concat] at h
    cases o with
    | ingest c =>
      have hcall : ¬ (((withStaleTimeout timeoutMs r).ops tp os).call tp c).Tracks key := h
      rw [tracks_call, not_or] at hcall
      rw [ownSince_concat_ingest]
      split_ifs with hkey
      · intro d hd
        rcases List.mem_append.mp hd with hd | hd
        · exact ih hcall.2 d hd
        · rw [List.mem_singleton.mp hd]
          exact not_not.mp fun hne => hcall.1 ⟨hkey, hne⟩
      · exact ih hcall.2
    | evictStale nowMs =>
      rw [ownSince_concat_evictStale]
      split_ifs with hevicted
      · exact fun d hd => absurd hd List.not_mem_nil
      · exact ih fun hbefore => hevicted ⟨hbefore, h⟩

/-- A tracked connection is the run of its key's calls since the last eviction, from the connection
that the first of them inserted. -/
theorem lookup_ops_eq_run (tp : TlsParser) {timeoutMs : UInt64} {r : ρ} {os : List TrackerOp}
    {conn : TrackedConnection}
    (h : ((withStaleTimeout timeoutMs r).ops tp os).connections.lookup key = some conn) :
    ∃ nowMs origin, conn = (TrackedConnection.created key nowMs origin).run tp
      (((withStaleTimeout timeoutMs r).ownSince tp key [] os).map Call.segment) := by
  induction os using List.reverseRecOn generalizing conn with
  | nil => cases h
  | append_singleton os o ih =>
    rw [ops_concat] at h
    cases o with
    | ingest c =>
      have hcall : (((withStaleTimeout timeoutMs r).ops tp os).call tp c).connections.lookup key =
          some conn := h
      rw [ownSince_concat_ingest]
      by_cases hne : c.payload = []
      · rw [call_of_nil hne] at hcall
        obtain ⟨nowMs, origin, hrun⟩ := ih hcall
        refine ⟨nowMs, origin, ?_⟩
        split_ifs with hkey
        · rw [List.map_append, List.map_singleton, TrackedConnection.run_concat, ← hrun,
            TrackedConnection.step_of_nil hne]
        · exact hrun
      · rw [lookup_call hne] at hcall
        by_cases hkey : key = c.key
        · rw [if_pos hkey] at hcall
          rw [if_pos hkey.symm, List.map_append, List.map_singleton]
          have hstep : ∀ conn : TrackedConnection, conn.step tp c.segment =
              conn.ingest tp c.direction c.payload c.nowMs := fun conn =>
            TrackedConnection.step_of_ne_nil hne
          cases hl : ((withStaleTimeout timeoutMs r).ops tp os).connections.lookup key with
          | some before =>
            obtain ⟨nowMs, origin, hrun⟩ := ih hl
            refine ⟨nowMs, origin, ?_⟩
            rw [target_of_some (hkey ▸ hl)] at hcall
            rw [TrackedConnection.run_concat, ← hrun, hstep]
            exact (Option.some.inj hcall).symm
          | none =>
            -- The calls before this one brought no bytes, so this one starts the connection.
            have hnot : ¬ ((withStaleTimeout timeoutMs r).ops tp os).Tracks key := by
              unfold Tracks
              rw [hl]
              simp
            have hnil := payload_of_not_tracks tp os hnot
            rw [target_of_none (hkey ▸ hl), ← hkey] at hcall
            refine ⟨c.nowMs, (OriginResolver.resolve ((withStaleTimeout timeoutMs r).ops tp os).resolver
              c.endpointA c.endpointB).1, ?_⟩
            rw [TrackedConnection.run_concat, TrackedConnection.run_of_nil, hstep]
            · exact (Option.some.inj hcall).symm
            · intro seg hseg
              obtain ⟨d, hd, rfl⟩ := List.mem_map.mp hseg
              exact hnil d hd
        · rw [if_neg hkey] at hcall
          rw [if_neg (Ne.symm hkey)]
          exact ih hcall
    | evictStale nowMs =>
      have hevict : (((withStaleTimeout timeoutMs r).ops tp os).evictStale
          nowMs).2.connections.lookup key = some conn := h
      have htracks : (((withStaleTimeout timeoutMs r).ops tp os).op tp
          (.evictStale nowMs)).Tracks key := by
        unfold Tracks
        rw [h]
        rfl
      rw [lookup_evictStale] at hevict
      rw [ownSince_concat_evictStale, if_neg fun hgone => hgone.2 htracks]
      exact ih (Option.filter_eq_some_iff.mp hevict).1

/-- An operation that leaves a connection tracked leaves its origin. -/
theorem origin_op {o : TrackerOp} {conn conn' : TrackedConnection}
    (h : t.connections.lookup key = some conn)
    (h' : (t.op tp o).connections.lookup key = some conn') :
    conn'.state.handshake.origin = conn.state.handshake.origin := by
  cases o with
  | ingest c =>
    have hcall : (t.call tp c).connections.lookup key = some conn' := h'
    by_cases hne : c.payload = []
    · rw [call_of_nil hne, h] at hcall
      rw [Option.some.inj hcall]
    · rw [lookup_call hne] at hcall
      by_cases hkey : key = c.key
      · subst hkey
        rw [if_pos rfl, target_of_some h] at hcall
        rw [← Option.some.inj hcall]
        exact (TrackedConnection.ingest_state _ _ _ _).2.1
      · rw [if_neg hkey, h] at hcall
        rw [Option.some.inj hcall]
  | evictStale nowMs =>
    have hevict : (t.evictStale nowMs).2.connections.lookup key = some conn' := h'
    rw [lookup_evictStale, h] at hevict
    rw [Option.some.inj (Option.filter_eq_some_iff.mp hevict).1]

/-- The origin does not change during a lifetime. -/
theorem origin_ops (tp : TlsParser) {os : List TrackerOp} {conn conn' : TrackedConnection}
    (htracks : ∀ os₁, os₁ <+: os → (t.ops tp os₁).Tracks key)
    (h : t.connections.lookup key = some conn)
    (h' : (t.ops tp os).connections.lookup key = some conn') :
    conn'.state.handshake.origin = conn.state.handshake.origin := by
  induction os using List.reverseRecOn generalizing conn' with
  | nil =>
    rw [show t.ops tp [] = t from rfl, h] at h'
    rw [Option.some.inj h']
  | append_singleton os o ih =>
    obtain ⟨conn₁, h₁⟩ := Option.isSome_iff_exists.mp (htracks os (List.prefix_append ..))
    rw [ops_concat] at h'
    have hlast := origin_op h₁ h'
    have hfirst := ih (fun os₁ hpre => htracks os₁ (hpre.trans (List.prefix_append ..))) h₁
    exact hlast.trans hfirst

end Lifetime

/-! ## The queries of the resolver -/

/-- The tracker with a resolver that keeps a log. -/
def recording (t : ConnectionTracker ρ) (log : List (SocketAddr × SocketAddr)) :
    ConnectionTracker (Recorder ρ) where
  connections := t.connections
  staleTimeoutMs := t.staleTimeoutMs
  resolver := ⟨t.resolver, log⟩

theorem target_recording (t : ConnectionTracker ρ) (log : List (SocketAddr × SocketAddr)) (c : Call) :
    (t.recording log).target c =
      ((t.target c).1,
        ⟨(t.target c).2, log ++ if t.Tracks c.key then [] else [c.endpoints]⟩) := by
  cases hl : t.connections.lookup c.key with
  | some conn =>
    have htracks : t.Tracks c.key := by unfold Tracks; rw [hl]; rfl
    rw [target_of_some hl, target_of_some (t := t.recording log) hl, if_pos htracks,
      List.append_nil]
    rfl
  | none =>
    have htracks : ¬ t.Tracks c.key := by unfold Tracks; rw [hl]; simp
    rw [target_of_none hl, target_of_none (t := t.recording log) hl, if_neg htracks]
    rfl

/-- The resolver is asked at the start of a lifetime, and at no other operation. -/
theorem op_recording (tp : TlsParser) (t : ConnectionTracker ρ)
    (log : List (SocketAddr × SocketAddr)) (o : TrackerOp) :
    (t.recording log).op tp o =
      (t.op tp o).recording (log ++ (t.openings tp [o]).map Call.endpoints) := by
  cases o with
  | ingest c =>
    show (t.recording log).call tp c = (t.call tp c).recording (log ++
      ((if ¬ t.Tracks c.key ∧ (t.call tp c).Tracks c.key then [c] else []) ++
        []).map Call.endpoints)
    by_cases hne : c.payload = []
    · rw [call_of_nil hne, call_of_nil hne]
      simp
    · have htracks : (t.call tp c).Tracks c.key := tracks_call.mpr (Or.inl ⟨rfl, hne⟩)
      have hopen : ((if ¬ t.Tracks c.key ∧ (t.call tp c).Tracks c.key then [c] else []) ++
          []).map Call.endpoints = if t.Tracks c.key then [] else [c.endpoints] := by
        by_cases hbefore : t.Tracks c.key <;> simp [hbefore, htracks]
      rw [hopen, call_of_ne_nil hne, call_of_ne_nil hne, target_recording]
      rfl
  | evictStale nowMs =>
    show (t.recording log).op tp (.evictStale nowMs) = _
    rw [openings, openings, List.map_nil, List.append_nil]
    rfl

theorem openings_cons (tp : TlsParser) (t : ConnectionTracker ρ) (o : TrackerOp)
    (os : List TrackerOp) :
    t.openings tp (o :: os) = t.openings tp [o] ++ (t.op tp o).openings tp os := by
  cases o <;> simp [openings]

theorem ops_recording (tp : TlsParser) (t : ConnectionTracker ρ)
    (log : List (SocketAddr × SocketAddr)) (os : List TrackerOp) :
    (t.recording log).ops tp os =
      (t.ops tp os).recording (log ++ (t.openings tp os).map Call.endpoints) := by
  induction os generalizing t log with
  | nil => simp [openings, ops]
  | cons o os ih =>
    show ((t.recording log).op tp o).ops tp os = _
    rw [op_recording, ih, List.append_assoc, ← List.map_append, ← openings_cons]
    rfl

/-! ## The whole tracker -/

/-- The tracker is a product of independent machines, one for each key, with exact eviction. In every
run of ingestion and eviction from an empty tracker, with a resolver whose answer is a function of the
endpoints: what is tracked for a key is the replay of its calls since its last eviction; a key is
tracked iff no eviction came too late for its last nonempty call; eviction counts the keys it removes;
and the resolver is asked once for each lifetime, by the first nonempty call, whose answer stays. -/
theorem product_of_keys (tp : TlsParser) (timeoutMs : UInt64) (r : ρ)
    {answer : SocketAddr → SocketAddr → Origin} (hanswer : OriginResolver.AnswersBy r answer)
    (os : List TrackerOp) :
    let fresh := withStaleTimeout timeoutMs r
    let t := fresh.ops tp os
    let recorded := (withStaleTimeout timeoutMs (Recorder.mk r [])).ops tp os
    (∀ key, t.connections.lookup key =
      (fresh.calls tp (fresh.ownSince tp key [] os)).connections.lookup key) ∧
    (∀ key, t.Tracks key ↔
      ∃ a c b, os = a ++ .ingest c :: b ∧ c.Touches key ∧
        (∀ d, .ingest d ∈ b → ¬ d.Touches key) ∧
        ∀ nowMs, .evictStale nowMs ∈ b → nowMs.toNat ≤ c.nowMs.toNat + timeoutMs.toNat) ∧
    (∀ nowMs, (t.evictStale nowMs).1 =
      (t.connections.keys.toFinset \ (t.evictStale nowMs).2.connections.keys.toFinset).card) ∧
    (recorded.connections = t.connections ∧
      recorded.resolver.log = (fresh.openings tp os).map Call.endpoints) ∧
    (∀ o key, ¬ t.Tracks key → (t.op tp o).Tracks key →
      (∃ c, o = .ingest c ∧ c.Touches key) ∧ ∀ c ∈ fresh.ownSince tp key [] os, c.payload = []) ∧
    (∀ os' key conn conn', (∀ os₁, os₁ <+: os' → (t.ops tp os₁).Tracks key) →
      t.connections.lookup key = some conn → (t.ops tp os').connections.lookup key = some conn' →
      conn'.state.handshake.origin = conn.state.handshake.origin) := by
  intro fresh t recorded
  have hrecorded : recorded = t.recording ((fresh.openings tp os).map Call.endpoints) :=
    ops_recording tp fresh [] os
  refine ⟨lookup_ops_eq_replay tp timeoutMs hanswer os, tracks_ops_iff tp timeoutMs hanswer os,
    evictStale_count t, ?_, ?_, ?_⟩
  · rw [hrecorded]
    exact ⟨rfl, rfl⟩
  · intro o key hbefore hafter
    exact ⟨starts_of_tracks_op hbefore hafter, payload_of_not_tracks tp os hbefore⟩
  · intro os' key conn conn' htracks h h'
    exact origin_ops tp htracks h h'

/-- The answer of a fixed resolver does not depend on what it was asked before. -/
theorem answersBy_fixed (r : FixedResolver) : OriginResolver.AnswersBy r fun _ _ => r.answer := by
  intro queries a b
  show (OriginResolver.asked r queries).answer = r.answer
  induction queries with
  | nil => rfl
  | cons q queries ih => exact ih

/-- A connection last seen at 7 is still tracked at 300007, and is evicted at 300008. -/
theorem product_of_keys_evicted :
    let hello : Call := ⟨Reference.key, .clientToServer, Reference.clientEndpoint,
      Reference.serverEndpoint, Reference.record 22 Reference.clientHello13, 7⟩
    let t := withResolver (FixedResolver.mk .unknown)
    (t.ops Reference.parser [.ingest hello, .evictStale 300007]).Tracks Reference.key ∧
      ¬ (t.ops Reference.parser [.ingest hello, .evictStale 300008]).Tracks Reference.key ∧
      ((withResolver (Recorder.mk (FixedResolver.mk .unknown) [])).ops Reference.parser
        [.ingest hello, .evictStale 300008]).resolver.log = [hello.endpoints] := by
  intro hello t
  have hkept := product_of_keys Reference.parser DEFAULT_STALE_TIMEOUT_MS (FixedResolver.mk .unknown)
    (answersBy_fixed _) [.ingest hello, .evictStale 300007]
  have hevicted := product_of_keys Reference.parser DEFAULT_STALE_TIMEOUT_MS
    (FixedResolver.mk .unknown) (answersBy_fixed _) [.ingest hello, .evictStale 300008]
  refine ⟨(hkept.2.1 Reference.key).mpr ⟨[], hello, [.evictStale 300007], rfl, ?_, ?_, ?_⟩, ?_, ?_⟩
  · exact ⟨rfl, by decide⟩
  · simp
  · intro nowMs hmem
    rw [TrackerOp.evictStale.inj (List.mem_singleton.mp hmem)]
    decide
  · intro htracks
    obtain ⟨a, c, b, heq, -, -, hle⟩ := (hevicted.2.1 Reference.key).mp htracks
    rcases a with - | ⟨o, a⟩
    · obtain ⟨hc, rfl⟩ := List.cons.inj heq
      rw [← TrackerOp.ingest.inj hc] at hle
      exact absurd (hle 300008 (by simp)) (by decide)
    · have hlen := congrArg List.length heq
      simp only [List.cons_append, List.length_cons, List.length_append, List.length_nil] at hlen
      obtain rfl := List.length_eq_zero_iff.mp (show a.length = 0 by omega)
      simp at heq
  · exact hevicted.2.2.2.1.2.trans (by decide)

end SeeHandshake.ConnectionTracker

import Mathlib.Data.Finset.Card
import Mathlib.Data.List.Induction
import SeeHandshake.Lib.Product
import SeeHandshake.Proofs.CallProofs
import SeeHandshake.Proofs.HandshakeProofs
import SeeHandshake.Tracker.Ops

/-!
# Proofs: one machine per key, and eviction

A run of ingestion and eviction is the product of the runs of its keys, so what is tracked for a key
depends on the operations that concern it alone: `keyOp` is the machine of one key.
-/

namespace SeeHandshake

open Lib

variable {tp : TlsParser}

/-! ## What a call leaves of a connection -/

namespace TrackedConnection

theorem foldl_processRecord_state (tp : TlsParser) (d : Direction) (t : UInt64)
    (rs : List TlsRecord) (conn : TrackedConnection) :
    (rs.foldl (processRecord tp d t) conn).state.lastSeenMs = conn.state.lastSeenMs ∧
      (rs.foldl (processRecord tp d t) conn).state.handshake.origin =
        conn.state.handshake.origin ∧
      (rs.foldl (processRecord tp d t) conn).state.key = conn.state.key := by
  induction rs generalizing conn with
  | nil => exact ⟨rfl, rfl, rfl⟩
  | cons r rs ih =>
    obtain ⟨hseen, horigin, hkey⟩ := ih (processRecord tp d t conn r)
    obtain ⟨handshake, records, hstate⟩ := @processRecord_state tp d t conn r
    have hkept := congrArg Prod.snd (@processRecord_unwritten tp d t conn r)
    refine ⟨hseen.trans ?_, horigin.trans hkept, hkey.trans ?_⟩
    · rw [hstate]
    · rw [hstate]

/-- Whatever the payload, the connection was last seen at the time of the call, and keeps its origin
and its key. -/
theorem ingest_state (conn : TrackedConnection) (d : Direction) (payload : Bytes) (t : UInt64) :
    (conn.ingest tp d payload t).state.lastSeenMs = t ∧
      (conn.ingest tp d payload t).state.handshake.origin = conn.state.handshake.origin ∧
      (conn.ingest tp d payload t).state.key = conn.state.key := by
  by_cases hcap : (conn.buf d).length + payload.length > MAX_REASSEMBLY_BYTES
  · rw [ingest_overflow hcap]
    exact ⟨rfl, rfl, rfl⟩
  · cases hs : (recordSplitter.peel (conn.buf d ++ payload)).stop with
    | some n =>
      rw [ingest_oversized hcap hs, state_setBuf]
      exact ⟨rfl, rfl, rfl⟩
    | none =>
      rw [ingest_ok hcap hs]
      obtain ⟨hseen, horigin, hkey⟩ := foldl_processRecord_state tp d t
        ((recordSplitter.peel (conn.buf d ++ payload)).frames.map Prod.fst)
        ((conn.touched t).setBuf d (recordSplitter.peel (conn.buf d ++ payload)).rest)
      rw [state_setBuf] at hseen horigin hkey
      exact ⟨hseen, horigin, hkey⟩

end TrackedConnection

/-! ## Eviction -/

theorem ConnectionMap.lookup_retain (m : ConnectionMap) (p : TrackedConnection → Bool)
    (key : ConnectionKey) : (m.retain p).lookup key = (m.lookup key).filter p := by
  ext conn
  rw [← Option.mem_def, ← Option.mem_def, AList.mem_lookup_iff, Option.mem_filter_iff,
    AList.mem_lookup_iff]
  exact List.mem_filter

/-- The saturating cutoff compares like unbounded integers. -/
theorem u64SaturatingSub_le_iff {a b l : UInt64} :
    l ≥ u64SaturatingSub a b ↔ a.toNat ≤ l.toNat + b.toNat := by
  unfold u64SaturatingSub
  rw [ge_iff_le, UInt64.le_iff_toNat_le]
  by_cases h : a < b
  · rw [if_pos h]
    rw [UInt64.lt_iff_toNat_lt] at h
    have hzero : (0 : UInt64).toNat = 0 := rfl
    omega
  · rw [if_neg h, UInt64.toNat_sub_of_le _ _ (UInt64.not_lt.mp h)]
    rw [UInt64.lt_iff_toNat_lt] at h
    omega

namespace ConnectionTracker

variable {ρ : Type}

theorem lookup_evictStale (t : ConnectionTracker ρ) (nowMs : UInt64) (key : ConnectionKey) :
    (t.evictStale nowMs).2.connections.lookup key =
      (t.connections.lookup key).filter fun conn =>
        conn.state.lastSeenMs ≥ u64SaturatingSub nowMs t.staleTimeoutMs :=
  ConnectionMap.lookup_retain _ _ _

theorem tracks_of_evictStale {t : ConnectionTracker ρ} {key : ConnectionKey}
    {nowMs : UInt64} (h : (t.evictStale nowMs).2.Tracks key) :
    t.Tracks key := by
  unfold Tracks at h ⊢
  rw [lookup_evictStale] at h
  obtain ⟨conn, hconn⟩ := Option.isSome_iff_exists.mp h
  rw [(Option.filter_eq_some_iff.mp hconn).1]
  rfl

/-- `evictStale` counts the keys that it removes. -/
theorem evictStale_count (t : ConnectionTracker ρ) (nowMs : UInt64) :
    (t.evictStale nowMs).1 =
      (t.connections.keys.toFinset \ (t.evictStale nowMs).2.connections.keys.toFinset).card := by
  have hsub : (t.evictStale nowMs).2.connections.keys.Sublist t.connections.keys :=
    List.filter_sublist.map Sigma.fst
  rw [Finset.card_sdiff_of_subset (by
      intro key hkey
      rw [List.mem_toFinset] at hkey ⊢
      exact hsub.subset hkey),
    List.toFinset_card_of_nodup (AList.keys_nodup _),
    List.toFinset_card_of_nodup (AList.keys_nodup _)]
  rfl

/-! ## The product -/

variable [OriginResolver ρ]

/-- The tracker tracks the connections `f`, after some queries of the resolver `r`. -/
structure Follows (timeoutMs : UInt64) (r : ρ) (t : ConnectionTracker ρ)
    (f : ConnectionKey → Option TrackedConnection) : Prop where
  staleTimeoutMs : t.staleTimeoutMs = timeoutMs
  resolver : ∃ queries, t.resolver = OriginResolver.asked r queries
  lookup : ∀ key, t.connections.lookup key = f key

theorem target_fst (t : ConnectionTracker ρ) (c : Call) :
    (t.target c).1 = (t.connections.lookup c.key).getD (TrackedConnection.created c.key c.nowMs
      (OriginResolver.resolve t.resolver c.endpointA c.endpointB).1) := by
  unfold target
  cases t.connections.lookup c.key <;> rfl

theorem target_asked {t : ConnectionTracker ρ} {r : ρ}
    (h : ∃ queries, t.resolver = OriginResolver.asked r queries) (c : Call) :
    ∃ queries, (t.target c).2 = OriginResolver.asked r queries := by
  obtain ⟨queries, hres⟩ := h
  cases hl : t.connections.lookup c.key with
  | some conn =>
    rw [target_of_some hl]
    exact ⟨queries, hres⟩
  | none =>
    refine ⟨queries ++ [(c.endpointA, c.endpointB)], ?_⟩
    rw [target_of_none hl, hres]
    simp [OriginResolver.asked]

section Product

variable {timeoutMs : UInt64} {r : ρ} {answer : SocketAddr → SocketAddr → Origin}

/-- With a resolver whose answer is a function of the endpoints, the tracker is a product of machines,
one for each key. -/
theorem isProduct (tp : TlsParser) (timeoutMs : UInt64)
    (hanswer : OriginResolver.AnswersBy r answer) :
    IsProduct (op (ρ := ρ) tp) (TrackedConnection.keyOp tp timeoutMs answer) TrackerOp.concerns
      (Follows timeoutMs r) where
  step_rel t f o ht := by
    obtain ⟨htimeout, hasked, hlookup⟩ := ht
    cases o with
    | ingest c =>
      by_cases hne : c.payload = []
      · have hcall : t.op tp (.ingest c) = t := call_of_nil hne
        rw [hcall]
        refine ⟨htimeout, hasked, fun key => ?_⟩
        show _ = if c.Touches key then _ else f key
        rw [if_neg fun h => h.2 hne]
        exact hlookup key
      · refine ⟨call_staleTimeoutMs.trans htimeout, ?_, fun key => ?_⟩
        · show ∃ queries, (t.call tp c).resolver = _
          rw [resolver_call hne]
          exact target_asked hasked c
        · show (t.call tp c).connections.lookup key = if c.Touches key then _ else f key
          obtain ⟨queries, hres⟩ := hasked
          rw [lookup_call hne, target_fst, hres, hanswer, hlookup, hlookup]
          by_cases hkey : key = c.key
          · rw [if_pos hkey, if_pos ⟨hkey.symm, hne⟩, hkey]
          · rw [if_neg hkey, if_neg fun h => hkey h.1.symm]
    | evictStale nowMs =>
      refine ⟨htimeout, hasked, fun key => ?_⟩
      show (t.evictStale nowMs).2.connections.lookup key = _
      rw [lookup_evictStale, hlookup, htimeout]
      rfl
  loc_of_not_own key conn? o ho := by
    cases o with
    | ingest c => exact if_neg (by simpa [TrackerOp.concerns] using ho)
    | evictStale nowMs => exact absurd rfl ho

theorem follows_fresh (timeoutMs : UInt64) (r : ρ) :
    Follows timeoutMs r (withStaleTimeout timeoutMs r) fun _ => none :=
  ⟨rfl, ⟨[], rfl⟩, fun _ => rfl⟩

theorem calls_eq_ops (t : ConnectionTracker ρ) (cs : List Call) :
    t.calls tp cs = t.ops tp (cs.map .ingest) := by
  unfold calls ops
  rw [List.foldl_map]
  rfl

/-- In every run, one operation does to every key what the machine of the key does. -/
theorem lookup_op (tp : TlsParser) (timeoutMs : UInt64)
    (hanswer : OriginResolver.AnswersBy r answer) (os : List TrackerOp) (o : TrackerOp) (key : ConnectionKey) :
    (((withStaleTimeout timeoutMs r).ops tp os).op tp o).connections.lookup key =
      TrackedConnection.keyOp tp timeoutMs answer key
        (((withStaleTimeout timeoutMs r).ops tp os).connections.lookup key) o := by
  have hproduct := isProduct tp timeoutMs hanswer
  have hrun : Follows timeoutMs r ((withStaleTimeout timeoutMs r).ops tp os) _ :=
    hproduct.run (follows_fresh timeoutMs r) os
  rw [(hproduct.step_rel _ _ o hrun).lookup key, ← hrun.lookup key]

/-! ## Replaying the calls since the last eviction -/

theorem ownSince_concat (tp : TlsParser) (key : ConnectionKey) (t : ConnectionTracker ρ)
    (own : List Call) (os : List TrackerOp) (o : TrackerOp) :
    t.ownSince tp key own (os ++ [o]) =
      (t.ops tp os).ownSince tp key (t.ownSince tp key own os) [o] := by
  induction os generalizing t own with
  | nil => rfl
  | cons o' os ih => cases o' <;> exact ih _ _

theorem ownSince_concat_ingest (tp : TlsParser) (key : ConnectionKey) (t : ConnectionTracker ρ)
    (own : List Call) (os : List TrackerOp) (c : Call) :
    t.ownSince tp key own (os ++ [.ingest c]) =
      if c.key = key then t.ownSince tp key own os ++ [c] else t.ownSince tp key own os :=
  ownSince_concat tp key t own os _

theorem ownSince_concat_evictStale (tp : TlsParser) (key : ConnectionKey)
    (t : ConnectionTracker ρ) (own : List Call) (os : List TrackerOp) (nowMs : UInt64) :
    t.ownSince tp key own (os ++ [.evictStale nowMs]) =
      if (t.ops tp os).Tracks key ∧ ¬ ((t.ops tp os).op tp (.evictStale nowMs)).Tracks key then []
      else t.ownSince tp key own os :=
  ownSince_concat tp key t own os _

/-- What is tracked for a key is the replay, in a fresh tracker, of the calls with the key since it was
last evicted. -/
theorem lookup_ops_eq_replay (tp : TlsParser) (timeoutMs : UInt64)
    (hanswer : OriginResolver.AnswersBy r answer) (os : List TrackerOp) (key : ConnectionKey) :
    ((withStaleTimeout timeoutMs r).ops tp os).connections.lookup key =
      ((withStaleTimeout timeoutMs r).calls tp
        ((withStaleTimeout timeoutMs r).ownSince tp key [] os)).connections.lookup key := by
  induction os using List.reverseRecOn with
  | nil => rfl
  | append_singleton os o ih =>
    have hop := lookup_op tp timeoutMs hanswer os o key
    rw [ops_concat]
    cases o with
    | ingest c =>
      rw [hop, ownSince_concat_ingest]
      by_cases hkey : c.key = key
      · rw [if_pos hkey, calls_eq_ops, List.map_append, List.map_cons, List.map_nil, ops_concat,
          lookup_op tp timeoutMs hanswer _ _ key, ← calls_eq_ops, ← ih]
      · rw [if_neg hkey, ← ih]
        exact if_neg fun h => hkey h.1
    | evictStale nowMs =>
      rw [ownSince_concat_evictStale]
      split_ifs with hevicted
      · exact Option.not_isSome_iff_eq_none.mp hevicted.2
      · rw [← ih]
        -- The key is not evicted: it is still tracked, or was not tracked before.
        cases hl : ((withStaleTimeout timeoutMs r).ops tp os).connections.lookup key with
        | none => rw [hop, hl]; rfl
        | some conn =>
          have htracks : (((withStaleTimeout timeoutMs r).ops tp os).op tp
              (.evictStale nowMs)).Tracks key := by
            by_contra hnot
            exact hevicted ⟨by unfold Tracks; rw [hl]; rfl, hnot⟩
          obtain ⟨conn', hconn'⟩ := Option.isSome_iff_exists.mp htracks
          rw [hconn']
          rw [hop, hl] at hconn'
          unfold TrackedConnection.keyOp at hconn'
          exact (Option.filter_eq_some_iff.mp hconn').1.symm

/-! ## Who is tracked -/

/-- The operation brings bytes of the connection. -/
def starts (key : ConnectionKey) (o : TrackerOp) : Prop := ∃ c, o = .ingest c ∧ c.Touches key

/-- The second operation neither brings bytes of the connection nor evicts it, if it was last seen by
the first one. -/
def keeps (timeoutMs : UInt64) (key : ConnectionKey) (x y : TrackerOp) : Prop :=
  (∀ c, y = .ingest c → ¬ c.Touches key) ∧
    ∀ c nowMs, x = .ingest c → y = .evictStale nowMs →
      nowMs.toNat ≤ c.nowMs.toNat + timeoutMs.toNat

theorem starts_ingest {key : ConnectionKey} {c : Call} : starts key (.ingest c) ↔ c.Touches key := by
  constructor
  · rintro ⟨d, hd, htouch⟩
    rwa [TrackerOp.ingest.inj hd]
  · intro htouch
    exact ⟨c, rfl, htouch⟩

theorem not_starts_evictStale {key : ConnectionKey} {nowMs : UInt64} :
    ¬ starts key (.evictStale nowMs) := by
  rintro ⟨c, hc, -⟩
  cases hc

theorem keeps_ingest {timeoutMs : UInt64} {key : ConnectionKey} {x : TrackerOp} {c : Call} :
    keeps timeoutMs key x (.ingest c) ↔ ¬ c.Touches key := by
  refine ⟨fun h => h.1 c rfl, fun h => ⟨fun d hd => ?_, fun d nowMs _ hd => ?_⟩⟩
  · rwa [← TrackerOp.ingest.inj hd]
  · cases hd

theorem keeps_evictStale {timeoutMs : UInt64} {key : ConnectionKey} {c : Call} {nowMs : UInt64} :
    keeps timeoutMs key (.ingest c) (.evictStale nowMs) ↔
      nowMs.toNat ≤ c.nowMs.toNat + timeoutMs.toNat := by
  refine ⟨fun h => h.2 c nowMs rfl rfl, fun h => ⟨fun d hd => ?_, fun d now hd hnow => ?_⟩⟩
  · cases hd
  · rwa [← TrackerOp.ingest.inj hd, ← TrackerOp.evictStale.inj hnow]

/-- A call with bytes of the connection is when it was last seen. -/
theorem keyOp_ingest_lastSeen (tp : TlsParser) (timeoutMs : UInt64)
    (answer : SocketAddr → SocketAddr → Origin) (key : ConnectionKey)
    (conn? : Option TrackedConnection) (c : Call) :
    (TrackedConnection.keyOp tp timeoutMs answer key conn? (.ingest c)).map (·.state.lastSeenMs) =
      if c.Touches key then some c.nowMs else conn?.map (·.state.lastSeenMs) := by
  unfold TrackedConnection.keyOp
  by_cases htouch : c.Touches key
  · simp only [if_pos htouch, Option.map_some, (TrackedConnection.ingest_state _ _ _ _).1]
  · simp only [if_neg htouch]

/-- An eviction leaves a connection as it is unless it comes too late for it. -/
theorem lastSeen_filter_iff {conn? : Option TrackedConnection} {timeoutMs nowMs seen : UInt64} :
    (conn?.filter fun conn => conn.state.lastSeenMs ≥ u64SaturatingSub nowMs timeoutMs).map
        (·.state.lastSeenMs) = some seen ↔
      conn?.map (·.state.lastSeenMs) = some seen ∧
        nowMs.toNat ≤ seen.toNat + timeoutMs.toNat := by
  rw [← u64SaturatingSub_le_iff]
  simp only [Option.map_eq_some_iff, Option.filter_eq_some_iff, decide_eq_true_eq]
  constructor
  · rintro ⟨conn, ⟨hconn, hge⟩, rfl⟩
    exact ⟨⟨conn, hconn, rfl⟩, hge⟩
  · rintro ⟨⟨conn, hconn, rfl⟩, hge⟩
    exact ⟨conn, ⟨hconn, hge⟩, rfl⟩

theorem keyOp_evictStale_lastSeen (tp : TlsParser) (timeoutMs : UInt64)
    (answer : SocketAddr → SocketAddr → Origin) (key : ConnectionKey)
    (conn? : Option TrackedConnection) (nowMs seen : UInt64) :
    (TrackedConnection.keyOp tp timeoutMs answer key conn? (.evictStale nowMs)).map
        (·.state.lastSeenMs) = some seen ↔
      conn?.map (·.state.lastSeenMs) = some seen ∧
        nowMs.toNat ≤ seen.toNat + timeoutMs.toNat :=
  lastSeen_filter_iff

/-- A tracked connection was last seen by its last call with a nonempty payload, and no eviction since
then came too late for it. -/
theorem lastSeen_eq_some_iff (tp : TlsParser) (timeoutMs : UInt64)
    (hanswer : OriginResolver.AnswersBy r answer) (os : List TrackerOp) (key : ConnectionKey)
    (seen : UInt64) :
    (((withStaleTimeout timeoutMs r).ops tp os).connections.lookup key).map (·.state.lastSeenMs) =
        some seen ↔
      ∃ c, Since (starts key) (keeps timeoutMs key) os (.ingest c) ∧ c.nowMs = seen := by
  induction os using List.reverseRecOn with
  | nil =>
    refine ⟨(by cases ·), ?_⟩
    rintro ⟨c, hsince, -⟩
    exact absurd hsince since_nil
  | append_singleton os o ih =>
    rw [ops_concat, lookup_op tp timeoutMs hanswer os o key]
    simp only [since_concat]
    cases o with
    | ingest c =>
      rw [keyOp_ingest_lastSeen]
      simp only [starts_ingest, keeps_ingest]
      by_cases htouch : c.Touches key
      · rw [if_pos htouch]
        constructor
        · intro h
          exact ⟨c, Or.inl ⟨rfl, htouch⟩, Option.some.inj h⟩
        · rintro ⟨c', ⟨heq, -⟩ | ⟨-, hnot⟩, rfl⟩
          · rw [TrackerOp.ingest.inj heq]
          · exact absurd htouch hnot
      · rw [if_neg htouch, ih]
        constructor
        · rintro ⟨c', hsince, hseen⟩
          exact ⟨c', Or.inr ⟨hsince, htouch⟩, hseen⟩
        · rintro ⟨c', ⟨-, htouch'⟩ | ⟨hsince, -⟩, hseen⟩
          · exact absurd htouch' htouch
          · exact ⟨c', hsince, hseen⟩
    | evictStale nowMs =>
      rw [keyOp_evictStale_lastSeen, ih]
      simp only [keeps_evictStale]
      constructor
      · rintro ⟨⟨c, hsince, rfl⟩, hle⟩
        exact ⟨c, Or.inr ⟨hsince, hle⟩, rfl⟩
      · rintro ⟨c, ⟨-, hstarts⟩ | ⟨hsince, hle⟩, rfl⟩
        · exact absurd hstarts not_starts_evictStale
        · exact ⟨⟨c, hsince, rfl⟩, hle⟩

/-- A key is tracked iff no eviction came too late for its last call with a nonempty payload. -/
theorem tracks_ops_iff (tp : TlsParser) (timeoutMs : UInt64)
    (hanswer : OriginResolver.AnswersBy r answer) (os : List TrackerOp) (key : ConnectionKey) :
    ((withStaleTimeout timeoutMs r).ops tp os).Tracks key ↔
      ∃ a c b, os = a ++ .ingest c :: b ∧ c.Touches key ∧
        (∀ d, .ingest d ∈ b → ¬ d.Touches key) ∧
        ∀ nowMs, .evictStale nowMs ∈ b → nowMs.toNat ≤ c.nowMs.toNat + timeoutMs.toNat := by
  have hseen := lastSeen_eq_some_iff tp timeoutMs hanswer os key
  unfold Tracks
  rw [Option.isSome_iff_exists]
  constructor
  · rintro ⟨conn, hconn⟩
    obtain ⟨c, ⟨a, b, heq, hstarts, hkeeps⟩, -⟩ :=
      (hseen conn.state.lastSeenMs).mp (by rw [hconn]; rfl)
    exact ⟨a, c, b, heq, starts_ingest.mp hstarts, fun d hd => keeps_ingest.mp (hkeeps _ hd),
      fun nowMs hnow => keeps_evictStale.mp (hkeeps _ hnow)⟩
  · rintro ⟨a, c, b, heq, htouch, hingest, hevict⟩
    have hsince : Since (starts key) (keeps timeoutMs key) os (.ingest c) := by
      refine ⟨a, b, heq, starts_ingest.mpr htouch, fun y hy => ?_⟩
      cases y with
      | ingest d => exact keeps_ingest.mpr (hingest d hy)
      | evictStale nowMs => exact keeps_evictStale.mpr (hevict nowMs hy)
    obtain ⟨conn, hconn, -⟩ := Option.map_eq_some_iff.mp ((hseen c.nowMs).mpr ⟨c, hsince, rfl⟩)
    exact ⟨conn, hconn⟩

end Product

end ConnectionTracker

end SeeHandshake

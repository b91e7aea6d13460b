import SeeHandshake.Parser.Reference
import SeeHandshake.Proofs.CallProofs

/-!
# Proofs: segmentation independence

How TCP cut the payloads of a connection does not matter: ingesting a payload in parts leaves the
same tracker, up to timestamps, as ingesting it at once.
-/

namespace SeeHandshake

open Lib

variable {tp : TlsParser}

/-! ## One connection -/

namespace TrackedConnection

variable {conn conn' : TrackedConnection} {d : Direction}

theorem core_errored (t : UInt64) (text : String) :
    (conn.errored t text).core = conn.core.errored 0 text := rfl

/-- `ingest` reads no timestamp. -/
theorem ingest_untimed_congr (h : conn.untimed = conn'.untimed) (payload : Bytes) (t t' : UInt64) :
    (conn.ingest tp d payload t).untimed = (conn'.ingest tp d payload t').untimed := by
  obtain ⟨hcore, hbuf⟩ := untimed_eq_iff.mp h
  rw [untimed_eq_iff]
  by_cases hcap : (conn.buf d).length + payload.length > MAX_REASSEMBLY_BYTES
  · rw [ingest_overflow hcap, ingest_overflow (hbuf d ▸ hcap)]
    exact ⟨by rw [core_errored, core_errored, hcore], fun d' => by simp [hbuf]⟩
  cases hs : (recordSplitter.peel (conn.buf d ++ payload)).stop with
  | some n =>
    rw [ingest_oversized hcap hs, ingest_oversized (hbuf d ▸ hcap) (hbuf d ▸ hs)]
    refine ⟨by rw [core_setBuf, core_setBuf, core_errored, core_errored, hcore], fun d' => ?_⟩
    simp [buf_setBuf, hbuf]
  | none =>
    rw [ingest_ok hcap hs, ingest_ok (hbuf d ▸ hcap) (hbuf d ▸ hs)]
    refine ⟨?_, fun d' => ?_⟩
    · simp only [foldl_processRecord_core, core_setBuf, core_touched, hbuf, hcore]
    · simp only [foldl_processRecord_buf, buf_setBuf, buf_touched, hbuf]

theorem clean_iff {payload : Bytes} :
    conn.Clean d payload ↔ (conn.buf d).length + payload.length ≤ MAX_REASSEMBLY_BYTES ∧
      (recordSplitter.peel (conn.buf d ++ payload)).stop = none := by
  unfold Clean
  rw [parseRecords_isOk_iff]

theorem ingest_of_clean {payload : Bytes} {t : UInt64} (h : conn.Clean d payload) :
    conn.ingest tp d payload t =
      ((recordSplitter.peel (conn.buf d ++ payload)).frames.map Prod.fst).foldl
        (processRecord tp d t)
        ((conn.touched t).setBuf d (recordSplitter.peel (conn.buf d ++ payload)).rest) :=
  ingest_ok (Nat.not_lt.mpr (clean_iff.mp h).1) (clean_iff.mp h).2

/-- After a clean payload, the remainder of the peeling is buffered. -/
theorem buf_ingest_of_clean {payload : Bytes} {t : UInt64} (h : conn.Clean d payload)
    (d' : Direction) :
    (conn.ingest tp d payload t).buf d' =
      if d' = d then (recordSplitter.peel (conn.buf d ++ payload)).rest else conn.buf d' := by
  rw [ingest_of_clean h, foldl_processRecord_buf, buf_setBuf, buf_touched]

/-- The parts of a clean payload are clean. -/
theorem clean_append (tp : TlsParser) {xs ys : Bytes} (h : conn.Clean d (xs ++ ys)) (t : UInt64) :
    conn.Clean d xs ∧ (conn.ingest tp d xs t).Clean d ys := by
  obtain ⟨hcap, hs⟩ := clean_iff.mp h
  rw [← List.append_assoc] at hs
  rw [List.length_append] at hcap
  have hxs : conn.Clean d xs := clean_iff.mpr ⟨by omega, Splitter.stop_none_of_append hs⟩
  refine ⟨hxs, clean_iff.mpr ?_⟩
  rw [buf_ingest_of_clean hxs, if_pos rfl]
  have hlen := recordSplitter.rest_length_le (conn.buf d ++ xs)
  rw [List.length_append] at hlen
  rw [recordSplitter.peel_append, (clean_iff.mp hxs).2] at hs
  exact ⟨by omega, hs⟩

/-- Ingesting a clean payload in two parts is ingesting it at once. -/
theorem ingest_append {xs ys : Bytes} (h : conn.Clean d (xs ++ ys)) (t t₁ t₂ : UInt64) :
    ((conn.ingest tp d xs t₁).ingest tp d ys t₂).untimed =
      (conn.ingest tp d (xs ++ ys) t).untimed := by
  obtain ⟨hxs, hys⟩ := clean_append tp h t₁
  have hbuf : (conn.ingest tp d xs t₁).buf d = (recordSplitter.peel (conn.buf d ++ xs)).rest := by
    rw [buf_ingest_of_clean hxs, if_pos rfl]
  have happ := recordSplitter.peel_append (conn.buf d ++ xs) ys
  rw [(clean_iff.mp hxs).2, List.append_assoc] at happ
  rw [untimed_eq_iff]
  refine ⟨?_, fun d' => ?_⟩
  · rw [ingest_of_clean hys, ingest_of_clean h, hbuf, happ, ingest_of_clean hxs]
    simp only [foldl_processRecord_core, core_setBuf, core_touched, List.map_append,
      List.foldl_append]
  · rw [buf_ingest_of_clean hys, buf_ingest_of_clean h, hbuf, happ, buf_ingest_of_clean hxs]
    split_ifs <;> rfl

end TrackedConnection

/-! ## The tracker -/

namespace ConnectionTracker

variable {ρ : Type}

namespace SameUpToTime

variable {t t' t'' : ConnectionTracker ρ}

theorem refl (t : ConnectionTracker ρ) : t.SameUpToTime t := ⟨rfl, rfl, fun _ => rfl⟩

theorem symm (h : t.SameUpToTime t') : t'.SameUpToTime t :=
  ⟨h.staleTimeoutMs.symm, h.resolver.symm, fun key => (h.lookup key).symm⟩

theorem trans (h : t.SameUpToTime t') (h' : t'.SameUpToTime t'') : t.SameUpToTime t'' :=
  ⟨h.staleTimeoutMs.trans h'.staleTimeoutMs, h.resolver.trans h'.resolver,
    fun key => (h.lookup key).trans (h'.lookup key)⟩

/-- The same keys are tracked, with connections that agree up to timestamps. -/
theorem lookup_cases (h : t.SameUpToTime t') (key : ConnectionKey) :
    (t.connections.lookup key = none ∧ t'.connections.lookup key = none) ∨
      ∃ conn conn', t.connections.lookup key = some conn ∧
        t'.connections.lookup key = some conn' ∧ conn.untimed = conn'.untimed := by
  have hk := h.lookup key
  cases h1 : t.connections.lookup key with
  | none =>
    rw [h1] at hk
    exact Or.inl ⟨rfl, Option.map_eq_none_iff.mp hk.symm⟩
  | some conn =>
    rw [h1] at hk
    obtain ⟨conn', h2, h3⟩ := Option.map_eq_some_iff.mp hk.symm
    exact Or.inr ⟨conn, conn', rfl, h2, h3.symm⟩

theorem buffered (h : t.SameUpToTime t') (key : ConnectionKey) (d : Direction) :
    t.buffered key d = t'.buffered key d := by
  unfold ConnectionTracker.buffered
  obtain ⟨h1, h2⟩ | ⟨conn, conn', h1, h2, h3⟩ := h.lookup_cases key
  · rw [h1, h2]
  · rw [h1, h2]
    exact (TrackedConnection.untimed_eq_iff.mp h3).2 d

theorem clean (h : t.SameUpToTime t') {c : Call} : t.Clean c ↔ t'.Clean c := by
  unfold Clean
  rw [h.buffered]

variable [OriginResolver ρ]

/-- Calls of the same stream work on the same connection. -/
theorem target (h : t.SameUpToTime t') {c c' : Call} (hc : c.SameStream c') :
    (t.target c).1.untimed = (t'.target c').1.untimed ∧ (t.target c).2 = (t'.target c').2 := by
  unfold ConnectionTracker.target
  rw [← hc.key, ← hc.endpointA, ← hc.endpointB]
  obtain ⟨h1, h2⟩ | ⟨conn, conn', h1, h2, h3⟩ := h.lookup_cases c.key
  · simp only [h1, h2, h.resolver]
    exact ⟨rfl, trivial⟩
  · simp only [h1, h2]
    exact ⟨h3, h.resolver⟩

/-- The same payload at another time leaves the same tracker. -/
theorem call (h : t.SameUpToTime t') {c c' : Call} (hc : c.SameStream c')
    (hp : c.payload = c'.payload) : (t.call tp c).SameUpToTime (t'.call tp c') := by
  by_cases hne : c.payload = []
  · rw [call_of_nil hne, call_of_nil (hp ▸ hne)]
    exact h
  · obtain ⟨hconn, hres⟩ := h.target hc
    refine ⟨by simpa using h.staleTimeoutMs, ?_, fun key => ?_⟩
    · rw [resolver_call hne, resolver_call (hp ▸ hne)]
      exact hres
    · rw [lookup_call hne, lookup_call (hp ▸ hne), ← hc.key, ← hc.direction, ← hp]
      split_ifs
      · exact congrArg some (TrackedConnection.ingest_untimed_congr hconn _ _ _)
      · exact h.lookup key

theorem calls (cs : List Call) (h : t.SameUpToTime t') :
    (t.calls tp cs).SameUpToTime (t'.calls tp cs) :=
  List.foldl_rel h fun _ _ _ _ hs => hs.call ⟨rfl, rfl, rfl, rfl⟩ rfl

theorem cleanRun {cs : List Call} (h : t.SameUpToTime t') (hc : t.CleanRun tp cs) :
    t'.CleanRun tp cs := by
  induction cs generalizing t t' with
  | nil => trivial
  | cons c cs ih => exact ⟨h.clean.mp hc.1, ih (h.call ⟨rfl, rfl, rfl, rfl⟩ rfl) hc.2⟩

end SameUpToTime

variable [OriginResolver ρ] {t : ConnectionTracker ρ}

theorem clean_target (c : Call) : (t.target c).1.Clean c.direction c.payload ↔ t.Clean c := by
  unfold TrackedConnection.Clean Clean
  rw [target_buf]

/-- Ingesting a clean payload in two calls is clean, and leaves what ingesting it at once leaves. -/
theorem call_append (tp : TlsParser) {c c₁ c₂ : Call} (hc₁ : c.SameStream c₁) (hc₂ : c.SameStream c₂)
    (hp : c₁.payload ++ c₂.payload = c.payload) (h₁ : c₁.payload ≠ []) (h₂ : c₂.payload ≠ [])
    (hc : t.Clean c) :
    t.Clean c₁ ∧ (t.call tp c₁).Clean c₂ ∧
      ((t.call tp c₁).call tp c₂).SameUpToTime (t.call tp c) := by
  have hne : c.payload ≠ [] := by rw [← hp]; simp [h₁]
  have hkey : c₂.key = c₁.key := hc₂.key.symm.trans hc₁.key
  have hdir : c₂.direction = c₁.direction := hc₂.direction.symm.trans hc₁.direction
  obtain ⟨hconn, hres⟩ := (SameUpToTime.refl t).target hc₁
  -- The second call finds the connection that the first one left.
  have hlook : (t.call tp c₁).connections.lookup c₂.key =
      some ((t.target c₁).1.ingest tp c₁.direction c₁.payload c₁.nowMs) := by
    rw [lookup_call h₁, if_pos hkey]
  have htarget := target_of_some hlook
  have hclean : (t.target c₁).1.Clean c₁.direction (c₁.payload ++ c₂.payload) := by
    have hct := (clean_target c).mpr hc
    unfold TrackedConnection.Clean at hct ⊢
    rwa [hp, ← hc₁.direction, ← (TrackedConnection.untimed_eq_iff.mp hconn).2]
  obtain ⟨hclean₁, hclean₂⟩ := TrackedConnection.clean_append tp hclean c₁.nowMs
  refine ⟨(clean_target c₁).mp hclean₁, (clean_target c₂).mp ?_, ?_, ?_, fun key => ?_⟩
  · rw [htarget, hdir]
    exact hclean₂
  · simp
  · rw [resolver_call h₂, htarget, resolver_call h₁, resolver_call hne]
    exact hres.symm
  · rw [lookup_call h₂, lookup_call h₁, lookup_call hne, hkey, htarget, ← hc₁.key, hdir]
    split_ifs
    · refine congrArg some ?_
      rw [TrackedConnection.ingest_append hclean c.nowMs, hp, ← hc₁.direction]
      exact TrackedConnection.ingest_untimed_congr hconn.symm _ _ _
    · rfl

theorem cleanRun_append {cs ds : List Call} :
    t.CleanRun tp (cs ++ ds) ↔ t.CleanRun tp cs ∧ (t.calls tp cs).CleanRun tp ds := by
  induction cs generalizing t with
  | nil => simp [CleanRun]
  | cons c cs ih => rw [List.cons_append, CleanRun, ih, CleanRun, calls_cons, and_assoc]

/-- Ingesting a clean payload in any parts is clean, and leaves what ingesting it at once leaves. -/
theorem calls_cutInto (tp : TlsParser) {c : Call} {ds : List Call} (hcut : c.CutInto ds) (hc : t.Clean c) :
    t.CleanRun tp ds ∧ (t.calls tp ds).SameUpToTime (t.call tp c) := by
  induction ds generalizing t c with
  | nil =>
    rw [call_of_nil hcut.payload.symm]
    exact ⟨trivial, SameUpToTime.refl t⟩
  | cons d ds ih =>
    have hd := hcut.stream d (List.mem_cons_self ..)
    have hp := hcut.payload
    rw [List.map_cons, List.flatten_cons] at hp
    -- The later parts together are one more call `e`.
    set e : Call := { c with payload := (ds.map Call.payload).flatten } with he
    have hstream : c.SameStream e := ⟨rfl, rfl, rfl, rfl⟩
    have hecut : e.CutInto ds :=
      ⟨rfl, fun x hx => hcut.ne_nil x (List.mem_cons_of_mem _ hx),
        fun x hx => ⟨(hcut.stream x (List.mem_cons_of_mem _ hx)).key,
          (hcut.stream x (List.mem_cons_of_mem _ hx)).direction,
          (hcut.stream x (List.mem_cons_of_mem _ hx)).endpointA,
          (hcut.stream x (List.mem_cons_of_mem _ hx)).endpointB⟩⟩
    by_cases hrest : (ds.map Call.payload).flatten = []
    · have hnil : ds = [] := by
        cases ds with
        | nil => rfl
        | cons x xs =>
          rw [List.map_cons, List.flatten_cons, List.append_eq_nil_iff] at hrest
          exact absurd hrest.1 (hcut.ne_nil x (by simp))
      rw [hrest, List.append_nil] at hp
      subst hnil
      refine ⟨⟨?_, trivial⟩, ((SameUpToTime.refl t).call hd hp.symm).symm⟩
      unfold Clean at hc ⊢
      rwa [hp, ← hd.key, ← hd.direction]
    · obtain ⟨h₁, h₂, hsame⟩ := call_append tp hd hstream hp
        (hcut.ne_nil d (List.mem_cons_self ..)) hrest hc
      obtain ⟨hrun, hsame'⟩ := ih hecut h₂
      exact ⟨⟨h₁, hrun⟩, hsame'.trans hsame⟩

/-- A segmentation of clean calls is clean, and leaves what these calls leave. -/
theorem calls_segmentation {cs ds : List Call} (hseg : Segmentation cs ds)
    (hc : t.CleanRun tp cs) :
    t.CleanRun tp ds ∧ (t.calls tp ds).SameUpToTime (t.calls tp cs) := by
  induction hseg generalizing t with
  | nil => exact ⟨trivial, SameUpToTime.refl t⟩
  | @cons c cs ds es hcut _ ih =>
    obtain ⟨hclean, hsame⟩ := calls_cutInto tp hcut hc.1
    obtain ⟨hclean', hsame'⟩ := ih hc.2
    refine ⟨cleanRun_append.mpr ⟨hclean, hsame.symm.cleanRun hclean'⟩, ?_⟩
    rw [calls_append, calls_cons]
    exact (hsame.calls es).trans hsame'

/-- Segmentation independence: from every tracker, a clean payload may be ingested in two parts, and
any two segmentations of the same clean calls leave the same tracker, up to timestamps. -/
theorem segmentation_independent (t : ConnectionTracker ρ) :
    (∀ c c₁ c₂ : Call, c.CutInto [c₁, c₂] → t.Clean c →
      (t.calls tp [c₁, c₂]).SameUpToTime (t.call tp c)) ∧
    (∀ cs ds ds' : List Call, t.CleanRun tp cs → Segmentation cs ds → Segmentation cs ds' →
      (t.calls tp ds).SameUpToTime (t.calls tp ds')) := by
  refine ⟨fun c c₁ c₂ hcut hc => (calls_cutInto tp hcut hc).2, fun cs ds ds' hc hs hs' => ?_⟩
  exact (calls_segmentation hs hc).2.trans (calls_segmentation hs' hc).2.symm

/-- A ClientHello record cut inside its header. -/
theorem segmentation_independent_clientHello :
    let t := ConnectionTracker.withResolver (FixedResolver.mk .unknown)
    let c : Call := ⟨Reference.key, .clientToServer, Reference.clientEndpoint,
      Reference.serverEndpoint, Reference.record 22 Reference.clientHello13, 7⟩
    let c₁ : Call := { c with payload := c.payload.take 3 }
    let c₂ : Call := { c with payload := c.payload.drop 3, nowMs := 9 }
    (t.calls Reference.parser [c₁, c₂]).SameUpToTime (t.call Reference.parser c) ∧
      (t.calls Reference.parser [c₁, c₂]).SameUpToTime (t.calls Reference.parser [c]) := by
  intro t c c₁ c₂
  have hclean : t.Clean c := ⟨by decide, by decide⟩
  have hcut : c.CutInto [c₁, c₂] :=
    ⟨by decide, by decide, by simpa using ⟨⟨rfl, rfl, rfl, rfl⟩, ⟨rfl, rfl, rfl, rfl⟩⟩⟩
  have hone : c.CutInto [c] := ⟨by decide, by decide, by simpa using ⟨rfl, rfl, rfl, rfl⟩⟩
  exact ⟨(segmentation_independent t).1 c c₁ c₂ hcut hclean,
    (segmentation_independent t).2 [c] [c₁, c₂] [c] ⟨hclean, trivial⟩
      (.cons hcut .nil) (.cons hone .nil)⟩

end ConnectionTracker

end SeeHandshake

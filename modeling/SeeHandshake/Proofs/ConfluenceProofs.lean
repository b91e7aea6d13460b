import Mathlib.Logic.Function.Basic
import SeeHandshake.Lib.Product
import SeeHandshake.Parser.Reference
import SeeHandshake.Proofs.CallProofs
import SeeHandshake.Proofs.HandshakeProofs
import SeeHandshake.Tracker.Negotiated

/-!
# Proofs: the order of the two directions

As far as the negotiated fields go, a connection is the product of two connections, one that sees the
segments of the client only and one that sees those of the server only. So the order in which the
segments of the two sides were captured does not matter.
-/

namespace SeeHandshake

open Lib

variable {tp : TlsParser}

/-! ## One message -/

section Message

variable {handshake : HandshakeInfo} {views : Direction → HandshakeInfo}

/-- The negotiated fields are joined from the views. -/
def Joined (handshake : HandshakeInfo) (views : Direction → HandshakeInfo) : Prop :=
  handshake.negotiated = .join (views .clientToServer) (views .serverToClient)

theorem Joined.congr {handshake' : HandshakeInfo} {views' : Direction → HandshakeInfo}
    (h : Joined handshake views) (hn : handshake'.negotiated = handshake.negotiated)
    (hviews : ∀ d, (views' d).negotiated = (views d).negotiated) : Joined handshake' views' := by
  have hc := hviews .clientToServer
  have hs := hviews .serverToClient
  unfold Joined at h ⊢
  simp only [HandshakeInfo.negotiated, Negotiated.join, Negotiated.mk.injEq] at h hn hc hs ⊢
  obtain ⟨c1, c2, c3, c4, c5, -, -⟩ := hc
  obtain ⟨-, -, -, -, s5, s6, s7⟩ := hs
  rw [c1, c2, c3, c4, c5, s5, s6, s7]
  obtain ⟨h1, h2, h3, h4, h5, h6, h7⟩ := h
  obtain ⟨n1, n2, n3, n4, n5, n6, n7⟩ := hn
  exact ⟨n1.trans h1, n2.trans h2, n3.trans h3, n4.trans h4, n5.trans h5, n6.trans h6, n7.trans h7⟩

/-- The client's version is kept once there is one, so it is hidden behind the server's. -/
theorem Joined.mergeClientHello (h : Joined handshake views) (info : ClientHelloInfo) :
    (mergeClientHello handshake info).negotiated =
      .join (SeeHandshake.mergeClientHello (views .clientToServer) info)
        (views .serverToClient) := by
  simp only [Joined, HandshakeInfo.negotiated, Negotiated.join, Negotiated.mk.injEq] at h
  obtain ⟨h1, h2, h3, h4, h5, h6, h7⟩ := h
  unfold HandshakeInfo.negotiated Negotiated.join SeeHandshake.mergeClientHello
  simp only [h1, h2, h3, h4, h5, h6, h7, Negotiated.mk.injEq, true_and, and_true]
  cases info.maxVersion with
  | none => rfl
  | some v => cases (views .serverToClient).tlsVersion <;> rfl

/-- The server's version is replaced whenever there is a new one. -/
theorem Joined.mergeServerHello (h : Joined handshake views) (info : ServerHelloInfo) :
    (mergeServerHello handshake info).negotiated =
      .join (views .clientToServer)
        (SeeHandshake.mergeServerHello (views .serverToClient) info) := by
  simp only [Joined, HandshakeInfo.negotiated, Negotiated.join, Negotiated.mk.injEq] at h
  obtain ⟨h1, h2, h3, h4, h5, h6, h7⟩ := h
  unfold HandshakeInfo.negotiated Negotiated.join SeeHandshake.mergeServerHello
  simp only [h1, h2, h3, h4, h5, h6, h7, Option.or_assoc]

/-- What leaves the negotiated fields alone, in the handshake and in a view, leaves them joined. -/
theorem Joined.unchanged {handshake' view : HandshakeInfo} (h : Joined handshake views) (d : Direction)
    (hn : handshake'.negotiated = handshake.negotiated)
    (hview : view.negotiated = (views d).negotiated) :
    Joined handshake' (Function.update views d view) := by
  refine h.congr hn fun d' => ?_
  by_cases hd : d' = d
  · subst hd
    rw [Function.update_self, hview]
  · rw [Function.update_of_ne hd]

/-- A message changes the negotiated fields as it changes the view of its direction. -/
theorem Joined.message (h : Joined handshake views) (tp : TlsParser) (d : Direction)
    (msg : TlsMessage) :
    Joined (applyHandshakeMessage tp d handshake msg)
      (Function.update views d (applyHandshakeMessage tp d (views d) msg)) := by
  -- All messages but the two hellos change the stage only.
  cases msg with
  | other => exact h.unchanged d rfl rfl
  | handshake hs =>
    cases hs with
    | clientHello ch =>
      cases d with
      | clientToServer => exact h.mergeClientHello _
      | serverToClient => exact h.unchanged _ rfl rfl
    | serverHello sh =>
      cases d with
      | clientToServer => exact h.unchanged _ rfl rfl
      | serverToClient => exact h.mergeServerHello _
    | certificate =>
      have hcert : ∀ hs : HandshakeInfo, (applyHandshakeMessage tp .serverToClient hs
          (.handshake .certificate)).negotiated = hs.negotiated := by
        intro hs
        unfold applyHandshakeMessage
        simp only
        split_ifs <;> rfl
      cases d with
      | clientToServer => exact h.unchanged _ rfl rfl
      | serverToClient => exact h.unchanged _ (hcert _) (hcert _)
    | serverKeyExchange => exact h.unchanged d rfl rfl
    | serverDone => exact h.unchanged d rfl rfl
    | clientKeyExchange => cases d <;> exact h.unchanged _ rfl rfl
    | other => cases d <;> exact h.unchanged _ rfl rfl

/-- A Handshake record changes the negotiated fields as it changes the view of its direction. -/
theorem Joined.record (h : Joined handshake views) (tp : TlsParser) (d : Direction)
    (payload : Bytes) :
    Joined (applyHandshakeRecord tp handshake payload d)
      (Function.update views d (applyHandshakeRecord tp (views d) payload d)) := by
  rw [applyHandshakeRecord_eq_foldl, applyHandshakeRecord_eq_foldl]
  generalize messagesOf tp payload = msgs
  induction msgs generalizing handshake views with
  | nil => rwa [List.foldl_nil, List.foldl_nil, Function.update_eq_self]
  | cons msg msgs ih =>
    have h' := ih (h.message tp d msg)
    rwa [Function.update_self, Function.update_idem] at h'

end Message

/-! ## One segment -/

namespace TrackedConnection

/-- A connection next to one that follows the client only and one that follows the server only. -/
structure SideBySide (conn : TrackedConnection) (views : Direction → TrackedConnection) : Prop where
  joined : Joined conn.state.handshake fun d => (views d).state.handshake
  buf : ∀ d, conn.buf d = (views d).buf d
  ccsSeen : ∀ d, conn.ccsSeen d = (views d).ccsSeen d

section Segment

variable {conn : TrackedConnection} {views : Direction → TrackedConnection} {d : Direction}

theorem SideBySide.update {conn' view : TrackedConnection} (h : SideBySide conn views)
    (joined : Joined conn'.state.handshake
      (Function.update (fun k => (views k).state.handshake) d view.state.handshake))
    (buf : conn'.buf d = view.buf d) (buf_ne : ∀ k, k ≠ d → conn'.buf k = conn.buf k)
    (ccsSeen : conn'.ccsSeen d = view.ccsSeen d)
    (ccsSeen_ne : ∀ k, k ≠ d → conn'.ccsSeen k = conn.ccsSeen k) :
    SideBySide conn' (Function.update views d view) := by
  refine ⟨?_, fun k => ?_, fun k => ?_⟩
  · simpa only [Function.apply_update fun _ c => TrackedConnection.state c |>.handshake] using joined
  · by_cases hk : k = d
    · subst hk
      rw [Function.update_self, buf]
    · rw [Function.update_of_ne hk, buf_ne k hk, h.buf]
  · by_cases hk : k = d
    · subst hk
      rw [Function.update_self, ccsSeen]
    · rw [Function.update_of_ne hk, ccsSeen_ne k hk, h.ccsSeen]

/-- A record does to the connection what it does to the view of its direction, whatever the time. -/
theorem SideBySide.processRecord (h : SideBySide conn views) (tp : TlsParser) (t t' : UInt64)
    (r : TlsRecord) :
    SideBySide (processRecord tp d t conn r)
      (Function.update views d (SeeHandshake.processRecord tp d t' (views d) r)) := by
  refine h.update ?_ ?_ ?_ ?_ ?_
  · rw [processRecord_handshakeInfo, processRecord_handshakeInfo, ← h.ccsSeen d]
    cases r.recordType with
    | handshake =>
      by_cases hccs : conn.ccsSeen d
      · simp only [if_pos hccs]
        exact h.joined.unchanged d rfl rfl
      · simp only [if_neg hccs]
        exact h.joined.record tp d r.payload
    | applicationData =>
      obtain ⟨stage, subject, issuer, hconn⟩ := applyEncryptedRecord_handshake conn d
      obtain ⟨stage', subject', issuer', hview⟩ := applyEncryptedRecord_handshake (views d) d
      exact h.joined.unchanged d (by simp only [hconn]; rfl) (by simp only [hview]; rfl)
    | changeCipherSpec =>
      have hccs : ∀ hs : HandshakeInfo, (applyCcs hs d).negotiated = hs.negotiated := by
        intro hs
        unfold applyCcs
        cases d <;> simp only <;> split_ifs <;> rfl
      exact h.joined.unchanged d (hccs _) (hccs _)
    | alert => exact h.joined.unchanged d rfl rfl
    | other v => exact h.joined.unchanged d rfl rfl
  · rw [processRecord_buf, processRecord_buf, h.buf]
  · exact fun k _ => processRecord_buf d t conn r k
  · rw [processRecord_ccsSeen, processRecord_ccsSeen, h.ccsSeen]
  · intro k hk
    rw [processRecord_ccsSeen]
    simp [hk]

theorem SideBySide.foldl (h : SideBySide conn views) (tp : TlsParser) (t t' : UInt64)
    (rs : List TlsRecord) :
    SideBySide (rs.foldl (SeeHandshake.processRecord tp d t) conn)
      (Function.update views d (rs.foldl (SeeHandshake.processRecord tp d t') (views d))) := by
  induction rs generalizing conn views with
  | nil => rwa [List.foldl_nil, List.foldl_nil, Function.update_eq_self]
  | cons r rs ih =>
    have h' := ih (h.processRecord (d := d) tp t t' r)
    rwa [Function.update_self, Function.update_idem] at h'

/-- A fatal error leaves the negotiated fields alone, in the connection and in the view. -/
theorem SideBySide.errored (h : SideBySide conn views) (t t' : UInt64) (text : String) :
    SideBySide (conn.errored t text) (Function.update views d ((views d).errored t' text)) := by
  refine h.update (h.joined.unchanged d rfl rfl) ?_ ?_ ?_ ?_
  · rw [buf_errored, buf_errored, h.buf]
  · exact fun k _ => buf_errored conn t text k
  · rw [ccsSeen_errored, ccsSeen_errored, h.ccsSeen]
  · exact fun k _ => ccsSeen_errored conn t text k

theorem SideBySide.setBuf (h : SideBySide conn views) (bytes : Bytes) :
    SideBySide (conn.setBuf d bytes) (Function.update views d ((views d).setBuf d bytes)) := by
  refine h.update (h.joined.unchanged d ?_ ?_) ?_ ?_ ?_ ?_
  · rw [state_setBuf]
  · rw [state_setBuf]
  · rw [buf_setBuf_self, buf_setBuf_self]
  · exact fun k hk => buf_setBuf_of_ne conn hk bytes
  · rw [ccsSeen_setBuf, ccsSeen_setBuf, h.ccsSeen]
  · exact fun k _ => ccsSeen_setBuf conn d k bytes

theorem SideBySide.touched (h : SideBySide conn views) (t t' : UInt64) :
    SideBySide (conn.touched t) (Function.update views d ((views d).touched t')) := by
  refine h.update (h.joined.unchanged d rfl rfl) ?_ ?_ ?_ ?_
  · rw [buf_touched, buf_touched, h.buf]
  · exact fun k _ => buf_touched conn t k
  · rw [ccsSeen_touched, ccsSeen_touched, h.ccsSeen]
  · exact fun k _ => ccsSeen_touched conn t k

/-- A payload takes the same way through `ingest` in the connection and in the view of its
direction. -/
theorem SideBySide.ingest (h : SideBySide conn views) (tp : TlsParser) (payload : Bytes)
    (t t' : UInt64) :
    SideBySide (conn.ingest tp d payload t)
      (Function.update views d ((views d).ingest tp d payload t')) := by
  have hbuf := h.buf d
  by_cases hcap : (conn.buf d).length + payload.length > MAX_REASSEMBLY_BYTES
  · rw [ingest_overflow hcap, ingest_overflow (by rwa [← hbuf])]
    exact h.errored t t' _
  · have hcap' : ¬ ((views d).buf d).length + payload.length > MAX_REASSEMBLY_BYTES := by
      rwa [← hbuf]
    cases hs : (recordSplitter.peel (conn.buf d ++ payload)).stop with
    | some n =>
      rw [ingest_oversized hcap hs, ingest_oversized hcap' (by rwa [← hbuf])]
      have h' := (h.errored (d := d) t t' (oversizedRecord n).toString).setBuf (d := d) []
      rwa [Function.update_self, Function.update_idem] at h'
    | none =>
      rw [ingest_ok hcap hs, ingest_ok hcap' (by rwa [← hbuf]), ← hbuf]
      have h' := ((h.touched (d := d) t t').setBuf (d := d)
        (recordSplitter.peel (conn.buf d ++ payload)).rest).foldl (d := d) tp t t'
        ((recordSplitter.peel (conn.buf d ++ payload)).frames.map Prod.fst)
      rwa [Function.update_self, Function.update_self, Function.update_idem,
        Function.update_idem] at h'

/-- What a segment does to the view of a direction; the views do not keep time. -/
def viewStep (tp : TlsParser) (d : Direction) (view : TrackedConnection) (seg : Segment) :
    TrackedConnection :=
  if seg.direction = d then view.step tp { seg with nowMs := 0 } else view

/-- As far as the negotiated fields go, a connection is the product of its two views. -/
theorem isProduct (tp : TlsParser) :
    IsProduct (step tp) (viewStep tp) (fun d seg => decide (seg.direction = d)) SideBySide where
  step_rel conn views seg h := by
    have hupdate : (fun d => viewStep tp d (views d) seg) =
        Function.update views seg.direction
          ((views seg.direction).step tp { seg with nowMs := 0 }) := by
      funext d
      unfold viewStep
      by_cases hd : d = seg.direction
      · subst hd
        rw [if_pos rfl, Function.update_self]
      · rw [if_neg (Ne.symm hd), Function.update_of_ne hd]
    rw [hupdate]
    by_cases hne : seg.payload = []
    · rw [step_of_nil hne, @step_of_nil tp _ { seg with nowMs := 0 } hne,
        Function.update_eq_self]
      exact h
    · rw [step_of_ne_nil hne, @step_of_ne_nil tp _ { seg with nowMs := 0 } hne]
      exact h.ingest tp seg.payload seg.nowMs 0
  loc_of_not_own d view seg hd := if_neg (by simpa using hd)

end Segment

/-- Runs that bring the same payloads in each direction settle the same fields. -/
theorem negotiated_run {conn conn' : TrackedConnection} {views : Direction → TrackedConnection}
    (h : SideBySide conn views) (h' : SideBySide conn' views) {segs segs' : List Segment}
    (heq : ∀ d, (segs.filter fun seg => decide (seg.direction = d)).map Segment.payload =
      (segs'.filter fun seg => decide (seg.direction = d)).map Segment.payload) :
    (conn.run tp segs).state.handshake.negotiated =
      (conn'.run tp segs').state.handshake.negotiated := by
  have hloc : ∀ (d : Direction) (view : TrackedConnection) (seg seg' : Segment),
      decide (seg.direction = d) → decide (seg'.direction = d) → seg.payload = seg'.payload →
      viewStep tp d view seg = viewStep tp d view seg' := by
    intro d view seg seg' hd hd' hp
    unfold viewStep
    rw [if_pos (of_decide_eq_true hd), if_pos (of_decide_eq_true hd'),
      show ({ seg with nowMs := 0 } : Segment) = { seg' with nowMs := 0 } by
        rw [Segment.mk.injEq]
        exact ⟨(of_decide_eq_true hd).trans (of_decide_eq_true hd').symm, hp, rfl⟩]
  obtain ⟨g, hg, hg'⟩ := (isProduct tp).confluent hloc h h' heq
  exact hg.joined.trans hg'.joined.symm

theorem sideBySide_refl (conn : TrackedConnection) : SideBySide conn fun _ => conn := by
  refine ⟨?_, fun _ => rfl, fun _ => rfl⟩
  unfold Joined Negotiated.join
  rw [Option.or_self]
  rfl

theorem sideBySide_created (key : ConnectionKey) (t : UInt64) (origin : Origin) :
    SideBySide (created key t origin) fun _ => created key 0 .unknown := by
  refine ⟨rfl, fun d => ?_, fun d => ?_⟩
  · cases d <;> rfl
  · cases d <;> rfl

end TrackedConnection

/-! ## The tracker -/

theorem Call.payloads_eq (key : ConnectionKey) (d : Direction) (cs : List Call) :
    Call.payloads key d cs =
      (((cs.filter fun c => decide (c.key = key)).map Call.segment).filter fun seg =>
        decide (seg.direction = d)).map Segment.payload := by
  unfold Call.payloads
  rw [List.filter_map, List.map_map, List.filter_filter]
  congr 1
  refine List.filter_congr fun c _ => ?_
  rw [Bool.eq_iff_iff, Bool.and_eq_true, Function.comp_apply, decide_eq_true_iff,
    decide_eq_true_iff, decide_eq_true_iff]
  exact and_comm

namespace ConnectionTracker

variable {ρ : Type} [OriginResolver ρ] {t : ConnectionTracker ρ} {key : ConnectionKey}

/-- A tracked connection runs through the segments of its key. -/
theorem lookup_calls_of_some (tp : TlsParser) {conn : TrackedConnection}
    (h : t.connections.lookup key = some conn) (cs : List Call) :
    (t.calls tp cs).connections.lookup key =
      some (conn.run tp ((cs.filter fun c => decide (c.key = key)).map Call.segment)) := by
  induction cs generalizing t conn with
  | nil => exact h
  | cons c cs ih =>
    by_cases hkey : c.key = key
    · rw [List.filter_cons_of_pos (by simpa using hkey), List.map_cons, calls_cons,
        TrackedConnection.run_cons]
      refine ih ?_
      by_cases hne : c.payload = []
      · rw [call_of_nil hne, @TrackedConnection.step_of_nil tp _ c.segment hne]
        exact h
      · rw [lookup_call hne, if_pos hkey.symm, target_of_some (hkey ▸ h),
          @TrackedConnection.step_of_ne_nil tp _ c.segment hne]
        rfl
    · rw [List.filter_cons_of_neg (by simpa using hkey), calls_cons]
      refine ih ?_
      by_cases hne : c.payload = []
      · rwa [call_of_nil hne]
      · rw [lookup_call hne, if_neg (Ne.symm hkey)]
        exact h

/-- A key that is not tracked stays so until its first nonempty payload, and then runs through the
segments of its key from a new connection. -/
theorem lookup_calls_of_none (tp : TlsParser) (h : t.connections.lookup key = none)
    (cs : List Call) :
    ((∀ c ∈ cs, c.key = key → c.payload = []) ∧ (t.calls tp cs).connections.lookup key = none) ∨
      (¬ (∀ c ∈ cs, c.key = key → c.payload = []) ∧ ∃ nowMs origin,
        (t.calls tp cs).connections.lookup key =
          some ((TrackedConnection.created key nowMs origin).run tp
            ((cs.filter fun c => decide (c.key = key)).map Call.segment))) := by
  induction cs generalizing t with
  | nil => exact Or.inl ⟨fun c hc => absurd hc List.not_mem_nil, h⟩
  | cons c cs ih =>
    by_cases hfirst : c.key = key ∧ c.payload ≠ []
    · obtain ⟨hkey, hne⟩ := hfirst
      refine Or.inr ⟨fun hall => hne (hall c (List.mem_cons_self ..) hkey), c.nowMs,
        (OriginResolver.resolve t.resolver c.endpointA c.endpointB).1, ?_⟩
      have hlook : (t.call tp c).connections.lookup key = some ((TrackedConnection.created key
          c.nowMs (OriginResolver.resolve t.resolver c.endpointA c.endpointB).1).step tp
            c.segment) := by
        rw [lookup_call hne, if_pos hkey.symm, target_of_none (hkey ▸ h), hkey,
          @TrackedConnection.step_of_ne_nil tp _ c.segment hne]
        rfl
      rw [List.filter_cons_of_pos (by simpa using hkey), List.map_cons, calls_cons,
        TrackedConnection.run_cons]
      exact lookup_calls_of_some tp hlook cs
    · have hkept : (t.call tp c).connections.lookup key = none := by
        by_cases hne : c.payload = []
        · rwa [call_of_nil hne]
        · rw [lookup_call hne, if_neg fun hk => hfirst ⟨hk.symm, hne⟩]
          exact h
      have hhead : c.key = key → c.payload = [] := fun hk => by_contra fun hne => hfirst ⟨hk, hne⟩
      have hall : (∀ c' ∈ c :: cs, c'.key = key → c'.payload = []) ↔
          ∀ c' ∈ cs, c'.key = key → c'.payload = [] := by
        rw [List.forall_mem_cons]
        exact and_iff_right hhead
      rw [hall, calls_cons]
      refine (ih hkept).imp_right fun ⟨hsome, nowMs, origin, hlook⟩ => ⟨hsome, nowMs, origin, ?_⟩
      rw [hlook]
      by_cases hkey : c.key = key
      · -- An empty payload before the connection is created is as well ingested after it.
        rw [List.filter_cons_of_pos (by simpa using hkey), List.map_cons,
          TrackedConnection.run_cons,
          @TrackedConnection.step_of_nil tp _ c.segment (hhead hkey)]
      · rw [List.filter_cons_of_neg (by simpa using hkey)]

theorem payload_nil_iff (cs : List Call) :
    (∀ c ∈ cs, c.key = key → c.payload = []) ↔ ∀ d, ∀ p ∈ Call.payloads key d cs, p = [] := by
  unfold Call.payloads
  constructor
  · intro h d p hp
    obtain ⟨c, hc, rfl⟩ := List.mem_map.mp hp
    obtain ⟨hmem, hkey⟩ := List.mem_filter.mp hc
    exact h c hmem (of_decide_eq_true hkey).1
  · intro h c hmem hkey
    exact h c.direction c.payload (List.mem_map_of_mem
      (List.mem_filter.mpr ⟨hmem, decide_eq_true ⟨hkey, rfl⟩⟩))

/-- Capture-order confluence: two runs that bring the same payloads of the client in the same order,
and the same payloads of the server in the same order, settle the same fields, however the two sides
interleave, also where one of them fails. -/
theorem negotiated_confluent (tp : TlsParser) (t : ConnectionTracker ρ) (key : ConnectionKey)
    {cs cs' : List Call} (h : ∀ d, Call.payloads key d cs = Call.payloads key d cs') :
    (t.calls tp cs).negotiated key = (t.calls tp cs').negotiated key := by
  have hsegs := h
  simp only [Call.payloads_eq] at hsegs
  unfold negotiated
  cases hl : t.connections.lookup key with
  | some conn =>
    rw [lookup_calls_of_some tp hl, lookup_calls_of_some tp hl]
    exact congrArg some (TrackedConnection.negotiated_run conn.sideBySide_refl
      conn.sideBySide_refl hsegs)
  | none =>
    have hnil : (∀ c ∈ cs, c.key = key → c.payload = []) ↔
        ∀ c ∈ cs', c.key = key → c.payload = [] := by
      rw [payload_nil_iff, payload_nil_iff]
      simp only [h]
    rcases lookup_calls_of_none tp hl cs with ⟨hall, hlook⟩ | ⟨hsome, now, origin, hlook⟩
    · rcases lookup_calls_of_none tp hl cs' with ⟨-, hlook'⟩ | ⟨hsome', -⟩
      · rw [hlook, hlook']
      · exact absurd (hnil.mp hall) hsome'
    · rcases lookup_calls_of_none tp hl cs' with ⟨hall', -⟩ | ⟨-, now', origin', hlook'⟩
      · exact absurd (hnil.mpr hall') hsome
      · rw [hlook, hlook']
        exact congrArg some (TrackedConnection.negotiated_run
          (TrackedConnection.sideBySide_created key now origin)
          (TrackedConnection.sideBySide_created key now' origin') hsegs)

/-- A ClientHello captured before or after a ServerHello and an oversized record header. -/
theorem negotiated_confluent_hellos :
    let t := withResolver (FixedResolver.mk .unknown)
    let hello : Call := ⟨Reference.key, .clientToServer, Reference.clientEndpoint,
      Reference.serverEndpoint, Reference.record 22 Reference.clientHello13, 7⟩
    let answer : Call := ⟨Reference.key, .serverToClient, Reference.serverEndpoint,
      Reference.clientEndpoint, Reference.record 22 (Reference.serverHello13 (List.replicate 32 1)), 9⟩
    let broken : Call := { answer with payload := [0x16, 3, 3, 0xff, 0xff] }
    (t.calls Reference.parser [hello, answer, broken]).negotiated Reference.key =
      (t.calls Reference.parser [answer, broken, hello]).negotiated Reference.key := by
  intro t hello answer broken
  exact negotiated_confluent Reference.parser t Reference.key fun d => by cases d <;> decide

end ConnectionTracker

end SeeHandshake

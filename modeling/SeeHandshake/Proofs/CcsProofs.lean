import SeeHandshake.Lib.Simulation
import SeeHandshake.Proofs.LoggingProofs

/-!
# Proofs: ChangeCipherSpec and the extracted handshake

A ChangeCipherSpec leaves the extracted handshake alone as long as no readable Handshake record follows
it in its direction and it does not meet the stage that waits for it. A HelloRetryRequest flight in
middlebox-compatibility mode has such a record, and loses its ServerHello.
-/

namespace SeeHandshake

open Lib

variable {tp : TlsParser}

/-- An unreadable Handshake record changes nothing. -/
theorem applyHandshakeRecord_of_unreadable {payload : Bytes} (h : tp.Unreadable payload)
    (handshake : HandshakeInfo) (d : Direction) :
    applyHandshakeRecord tp handshake payload d = handshake := by
  unfold applyHandshakeRecord
  rcases h with rfl | hbad
  · rfl
  · have ⟨e, he⟩ : ∃ e, tp.parseTlsMessageHandshake payload = .error e := by
      cases hp : tp.parseTlsMessageHandshake payload with
      | error e => exact ⟨e, rfl⟩
      | ok r => exact absurd (by rw [hp]; rfl) hbad
    cases hp : payload.length with
    | zero => rfl
    | succ n =>
      have hne : ¬ payload.isEmpty := by
        intro hempty
        rw [List.isEmpty_iff.mp hempty] at hp
        exact Nat.noConfusion hp
      rw [applyHandshakeLoop, if_neg hne, he]

theorem applyCcs_of_stage {handshake : HandshakeInfo} {d : Direction}
    (hc : d = .clientToServer → handshake.stage ≠ .clientKeyExchange)
    (hs : d = .serverToClient → handshake.stage ≠ .clientFinished) :
    applyCcs handshake d = handshake := by
  cases d with
  | clientToServer => exact if_neg (hc rfl)
  | serverToClient => exact if_neg (hs rfl)

/-- An encrypted record looks at the handshake, the counters and the marker only. -/
theorem applyEncryptedRecord_congr {conn conn' : TrackedConnection}
    (hh : conn.state.handshake = conn'.state.handshake) (hf : conn.flight = conn'.flight)
    (d : Direction) :
    (applyEncryptedRecord conn d).state.handshake = (applyEncryptedRecord conn' d).state.handshake ∧
      (applyEncryptedRecord conn d).flight = (applyEncryptedRecord conn' d).flight := by
  obtain ⟨hs, hc, hm⟩ := TrackedConnection.flight_eq_iff.mp hf
  unfold applyEncryptedRecord TrackedConnection.flight
  rw [hh, hs, hc, hm]
  split_ifs <;> simp only [hh, hs, hc, hm, and_self]

/-! ## The run without the ChangeCipherSpecs -/

/-- A connection, and one that received the same records without the ChangeCipherSpecs. -/
structure CcsSim (conn conn' : TrackedConnection) : Prop where
  handshake : conn.state.handshake = conn'.state.handshake
  flight : conn.flight = conn'.flight
  buf : ∀ d, conn.buf d = []
  buf' : ∀ d, conn'.buf d = []
  ccs' : ∀ d, conn'.ccsSeen d = false

namespace CcsSim

variable {conn conn' : TrackedConnection} {x : Sent}

theorem step_buf_segment (tp : TlsParser) (h : ∀ d, conn.buf d = []) (d : Direction) :
    (conn.step tp x.segment).buf d = [] := by
  rw [TrackedConnection.step_segment tp (h x.direction), processRecord_buf,
    TrackedConnection.buf_touched, h]

theorem applyEncryptedRecord_touched (h : CcsSim conn conn') (t : UInt64) (d : Direction) :
    (applyEncryptedRecord (conn.touched t) d).state.handshake =
        (applyEncryptedRecord (conn'.touched t) d).state.handshake ∧
      (applyEncryptedRecord (conn.touched t) d).flight =
        (applyEncryptedRecord (conn'.touched t) d).flight := by
  have hh : (conn.touched t).state.handshake = (conn'.touched t).state.handshake := h.handshake
  have hf : (conn.touched t).flight = (conn'.touched t).flight := h.flight
  exact applyEncryptedRecord_congr hh hf d

/-- A record that is not a ChangeCipherSpec does the same on both sides. -/
theorem visible (h : CcsSim conn conn') (hok : CcsInert tp conn x)
    (hx : x.type ≠ .changeCipherSpec) :
    CcsSim (conn.step tp x.segment) (conn'.step tp x.segment) := by
  have htype : x.record.toTlsRecord.recordType = x.type := rfl
  have henc := h.applyEncryptedRecord_touched x.nowMs x.direction
  refine ⟨?_, ?_, step_buf_segment tp h.buf, step_buf_segment tp h.buf', fun d => ?_⟩
  · rw [TrackedConnection.step_segment tp (h.buf _), TrackedConnection.step_segment tp (h.buf' _),
      processRecord_handshakeInfo, processRecord_handshakeInfo, htype]
    have hccs' : (conn'.touched x.nowMs).ccsSeen x.direction = false := by
      rw [← h.ccs' x.direction]
      cases x.direction <;> rfl
    have hhand : (conn.touched x.nowMs).state.handshake =
        (conn'.touched x.nowMs).state.handshake := h.handshake
    cases hty : x.type with
    | handshake =>
      simp only [hccs', hhand, Bool.false_eq_true, if_false]
      by_cases hccs : (conn.touched x.nowMs).ccsSeen x.direction
      · -- The record is read on the right only, where there is nothing to read.
        have hseen : conn.ccsSeen x.direction := by
          rw [← hccs]
          cases x.direction <;> rfl
        rw [if_pos hccs]
        exact (applyHandshakeRecord_of_unreadable (hok.handshake hty hseen) _ _).symm
      · rw [if_neg hccs]
    | applicationData => exact henc.1
    | changeCipherSpec => exact absurd hty hx
    | alert => exact hhand
    | other v => exact hhand
  · rw [TrackedConnection.step_segment tp (h.buf _), TrackedConnection.step_segment tp (h.buf' _),
      processRecord_flight, processRecord_flight, htype]
    split_ifs
    · exact henc.2
    · exact h.flight
  · rw [TrackedConnection.step_segment tp (h.buf' _), processRecord_ccsSeen, htype,
      decide_eq_false hx, Bool.false_and, Bool.or_false, ← h.ccs' d]
    cases d <;> rfl

/-- A ChangeCipherSpec does nothing on the left. -/
theorem hidden (h : CcsSim conn conn') (hok : CcsInert tp conn x)
    (hx : x.type = .changeCipherSpec) : CcsSim (conn.step tp x.segment) conn' := by
  have htype : x.record.toTlsRecord.recordType = x.type := rfl
  refine ⟨?_, ?_, step_buf_segment tp h.buf, h.buf', h.ccs'⟩
  · rw [TrackedConnection.step_segment tp (h.buf _), processRecord_handshakeInfo, htype, hx,
      ← h.handshake]
    exact applyCcs_of_stage (hok.client hx) (hok.server hx)
  · rw [TrackedConnection.step_segment tp (h.buf _), processRecord_flight, htype, hx]
    exact h.flight

end CcsSim

/-- The extracted handshake does not depend on the ChangeCipherSpecs: in a run from a new connection
in which no readable Handshake record follows a ChangeCipherSpec of its direction, and no
ChangeCipherSpec meets the stage that waits for it, the handshake in every state reached is the one
of the same records without the ChangeCipherSpecs. -/
theorem handshake_eq_without_ccs (tp : TlsParser) (key : ConnectionKey) (t : UInt64)
    (origin : Origin) (xs : List Sent)
    (hok : AllSteps (fun c (x : Sent) => c.step tp x.segment) (CcsInert tp)
      (TrackedConnection.created key t origin) xs) :
    ∀ a, a <+: xs →
      ((TrackedConnection.created key t origin).receive tp a).state.handshake =
        ((TrackedConnection.created key t origin).receive tp
          (a.filter (·.type ≠ .changeCipherSpec))).state.handshake := by
  intro a ha
  obtain ⟨b, rfl⟩ := ha
  set start := TrackedConnection.created key t origin with hstart
  have hnew : CcsSim start start :=
    ⟨rfl, rfl, fun d => by cases d <;> rfl, fun d => by cases d <;> rfl,
      fun d => by cases d <;> rfl⟩
  have hsim : CcsSim (a.foldl (fun c (x : Sent) => c.step tp x.segment) start)
      ((a.filter (·.type ≠ .changeCipherSpec)).foldl (fun c x => c.step tp x.segment) start) :=
    foldl_filter_sim (fun _ _ _ h hx hp => h.visible hx (by simpa using hp))
      (fun _ _ _ h hx hp => h.hidden hx (by simpa using hp)) hnew hok.of_append
  rw [TrackedConnection.receive_eq_foldl, TrackedConnection.receive_eq_foldl]
  exact hsim.handshake

/-- A TLS 1.3 handshake with a HelloRetryRequest in middlebox-compatibility mode: the server sends its
ChangeCipherSpec right after the HelloRetryRequest. -/
def retryFlight : List Sent :=
  [.of .clientToServer 22 Reference.clientHello13,
    .of .serverToClient 22 (Reference.serverHello13 HELLO_RETRY_REQUEST_RANDOM.val),
    .of .serverToClient 20 [1],
    .of .clientToServer 22 Reference.clientHello13,
    .of .serverToClient 22 (Reference.serverHello13 (List.replicate 32 0))]

/-- The ServerHello after that ChangeCipherSpec is not extracted. -/
theorem serverHello_lost_after_ccs :
    let start := TrackedConnection.created Reference.key 0 .unknown
    let run := start.receive Reference.parser retryFlight
    let run' := start.receive Reference.parser (retryFlight.filter (·.type ≠ .changeCipherSpec))
    run.state.handshake.tlsVersion = some .tls13 ∧ run.state.handshake.stage = .clientHello ∧
      run'.state.handshake.tlsVersion = some .tls13 ∧ run'.state.handshake.stage = .serverHello := by
  decide

/-- A ChangeCipherSpec of the server after its only ServerHello. -/
theorem handshake_eq_without_ccs_compatibility :
    ((TrackedConnection.created Reference.key 0 .unknown).receive Reference.parser
        compatibilityFlight).state.handshake =
      ((TrackedConnection.created Reference.key 0 .unknown).receive Reference.parser
        (compatibilityFlight.filter (·.type ≠ .changeCipherSpec))).state.handshake := by
  exact handshake_eq_without_ccs Reference.parser Reference.key 0 .unknown compatibilityFlight
    (by decide) _ (List.prefix_refl _)

end SeeHandshake

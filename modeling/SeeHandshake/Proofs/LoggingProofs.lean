import Mathlib.Data.List.Induction
import SeeHandshake.Parser.Reference
import SeeHandshake.Proofs.TimelineProofs
import SeeHandshake.Tracker.Flights

/-!
# Proofs: when logging stops

Up to the client's Finished, a record is missing from the timeline exactly when a ChangeCipherSpec of
both directions came first: the gate that ends logging after both of them is not limited to TLS 1.2.
-/

namespace SeeHandshake

open Lib

variable {tp : TlsParser}

/-! ## The counters -/

section Counters

variable (conn : TrackedConnection) (d : Direction)

/-- Only a record of the server moves the server's counter. -/
theorem applyEncryptedRecord_fromServer
    (h : (applyEncryptedRecord conn d).encryptedRecordsFromServer ≠ 0) :
    conn.encryptedRecordsFromServer ≠ 0 ∨ d = .serverToClient := by
  by_cases hd : d = .serverToClient
  · exact Or.inr hd
  · refine Or.inl fun hzero => h ?_
    unfold applyEncryptedRecord
    rw [if_neg hd]
    split_ifs <;> exact hzero

/-- The client's counter moves by at most one, and only after a record of the server. -/
theorem applyEncryptedRecord_fromClient_le :
    (applyEncryptedRecord conn d).encryptedRecordsFromClient.toNat ≤
      conn.encryptedRecordsFromClient.toNat +
        if d = .clientToServer ∧ conn.encryptedRecordsFromServer ≠ 0 then 1 else 0 := by
  have hsucc : (conn.encryptedRecordsFromClient + 1).toNat ≤
      conn.encryptedRecordsFromClient.toNat + 1 := by
    rw [UInt32.toNat_add]
    exact Nat.mod_le _ _
  unfold applyEncryptedRecord
  by_cases h1 : isTls12 conn.state.handshake.tlsVersion
  · rw [if_pos h1]
    exact Nat.le_add_right _ _
  rw [if_neg h1]
  by_cases h2 : d = .serverToClient
  · rw [if_pos h2]
    exact Nat.le_add_right _ _
  have hclient : d = .clientToServer := by
    cases d with
    | clientToServer => rfl
    | serverToClient => exact absurd rfl h2
  rw [if_neg h2]
  by_cases h3 : conn.encryptedRecordsFromServer > 0
  · have hne : conn.encryptedRecordsFromServer ≠ 0 := by
      rintro hzero
      rw [hzero] at h3
      exact absurd h3 (by decide)
    have hcounted : d = .clientToServer ∧ conn.encryptedRecordsFromServer ≠ 0 := ⟨hclient, hne⟩
    rw [if_pos hcounted, if_pos h3]
    split_ifs <;> exact hsucc
  · rw [if_neg h3]
    exact Nat.le_add_right _ _

end Counters

/-! ## The state behind a sequence of records -/

/-- What the connection remembers of the records it received. -/
structure FlightInv (xs : List Sent) (conn : TrackedConnection) : Prop where
  buf : ∀ d, conn.buf d = []
  ccs : ∀ d, conn.ccsSeen d = ccsSent xs d
  server : conn.encryptedRecordsFromServer ≠ 0 → xs.any (·.isData .serverToClient)
  client : conn.encryptedRecordsFromClient.toNat ≤ clientFlight xs
  stop : clientFlight xs ≤ 1 → (conn.stopLogging ↔ Overstepped xs)

namespace FlightInv

variable {xs : List Sent} {conn : TrackedConnection} {x : Sent}

theorem bothCcsSeen (h : FlightInv xs conn) : conn.bothCcsSeen = bothCcsSent xs := by
  unfold bothCcsSent
  rw [← h.ccs, ← h.ccs]
  rfl

/-- The client's counter after one more record. -/
theorem client_concat (h : FlightInv xs conn) (hx : x.type = .applicationData) :
    (applyEncryptedRecord conn x.direction).encryptedRecordsFromClient.toNat ≤
      clientFlight (xs ++ [x]) := by
  have hle := applyEncryptedRecord_fromClient_le conn x.direction
  have hclient := h.client
  rw [clientFlight_concat]
  by_cases hc : x.direction = .clientToServer ∧ conn.encryptedRecordsFromServer ≠ 0
  · have hdata : x.isData .clientToServer := by
      unfold Sent.isData
      simp [hx, hc.1]
    rw [if_pos hc] at hle
    rw [h.server hc.2, hdata]
    simp only [Bool.and_self, if_true]
    omega
  · rw [if_neg hc] at hle
    omega

/-- Within the client's first flight, ApplicationData closes the timeline only after a
ChangeCipherSpec of both directions. -/
theorem stopsBefore_iff (h : FlightInv xs conn) (hx : x.type = .applicationData)
    (hflight : clientFlight (xs ++ [x]) ≤ 1) :
    conn.stopsBefore x.direction = bothCcsSent xs := by
  have hle := h.client_concat hx
  have hlt : ¬ (applyEncryptedRecord conn x.direction).encryptedRecordsFromClient ≥ 2 := by
    intro hge
    have hge' := UInt32.le_iff_toNat_le.mp hge
    have htwo : (2 : UInt32).toNat = 2 := rfl
    omega
  unfold TrackedConnection.stopsBefore
  rw [decide_eq_false hlt, Bool.false_or, h.bothCcsSeen]

theorem closes_iff (h : FlightInv xs conn) (hflight : clientFlight (xs ++ [x]) ≤ 1) :
    conn.closes x.direction x.record.toTlsRecord ↔
      bothCcsSent xs ∧ (x.type = .handshake ∨ x.type = .applicationData) := by
  have htype : x.record.toTlsRecord.recordType = x.type := rfl
  unfold TrackedConnection.closes
  rw [htype]
  cases hx : x.type with
  | handshake =>
    have hccs : conn.bothCcsSeen → conn.ccsSeen x.direction := by
      unfold TrackedConnection.bothCcsSeen
      rw [Bool.and_eq_true]
      rintro ⟨hc, hs⟩
      cases x.direction
      · exact hc
      · exact hs
    simp only [TrackedConnection.stopsAfter, Bool.and_eq_true, h.bothCcsSeen]
    rw [h.bothCcsSeen] at hccs
    exact ⟨fun hb => ⟨hb.2, by simp⟩, fun hb => ⟨hccs hb.1, hb.1⟩⟩
  | applicationData =>
    simp only [h.stopsBefore_iff hx hflight]
    simp
  | changeCipherSpec => simp
  | alert => simp
  | other v => simp

theorem created (key : ConnectionKey) (t : UInt64) (origin : Origin) :
    FlightInv [] (TrackedConnection.created key t origin) where
  buf := fun d => by cases d <;> rfl
  ccs := fun d => by cases d <;> rfl
  server := fun h => absurd rfl h
  client := Nat.zero_le _
  stop := fun _ => ⟨fun h => Bool.noConfusion h, fun ⟨a, y, b, h, _⟩ => by simp at h⟩

theorem touched (h : FlightInv xs conn) (t : UInt64) : FlightInv xs (conn.touched t) where
  buf := fun d => by rw [TrackedConnection.buf_touched, h.buf]
  ccs := fun d => by rw [← h.ccs]; cases d <;> rfl
  server := h.server
  client := h.client
  stop := h.stop

/-- The counters after one more record. -/
theorem counters_concat (h : FlightInv xs conn) (t : UInt64) :
    ((processRecord tp x.direction t conn x.record.toTlsRecord).encryptedRecordsFromServer ≠ 0 →
        (xs ++ [x]).any (·.isData .serverToClient)) ∧
      (processRecord tp x.direction t conn x.record.toTlsRecord).encryptedRecordsFromClient.toNat ≤
        clientFlight (xs ++ [x]) := by
  have hflight := processRecord_flight tp x.direction t conn x.record.toTlsRecord
  have htype : x.record.toTlsRecord.recordType = x.type := rfl
  rw [htype] at hflight
  by_cases hx : x.type = .applicationData
  · rw [if_pos hx] at hflight
    obtain ⟨hserver, hclient, -⟩ := TrackedConnection.flight_eq_iff.mp hflight
    rw [hserver, hclient]
    refine ⟨fun hne => ?_, h.client_concat hx⟩
    rcases applyEncryptedRecord_fromServer conn x.direction hne with hne | hd
    · rw [List.any_append, h.server hne, Bool.true_or]
    · simp [Sent.isData, hx, hd]
  · rw [if_neg hx] at hflight
    obtain ⟨hserver, hclient, -⟩ := TrackedConnection.flight_eq_iff.mp hflight
    rw [hserver, hclient]
    refine ⟨fun hne => by rw [List.any_append, h.server hne, Bool.true_or], ?_⟩
    rw [clientFlight_concat]
    exact h.client.trans (Nat.le_add_right _ _)

theorem processRecord (h : FlightInv xs conn) (t : UInt64) :
    FlightInv (xs ++ [x]) (processRecord tp x.direction t conn x.record.toTlsRecord) := by
  have htype : x.record.toTlsRecord.recordType = x.type := rfl
  obtain ⟨hserver, hclient⟩ := h.counters_concat (x := x) t
  refine ⟨fun d => ?_, fun d => ?_, hserver, hclient, ?_⟩
  · rw [processRecord_buf, h.buf]
  · rw [processRecord_ccsSeen, ccsSent_concat, h.ccs, htype]
  · intro hle
    have hle' : clientFlight xs ≤ 1 := by
      rw [clientFlight_concat] at hle
      omega
    rw [processRecord_stopLogging, Bool.or_eq_true, h.stop hle', h.closes_iff hle,
      overstepped_concat]

/-- One record keeps the invariant. -/
theorem step (h : FlightInv xs conn) (x : Sent) :
    FlightInv (xs ++ [x]) (conn.step tp x.segment) := by
  rw [TrackedConnection.step_segment tp (h.buf x.direction)]
  exact (h.touched x.nowMs).processRecord x.nowMs

end FlightInv

/-- A sequence of records leads to a state that remembers it. -/
theorem flightInv_receive (tp : TlsParser) (key : ConnectionKey) (t : UInt64) (origin : Origin)
    (xs : List Sent) : FlightInv xs ((TrackedConnection.created key t origin).receive tp xs) := by
  induction xs using List.reverseRecOn with
  | nil => exact FlightInv.created key t origin
  | append_singleton xs x ih =>
    rw [TrackedConnection.receive_append]
    exact ih.step x

/-! ## Which records are logged -/

/-- A record that arrives whole is appended iff the record loop logs it. -/
theorem logged_iff {conn : TrackedConnection} {x : Sent} (h : conn.buf x.direction = []) :
    conn.Logged tp x ↔ (conn.touched x.nowMs).logs x.direction x.record.toTlsRecord := by
  have hstep : conn.receive tp [x] =
      processRecord tp x.direction x.nowMs (conn.touched x.nowMs) x.record.toTlsRecord :=
    TrackedConnection.step_segment tp h
  unfold TrackedConnection.Logged
  rw [hstep]
  constructor
  · rintro ⟨e, hrec, -⟩
    by_contra hlog
    rw [(processRecord_not_logged tp x.nowMs hlog).1] at hrec
    simpa [TrackedConnection.touched] using congrArg List.length hrec
  · intro hlog
    obtain ⟨body, hrec, -⟩ := processRecord_logged tp x.nowMs hlog
    refine ⟨_, hrec, rawRecord_of_cut ?_⟩
    simpa using x.record.cut_encode []

/-- Up to the client's first ApplicationData record after the server's first one, and while the
timeline has room, a Handshake, ChangeCipherSpec or ApplicationData record is appended iff no
Handshake or ApplicationData record before it came after a ChangeCipherSpec of both directions, and it
is not itself an ApplicationData record after both. -/
theorem logged_iff_not_overstepped (tp : TlsParser) (key : ConnectionKey) (t : UInt64)
    (origin : Origin) (xs : List Sent) (x : Sent) (hx : x.type.eligible)
    (hflight : clientFlight (xs ++ [x]) ≤ 1)
    (hroom : ((TrackedConnection.created key t origin).receive tp xs).state.records.length <
      RECORD_LOG_CAP) :
    ((TrackedConnection.created key t origin).receive tp xs).Logged tp x ↔
      ¬ Overstepped xs ∧ ¬ (x.type = .applicationData ∧ bothCcsSent xs) := by
  have hinv := flightInv_receive tp key t origin xs
  revert hroom hinv
  generalize (TrackedConnection.created key t origin).receive tp xs = conn
  intro hroom hinv
  have hle : clientFlight xs ≤ 1 := by
    rw [clientFlight_concat] at hflight
    omega
  have hstop := hinv.stop hle
  have htype : x.record.toTlsRecord.recordType = x.type := rfl
  rw [logged_iff (hinv.buf x.direction)]
  have hinv' := hinv.touched x.nowMs
  unfold TrackedConnection.logs
  rw [htype, hx]
  by_cases hdata : x.type = .applicationData
  · rw [hinv'.stopsBefore_iff hdata hflight]
    have hroom' : (conn.touched x.nowMs).state.records.length < RECORD_LOG_CAP := hroom
    have hstop' : (conn.touched x.nowMs).stopLogging ↔ Overstepped xs := hstop
    simp [hdata, hroom', ← hstop']
  · have hroom' : (conn.touched x.nowMs).state.records.length < RECORD_LOG_CAP := hroom
    have hstop' : (conn.touched x.nowMs).stopLogging ↔ Overstepped xs := hstop
    simp [hdata, hroom', ← hstop']

/-- A TLS 1.3 handshake in middlebox-compatibility mode, up to the client's ChangeCipherSpec. -/
def compatibilityFlight : List Sent :=
  [.of .clientToServer 22 Reference.clientHello13,
    .of .serverToClient 22 (Reference.serverHello13 (List.replicate 32 0)),
    .of .serverToClient 20 [1],
    .of .serverToClient 23 [7, 7, 7],
    .of .clientToServer 20 [1]]

/-- The client's Finished is missing from the timeline of that handshake, though the connection is TLS
1.3, the record is the client's first one after the server's flight and the timeline has room. -/
theorem clientFinished_not_logged :
    let conn := (TrackedConnection.created Reference.key 0 .unknown).receive Reference.parser
      compatibilityFlight
    let x := Sent.of .clientToServer 23 [9, 9, 9]
    conn.state.handshake.tlsVersion = some .tls13 ∧ x.type.eligible ∧
      clientFlight (compatibilityFlight ++ [x]) = 1 ∧
      conn.state.records.length < RECORD_LOG_CAP ∧ ¬ conn.Logged Reference.parser x := by
  intro conn x
  refine ⟨by decide, by decide, by decide, by decide, ?_⟩
  rintro ⟨e, hrec, -⟩
  have hsame : (conn.receive Reference.parser [x]).state.records.length =
      conn.state.records.length := by decide
  rw [hrec, List.length_append] at hsame
  simp at hsame

/-- The same handshake without the client's ChangeCipherSpec shows the client's Finished. -/
theorem clientFinished_logged :
    ((TrackedConnection.created Reference.key 0 .unknown).receive Reference.parser
      (compatibilityFlight.take 4)).Logged Reference.parser (Sent.of .clientToServer 23 [9, 9, 9]) := by
  refine (logged_iff_not_overstepped Reference.parser Reference.key 0 .unknown _ _ (by decide)
    (by decide) (by decide)).mpr ⟨?_, by decide⟩
  rintro ⟨a, y, b, heq, hboth, -⟩
  have hsub : ccsSent a .clientToServer → ccsSent (compatibilityFlight.take 4) .clientToServer := by
    intro ha
    rw [heq]
    unfold ccsSent at ha ⊢
    rw [List.any_append, ha, Bool.true_or]
  unfold bothCcsSent at hboth
  rw [Bool.and_eq_true] at hboth
  exact absurd (hsub hboth.1) (by decide)

end SeeHandshake

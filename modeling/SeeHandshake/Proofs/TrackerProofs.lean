import SeeHandshake.Proofs.RecordProofs
import SeeHandshake.Tracker.Runs

/-!
# Proofs: what one record and one segment do

Field by field, the effect of `processRecord`; that it neither touches the reassembly buffers nor
reads a timestamp; and the three ways through `ingest`.
-/

namespace SeeHandshake

open Lib

variable {tp : TlsParser}

/-! ## Buffers and cores -/

namespace TrackedConnection

@[simp] theorem buf_setBuf_self (conn : TrackedConnection) (d : Direction) (b : Bytes) :
    (conn.setBuf d b).buf d = b := by
  cases d <;> rfl

theorem buf_setBuf_of_ne (conn : TrackedConnection) {d d' : Direction} (h : d' ≠ d) (b : Bytes) :
    (conn.setBuf d b).buf d' = conn.buf d' := by
  cases d <;> cases d' <;> first | rfl | exact absurd rfl h

theorem buf_setBuf (conn : TrackedConnection) (d d' : Direction) (b : Bytes) :
    (conn.setBuf d b).buf d' = if d' = d then b else conn.buf d' := by
  by_cases h : d' = d
  · rw [if_pos h, h, buf_setBuf_self]
  · rw [if_neg h, buf_setBuf_of_ne conn h]

@[simp] theorem state_setBuf (conn : TrackedConnection) (d : Direction) (b : Bytes) :
    (conn.setBuf d b).state = conn.state := by
  cases d <;> rfl

@[simp] theorem state_setCcsSeen (conn : TrackedConnection) (d : Direction) :
    (conn.setCcsSeen d).state = conn.state := by
  cases d <;> rfl

@[simp] theorem ccsSeen_setBuf (conn : TrackedConnection) (d d' : Direction) (b : Bytes) :
    (conn.setBuf d b).ccsSeen d' = conn.ccsSeen d' := by
  cases d <;> cases d' <;> rfl

theorem ccsSeen_setCcsSeen (conn : TrackedConnection) (d d' : Direction) :
    (conn.setCcsSeen d).ccsSeen d' = (conn.ccsSeen d' || decide (d' = d)) := by
  cases d <;> cases d' <;> simp [setCcsSeen, ccsSeen]

@[simp] theorem core_setBuf (conn : TrackedConnection) (d : Direction) (b : Bytes) :
    (conn.setBuf d b).core = conn.core := by
  cases d <;> rfl

@[simp] theorem core_untimed (conn : TrackedConnection) : conn.untimed.core = conn.core := by
  simp [core, untimed, RecordEvent.untimed, Function.comp_def]

@[simp] theorem buf_untimed (conn : TrackedConnection) (d : Direction) :
    conn.untimed.buf d = conn.buf d := by
  cases d <;> rfl

/-- The core and the buffers determine a connection up to timestamps. -/
theorem untimed_eq_iff {conn conn' : TrackedConnection} :
    conn.untimed = conn'.untimed ↔ conn.core = conn'.core ∧ ∀ d, conn.buf d = conn'.buf d := by
  constructor
  · intro h
    refine ⟨by rw [← core_untimed, h, core_untimed], fun d => ?_⟩
    rw [← buf_untimed, h, buf_untimed]
  · rintro ⟨hcore, hbuf⟩
    have hc : ∀ c : TrackedConnection, c.untimed =
        { c.core with clientToServerBuf := c.buf .clientToServer,
                      serverToClientBuf := c.buf .serverToClient } := fun _ => rfl
    rw [hc conn, hc conn', hcore, hbuf, hbuf]

end TrackedConnection

/-! ## Appending to the timeline -/

section Push

variable (conn : TrackedConnection) (record : TlsRecord) (d : Direction) (nowMs : UInt64)

/-- Appending to the timeline changes the timeline and the sequence counter only. -/
theorem pushRecordEvent_frame :
    pushRecordEvent conn record d nowMs =
      { conn with
        state.records := (pushRecordEvent conn record d nowMs).state.records
        seqCounter := (pushRecordEvent conn record d nowMs).seqCounter } := by
  unfold pushRecordEvent
  split_ifs <;> rfl

@[simp] theorem pushRecordEvent_handshake :
    (pushRecordEvent conn record d nowMs).state.handshake = conn.state.handshake := by
  rw [pushRecordEvent_frame]

@[simp] theorem pushRecordEvent_buf (d' : Direction) :
    (pushRecordEvent conn record d nowMs).buf d' = conn.buf d' := by
  rw [pushRecordEvent_frame]
  cases d' <;> rfl

@[simp] theorem pushRecordEvent_ccsSeen (d' : Direction) :
    (pushRecordEvent conn record d nowMs).ccsSeen d' = conn.ccsSeen d' := by
  rw [pushRecordEvent_frame]
  cases d' <;> rfl

@[simp] theorem pushRecordEvent_stopLogging :
    (pushRecordEvent conn record d nowMs).stopLogging = conn.stopLogging := by
  rw [pushRecordEvent_frame]

end Push

/-- A closed or full timeline stays as it is. -/
theorem pushRecordEvent_closed {conn : TrackedConnection} {record : TlsRecord} {d : Direction}
    {nowMs : UInt64} (h : conn.stopLogging ∨ RECORD_LOG_CAP ≤ conn.state.records.length) :
    pushRecordEvent conn record d nowMs = conn := by
  unfold pushRecordEvent
  exact if_pos (by simpa using h)

/-- An open timeline grows by the event of the record. -/
theorem pushRecordEvent_open {conn : TrackedConnection} (record : TlsRecord) (d : Direction)
    (nowMs : UInt64) (hs : ¬ conn.stopLogging) (hl : conn.state.records.length < RECORD_LOG_CAP) :
    ∃ body, (pushRecordEvent conn record d nowMs).state.records = conn.state.records ++
        [record.event d nowMs (u32SaturatingSucc conn.seqCounter) body] ∧
      (pushRecordEvent conn record d nowMs).seqCounter = u32SaturatingSucc conn.seqCounter := by
  unfold pushRecordEvent
  rw [if_neg (by simp [hs, hl])]
  exact ⟨_, rfl, rfl⟩

/-! ## Encrypted records -/

section Encrypted

variable (conn : TrackedConnection) (d : Direction)

/-- An encrypted record changes the handshake, the counters and the marker only. -/
theorem applyEncryptedRecord_frame :
    applyEncryptedRecord conn d =
      { conn with
        state.handshake := (applyEncryptedRecord conn d).state.handshake
        encryptedRecordsFromServer := (applyEncryptedRecord conn d).encryptedRecordsFromServer
        encryptedRecordsFromClient := (applyEncryptedRecord conn d).encryptedRecordsFromClient
        sawClientFinishedMarker := (applyEncryptedRecord conn d).sawClientFinishedMarker } := by
  unfold applyEncryptedRecord
  split_ifs <;> rfl

@[simp] theorem applyEncryptedRecord_stopLogging :
    (applyEncryptedRecord conn d).stopLogging = conn.stopLogging := by
  rw [applyEncryptedRecord_frame]

@[simp] theorem applyEncryptedRecord_records :
    (applyEncryptedRecord conn d).state.records = conn.state.records := by
  rw [applyEncryptedRecord_frame]

@[simp] theorem applyEncryptedRecord_seqCounter :
    (applyEncryptedRecord conn d).seqCounter = conn.seqCounter := by
  rw [applyEncryptedRecord_frame]

end Encrypted

/-- An encrypted record moves the stage and may note a hidden certificate, no more; it does not forget a
certificate. -/
theorem applyEncryptedRecord_certificate (conn : TrackedConnection) (d : Direction) :
    ∃ stage certificateSubject certificateIssuer,
      (applyEncryptedRecord conn d).state.handshake =
        { conn.state.handshake with stage, certificateSubject, certificateIssuer } ∧
      (conn.state.handshake.certificateSubject.isSome → certificateSubject.isSome) ∧
      (conn.state.handshake.certificateIssuer.isSome → certificateIssuer.isSome) := by
  unfold applyEncryptedRecord
  by_cases h1 : isTls12 conn.state.handshake.tlsVersion
  · rw [if_pos h1]
    exact ⟨_, _, _, rfl, id, id⟩
  rw [if_neg h1]
  by_cases h2 : d = .serverToClient
  · rw [if_pos h2]
    simp only
    by_cases h3 : conn.state.handshake.certificateSubject.isNone
    · rw [if_pos h3]
      exact ⟨_, _, _, rfl, fun _ => rfl, fun _ => rfl⟩
    · rw [if_neg h3]
      exact ⟨_, _, _, rfl, id, id⟩
  rw [if_neg h2]
  by_cases h3 : conn.encryptedRecordsFromServer > 0
  · rw [if_pos h3]
    simp only
    by_cases h4 : !conn.sawClientFinishedMarker
    · rw [if_pos h4]
      exact ⟨_, _, _, rfl, id, id⟩
    · rw [if_neg h4]
      exact ⟨_, _, _, rfl, id, id⟩
  · rw [if_neg h3]
    exact ⟨_, _, _, rfl, id, id⟩

theorem applyEncryptedRecord_handshake (conn : TrackedConnection) (d : Direction) :
    ∃ stage certificateSubject certificateIssuer,
      (applyEncryptedRecord conn d).state.handshake =
        { conn.state.handshake with stage, certificateSubject, certificateIssuer } := by
  obtain ⟨stage, subject, issuer, h, -⟩ := applyEncryptedRecord_certificate conn d
  exact ⟨stage, subject, issuer, h⟩

/-! ## One record: what the record loop does, by type -/

section Record

variable (d : Direction) (nowMs : UInt64) (conn : TrackedConnection) {record : TlsRecord}

/-- A Handshake record after the ChangeCipherSpec of its direction is logged and counted; before it,
it is applied and logged. -/
theorem processRecord_handshake (h : record.recordType = .handshake) :
    processRecord tp d nowMs conn record =
      if conn.ccsSeen d then
        { pushRecordEvent conn record d nowMs with
          postCcsRecordsFromClient :=
            conn.postCcsRecordsFromClient + if d = .clientToServer then 1 else 0
          postCcsRecordsFromServer :=
            conn.postCcsRecordsFromServer + if d = .serverToClient then 1 else 0
          stopLogging := conn.stopLogging || conn.bothCcsSeen }
      else
        pushRecordEvent
          { conn with
            state.handshake :=
              applyHandshakeRecord tp conn.state.handshake record.payload d }
          record d nowMs := by
  unfold processRecord
  rw [h]
  by_cases hccs : conn.ccsSeen d
  · simp only [hccs, Bool.not_true, if_true, Bool.false_eq_true, if_false]
    rw [pushRecordEvent_frame]
    have hboth : conn.bothCcsSeen = (conn.clientCcsSeen && conn.serverCcsSeen) := rfl
    cases d <;> cases hb : conn.clientCcsSeen && conn.serverCcsSeen <;>
      simp [hboth, hb]
  · simp only [hccs, Bool.not_false, if_true, Bool.false_eq_true, if_false]

/-- An ApplicationData record is counted, may close the timeline, and is then logged. -/
theorem processRecord_applicationData (h : record.recordType = .applicationData) :
    processRecord tp d nowMs conn record =
      pushRecordEvent
        { applyEncryptedRecord conn d with
          stopLogging := conn.stopLogging || conn.stopsBefore d }
        record d nowMs := by
  unfold processRecord
  rw [h]
  have hboth : conn.bothCcsSeen = ((applyEncryptedRecord conn d).clientCcsSeen &&
      (applyEncryptedRecord conn d).serverCcsSeen) := by
    rw [applyEncryptedRecord_frame]
    rfl
  have hstop := applyEncryptedRecord_stopLogging conn d
  unfold TrackedConnection.stopsBefore
  rw [hboth, ← hstop]
  generalize applyEncryptedRecord conn d = applied
  by_cases henc : applied.encryptedRecordsFromClient ≥ 2
  · simp [henc]
  · cases hb : applied.clientCcsSeen && applied.serverCcsSeen <;> simp [henc, hb]

/-- A ChangeCipherSpec is applied, noted and logged. -/
theorem processRecord_changeCipherSpec (h : record.recordType = .changeCipherSpec) :
    processRecord tp d nowMs conn record =
      pushRecordEvent
        (({ conn with state.handshake := applyCcs conn.state.handshake d } :
          TrackedConnection).setCcsSeen d)
        record d nowMs := by
  unfold processRecord
  rw [h]

/-- The record loop passes over any other record. -/
theorem processRecord_of_not_eligible (h : ¬ record.recordType.eligible) :
    processRecord tp d nowMs conn record = conn := by
  unfold processRecord
  cases hr : record.recordType <;> simp_all [TlsRecordType.eligible]

end Record

/-! ## Cores: buffers and timestamps play no part in the record loop -/

theorem buildBody_core (record : TlsRecord) (d : Direction) (conn : TrackedConnection) :
    buildBody record d conn.core = buildBody record d conn := by
  cases d <;> rfl

theorem pushRecordEvent_core (conn : TrackedConnection) (record : TlsRecord) (d : Direction)
    (nowMs : UInt64) :
    (pushRecordEvent conn record d nowMs).core = pushRecordEvent conn.core record d 0 := by
  have hlen : conn.core.state.records.length = conn.state.records.length := by
    simp [TrackedConnection.core, TrackedConnection.untimed]
  have hstop : conn.core.stopLogging = conn.stopLogging := rfl
  unfold pushRecordEvent
  rw [hlen, hstop]
  split_ifs
  · rfl
  · have hb := buildBody_core record d
      { conn with seqCounter := u32SaturatingSucc conn.seqCounter }
    simp only [TrackedConnection.core, TrackedConnection.untimed] at hb
    simp [TrackedConnection.core, TrackedConnection.untimed, RecordEvent.untimed, hb]

theorem applyEncryptedRecord_core (conn : TrackedConnection) (d : Direction) :
    (applyEncryptedRecord conn d).core = applyEncryptedRecord conn.core d := by
  have hh : conn.core.state.handshake = conn.state.handshake := rfl
  have hs : conn.core.encryptedRecordsFromServer = conn.encryptedRecordsFromServer := rfl
  have hm : conn.core.sawClientFinishedMarker = conn.sawClientFinishedMarker := rfl
  unfold applyEncryptedRecord
  rw [hh, hs, hm]
  by_cases h1 : isTls12 conn.state.handshake.tlsVersion
  · rw [if_pos h1, if_pos h1]
    rfl
  · rw [if_neg h1, if_neg h1]
    by_cases h2 : d = .serverToClient
    · rw [if_pos h2, if_pos h2]
      rfl
    · rw [if_neg h2, if_neg h2]
      by_cases h3 : conn.encryptedRecordsFromServer > 0
      · rw [if_pos h3, if_pos h3]
        by_cases h4 : !conn.sawClientFinishedMarker
        · rw [if_pos h4, if_pos h4]
          rfl
        · rw [if_neg h4, if_neg h4]
          rfl
      · rw [if_neg h3, if_neg h3]

theorem TrackedConnection.stopsBefore_core (conn : TrackedConnection) (d : Direction) :
    conn.core.stopsBefore d = conn.stopsBefore d := by
  unfold TrackedConnection.stopsBefore
  rw [← applyEncryptedRecord_core]
  rfl

/-- The record loop reads neither buffers nor timestamps. -/
theorem processRecord_core (d : Direction) (nowMs : UInt64) (conn : TrackedConnection)
    (record : TlsRecord) :
    (processRecord tp d nowMs conn record).core = processRecord tp d 0 conn.core record := by
  cases hr : record.recordType with
  | handshake =>
    have hccs : conn.core.ccsSeen d = conn.ccsSeen d := by cases d <;> rfl
    rw [processRecord_handshake _ _ _ hr, processRecord_handshake _ _ _ hr, hccs]
    by_cases h : conn.ccsSeen d
    · rw [if_pos h, if_pos h, ← pushRecordEvent_core conn record d nowMs]
      rfl
    · rw [if_neg h, if_neg h]
      exact pushRecordEvent_core _ _ _ _
  | applicationData =>
    rw [processRecord_applicationData _ _ _ hr, processRecord_applicationData _ _ _ hr,
      pushRecordEvent_core, conn.stopsBefore_core, ← applyEncryptedRecord_core]
    rfl
  | changeCipherSpec =>
    rw [processRecord_changeCipherSpec _ _ _ hr, processRecord_changeCipherSpec _ _ _ hr,
      pushRecordEvent_core]
    cases d <;> rfl
  | alert =>
    rw [processRecord_of_not_eligible _ _ _ (by simp [hr]),
      processRecord_of_not_eligible _ _ _ (by simp [hr])]
  | other v =>
    rw [processRecord_of_not_eligible _ _ _ (by simp [hr]),
      processRecord_of_not_eligible _ _ _ (by simp [hr])]

/-! ## One record, field by field -/

section Fields

variable (d : Direction) (nowMs : UInt64) (conn : TrackedConnection) (record : TlsRecord)

/-- The record loop writes no buffer. -/
@[simp] theorem processRecord_buf (d' : Direction) :
    (processRecord tp d nowMs conn record).buf d' = conn.buf d' := by
  cases hr : record.recordType with
  | handshake =>
    rw [processRecord_handshake _ _ _ hr]
    by_cases h : conn.ccsSeen d
    · rw [if_pos h, ← pushRecordEvent_buf conn record d nowMs d']
      cases d' <;> rfl
    · rw [if_neg h, pushRecordEvent_buf]
      cases d' <;> rfl
  | applicationData =>
    rw [processRecord_applicationData _ _ _ hr, pushRecordEvent_buf, applyEncryptedRecord_frame]
    cases d' <;> rfl
  | changeCipherSpec =>
    rw [processRecord_changeCipherSpec _ _ _ hr, pushRecordEvent_buf]
    cases d <;> cases d' <;> rfl
  | alert => rw [processRecord_of_not_eligible _ _ _ (by simp [hr])]
  | other v => rw [processRecord_of_not_eligible _ _ _ (by simp [hr])]

theorem processRecord_handshakeInfo :
    (processRecord tp d nowMs conn record).state.handshake =
      match record.recordType with
      | .handshake =>
        if conn.ccsSeen d then conn.state.handshake
        else applyHandshakeRecord tp conn.state.handshake record.payload d
      | .applicationData => (applyEncryptedRecord conn d).state.handshake
      | .changeCipherSpec => applyCcs conn.state.handshake d
      | _ => conn.state.handshake := by
  cases hr : record.recordType with
  | handshake =>
    rw [processRecord_handshake _ _ _ hr]
    by_cases h : conn.ccsSeen d <;> simp [h]
  | applicationData => rw [processRecord_applicationData _ _ _ hr, pushRecordEvent_handshake]
  | changeCipherSpec =>
    rw [processRecord_changeCipherSpec _ _ _ hr, pushRecordEvent_handshake]
    cases d <;> rfl
  | alert => rw [processRecord_of_not_eligible _ _ _ (by simp [hr])]
  | other v => rw [processRecord_of_not_eligible _ _ _ (by simp [hr])]

theorem processRecord_ccsSeen (d' : Direction) :
    (processRecord tp d nowMs conn record).ccsSeen d' =
      (conn.ccsSeen d' || (decide (record.recordType = .changeCipherSpec) && decide (d' = d))) := by
  have hframe : ∀ (c : TrackedConnection) (m n : UInt32) (b : Bool),
      ({ c with postCcsRecordsFromClient := m, postCcsRecordsFromServer := n, stopLogging := b } :
        TrackedConnection).ccsSeen d' = c.ccsSeen d' := fun _ _ _ _ => by cases d' <;> rfl
  have hhand : ∀ (c : TrackedConnection) (h : HandshakeInfo),
      ({ c with state.handshake := h } : TrackedConnection).ccsSeen d' = c.ccsSeen d' :=
    fun _ _ => by cases d' <;> rfl
  cases hr : record.recordType with
  | handshake =>
    rw [processRecord_handshake _ _ _ hr]
    by_cases h : conn.ccsSeen d
    · rw [if_pos h, hframe, pushRecordEvent_ccsSeen]
      simp
    · rw [if_neg h, pushRecordEvent_ccsSeen, hhand]
      simp
  | applicationData =>
    rw [processRecord_applicationData _ _ _ hr, pushRecordEvent_ccsSeen, applyEncryptedRecord_frame]
    cases d' <;> simp [TrackedConnection.ccsSeen]
  | changeCipherSpec =>
    rw [processRecord_changeCipherSpec _ _ _ hr, pushRecordEvent_ccsSeen,
      TrackedConnection.ccsSeen_setCcsSeen, hhand]
    simp
  | alert => rw [processRecord_of_not_eligible _ _ _ (by simp [hr])]; simp
  | other v => rw [processRecord_of_not_eligible _ _ _ (by simp [hr])]; simp

theorem processRecord_stopLogging :
    (processRecord tp d nowMs conn record).stopLogging =
      (conn.stopLogging || conn.closes d record) := by
  unfold TrackedConnection.closes
  cases hr : record.recordType with
  | handshake =>
    rw [processRecord_handshake _ _ _ hr]
    by_cases h : conn.ccsSeen d <;> simp [h, TrackedConnection.stopsAfter]
  | applicationData => rw [processRecord_applicationData _ _ _ hr, pushRecordEvent_stopLogging]
  | changeCipherSpec =>
    rw [processRecord_changeCipherSpec _ _ _ hr, pushRecordEvent_stopLogging]
    cases d <;> simp [TrackedConnection.setCcsSeen]
  | alert => rw [processRecord_of_not_eligible _ _ _ (by simp [hr])]; simp
  | other v => rw [processRecord_of_not_eligible _ _ _ (by simp [hr])]; simp

theorem processRecord_flight (tp : TlsParser) (d : Direction) (nowMs : UInt64)
    (conn : TrackedConnection) (record : TlsRecord) :
    (processRecord tp d nowMs conn record).flight =
      if record.recordType = .applicationData then (applyEncryptedRecord conn d).flight
      else conn.flight := by
  have hpush : ∀ c : TrackedConnection, (pushRecordEvent c record d nowMs).flight = c.flight :=
    fun c => by rw [pushRecordEvent_frame]; rfl
  cases hr : record.recordType with
  | handshake =>
    rw [processRecord_handshake _ _ _ hr]
    by_cases h : conn.ccsSeen d
    · rw [if_pos h]
      exact hpush conn
    · rw [if_neg h, hpush]
      rfl
  | applicationData =>
    rw [processRecord_applicationData _ _ _ hr, hpush]
    rfl
  | changeCipherSpec =>
    rw [processRecord_changeCipherSpec _ _ _ hr, hpush]
    cases d <;> rfl
  | alert => rw [processRecord_of_not_eligible _ _ _ (by simp [hr])]; rfl
  | other v => rw [processRecord_of_not_eligible _ _ _ (by simp [hr])]; rfl

/-- The record loop changes neither the key nor the times of the connection. -/
theorem processRecord_state :
    ∃ handshake records, (processRecord tp d nowMs conn record).state =
      { conn.state with handshake, records } := by
  have hpush : ∀ c : TrackedConnection, ∃ records,
      (pushRecordEvent c record d nowMs).state = { c.state with records } :=
    fun c => ⟨_, by rw [pushRecordEvent_frame]⟩
  cases hr : record.recordType with
  | handshake =>
    rw [processRecord_handshake _ _ _ hr]
    by_cases h : conn.ccsSeen d
    · obtain ⟨records, hrec⟩ := hpush conn
      exact ⟨_, records, by rw [if_pos h]; exact hrec⟩
    · obtain ⟨records, hrec⟩ := hpush _
      exact ⟨_, records, by rw [if_neg h, hrec]⟩
  | applicationData =>
    rw [processRecord_applicationData _ _ _ hr]
    obtain ⟨records, hrec⟩ := hpush { applyEncryptedRecord conn d with
      stopLogging := conn.stopLogging || conn.stopsBefore d }
    exact ⟨_, records, by rw [hrec, applyEncryptedRecord_frame]⟩
  | changeCipherSpec =>
    rw [processRecord_changeCipherSpec _ _ _ hr]
    obtain ⟨records, hrec⟩ := hpush _
    exact ⟨_, records, by rw [hrec, TrackedConnection.state_setCcsSeen]⟩
  | alert => exact ⟨_, _, by rw [processRecord_of_not_eligible _ _ _ (by simp [hr])]⟩
  | other v => exact ⟨_, _, by rw [processRecord_of_not_eligible _ _ _ (by simp [hr])]⟩

end Fields

/-! ## One record and the timeline -/

section Log

variable {d : Direction} {nowMs : UInt64} {conn : TrackedConnection} {record : TlsRecord}

/-- What an eligible record is appended to: the same timeline, closed if an ApplicationData record
closes it. -/
theorem processRecord_push (tp : TlsParser) (d : Direction) (nowMs : UInt64)
    (conn : TrackedConnection) (h : record.recordType.eligible) :
    ∃ before : TrackedConnection,
      before.state.records = conn.state.records ∧ before.seqCounter = conn.seqCounter ∧
      before.stopLogging = (conn.stopLogging ||
        (decide (record.recordType = .applicationData) && conn.stopsBefore d)) ∧
      (processRecord tp d nowMs conn record).state.records =
        (pushRecordEvent before record d nowMs).state.records ∧
      (processRecord tp d nowMs conn record).seqCounter =
        (pushRecordEvent before record d nowMs).seqCounter := by
  cases hr : record.recordType with
  | handshake =>
    rw [processRecord_handshake _ _ _ hr]
    by_cases hccs : conn.ccsSeen d
    · rw [if_pos hccs]
      exact ⟨conn, rfl, rfl, by simp, rfl, rfl⟩
    · rw [if_neg hccs]
      refine ⟨_, ?_, ?_, ?_, rfl, rfl⟩
      · rfl
      · rfl
      · simp
  | applicationData =>
    rw [processRecord_applicationData _ _ _ hr]
    refine ⟨_, ?_, ?_, ?_, rfl, rfl⟩
    · exact applyEncryptedRecord_records conn d
    · exact applyEncryptedRecord_seqCounter conn d
    · simp
  | changeCipherSpec =>
    rw [processRecord_changeCipherSpec _ _ _ hr]
    refine ⟨_, ?_, ?_, ?_, rfl, rfl⟩
    · rw [TrackedConnection.state_setCcsSeen]
    · cases d <;> rfl
    · cases d <;> simp [TrackedConnection.setCcsSeen]
  | alert => simp [hr] at h
  | other v => simp [hr] at h

/-- An eligible record at an open timeline is appended with the next sequence number. -/
theorem processRecord_logged (tp : TlsParser) (nowMs : UInt64) (h : conn.logs d record) :
    ∃ body, (processRecord tp d nowMs conn record).state.records = conn.state.records ++
        [record.event d nowMs (u32SaturatingSucc conn.seqCounter) body] ∧
      (processRecord tp d nowMs conn record).seqCounter = u32SaturatingSucc conn.seqCounter := by
  simp only [TrackedConnection.logs, Bool.and_eq_true, decide_eq_true_eq, Bool.not_eq_true'] at h
  obtain ⟨⟨⟨helig, hstop⟩, hdata⟩, hlen⟩ := h
  obtain ⟨before, hrec, hseq, hbstop, hrec', hseq'⟩ :=
    processRecord_push tp d nowMs conn helig
  have hopen : ¬ before.stopLogging := by rw [hbstop, hstop, hdata]; simp
  have hroom : before.state.records.length < RECORD_LOG_CAP := by rw [hrec]; exact hlen
  obtain ⟨body, h1, h2⟩ := pushRecordEvent_open record d nowMs hopen hroom
  exact ⟨body, by rw [hrec', h1, hrec, hseq], by rw [hseq', h2, hseq]⟩

/-- Any other record leaves the timeline as it is. -/
theorem processRecord_not_logged (tp : TlsParser) (nowMs : UInt64) (h : ¬ conn.logs d record) :
    (processRecord tp d nowMs conn record).state.records = conn.state.records ∧
      (processRecord tp d nowMs conn record).seqCounter = conn.seqCounter := by
  by_cases helig : record.recordType.eligible
  · obtain ⟨before, hrec, hseq, hstop, hrec', hseq'⟩ :=
      processRecord_push tp d nowMs conn helig
    have hclosed : before.stopLogging ∨ RECORD_LOG_CAP ≤ before.state.records.length := by
      rw [hstop, hrec]
      by_contra hopen
      refine h ?_
      simp only [TrackedConnection.logs, helig, Bool.true_and]
      simpa [and_assoc, imp_iff_not_or] using hopen
    rw [hrec', hseq', pushRecordEvent_closed hclosed]
    exact ⟨hrec, hseq⟩
  · rw [processRecord_of_not_eligible _ _ _ helig]
    exact ⟨rfl, rfl⟩

end Log

end SeeHandshake

import SeeHandshake.Proofs.HandshakeProofs
import SeeHandshake.Proofs.LoggingProofs
import SeeHandshake.Tracker.Moves

/-!
# Proofs: the stage, the counters of encrypted records and the events

What the messages of a record and an encrypted record leave of the stage, how far the counters of
encrypted records can be trusted, and the event of a record that is logged.
-/

namespace SeeHandshake

variable {tp : TlsParser}

/-! ## Messages -/

section Messages

variable {d : Direction} {handshake : HandshakeInfo}

theorem applyHandshakeMessage_tlsVersion (msg : TlsMessage) :
    (applyHandshakeMessage tp d handshake msg).tlsVersion =
      msg.versionAfter tp d handshake.tlsVersion := by
  cases msg with
  | other => rfl
  | handshake hs =>
    cases hs with
    | clientHello ch =>
      cases d with
      | serverToClient => rfl
      | clientToServer =>
        unfold applyHandshakeMessage mergeClientHello TlsMessage.versionAfter
        simp only
        cases (extractClientHello tp ch).maxVersion <;> cases handshake.tlsVersion <;> rfl
    | serverHello sh => cases d <;> rfl
    | certificate =>
      cases d with
      | clientToServer => rfl
      | serverToClient =>
        unfold applyHandshakeMessage
        simp only
        split_ifs <;> rfl
    | serverKeyExchange => rfl
    | serverDone => rfl
    | clientKeyExchange => cases d <;> rfl
    | other => cases d <;> rfl

/-- A message that moves the stage moves it to its own. -/
theorem applyHandshakeMessage_stage (msg : TlsMessage) :
    (applyHandshakeMessage tp d handshake msg).stage =
      (if msg.movesStage d handshake.tlsVersion then msg.stage? else none).getD handshake.stage := by
  by_cases hmoves : msg.movesStage d handshake.tlsVersion
  · rw [if_pos hmoves]
    cases msg with
    | other => cases hmoves
    | handshake hs =>
      cases hs with
      | clientHello ch =>
        obtain rfl : d = .clientToServer := of_decide_eq_true hmoves
        rfl
      | serverHello sh =>
        obtain rfl : d = .serverToClient := of_decide_eq_true hmoves
        rfl
      | certificate =>
        obtain ⟨hd, hversion⟩ := (Bool.and_eq_true _ _).mp hmoves
        obtain rfl : d = .serverToClient := of_decide_eq_true hd
        unfold applyHandshakeMessage
        simp only
        rw [if_pos hversion]
        rfl
      | serverKeyExchange => rfl
      | serverDone => rfl
      | clientKeyExchange =>
        obtain rfl : d = .clientToServer := of_decide_eq_true hmoves
        rfl
      | other => cases hmoves
  · rw [if_neg hmoves, applyHandshakeMessage_of_not_movesStage hmoves]
    rfl

/-- What the messages of a record leave of the version and the stage. -/
theorem foldl_applyHandshakeMessage (msgs : List TlsMessage) (handshake : HandshakeInfo) :
    (msgs.foldl (applyHandshakeMessage tp d) handshake).tlsVersion =
        versionAfter tp d handshake.tlsVersion msgs ∧
      (msgs.foldl (applyHandshakeMessage tp d) handshake).stage =
        (lastMove tp d handshake.tlsVersion msgs).getD handshake.stage := by
  induction msgs generalizing handshake with
  | nil => exact ⟨rfl, rfl⟩
  | cons msg msgs ih =>
    obtain ⟨hversion, hstage⟩ := ih (applyHandshakeMessage tp d handshake msg)
    rw [applyHandshakeMessage_tlsVersion] at hversion hstage
    refine ⟨hversion, ?_⟩
    rw [List.foldl_cons, hstage, applyHandshakeMessage_stage, lastMove]
    cases lastMove tp d (msg.versionAfter tp d handshake.tlsVersion) msgs <;> rfl

end Messages

/-! ## Encrypted records -/

section Encrypted

variable {conn : TrackedConnection} {d : Direction}

theorem applyEncryptedRecord_tlsVersion (conn : TrackedConnection) (d : Direction) :
    (applyEncryptedRecord conn d).state.handshake.tlsVersion = conn.state.handshake.tlsVersion := by
  obtain ⟨stage, subject, issuer, h⟩ := applyEncryptedRecord_handshake conn d
  rw [h]

/-- In TLS 1.2 and older, ApplicationData ends the handshake. -/
theorem applyEncryptedRecord_tls12 (h : isTls12 conn.state.handshake.tlsVersion) (d : Direction) :
    (applyEncryptedRecord conn d).flight = conn.flight ∧
      (applyEncryptedRecord conn d).state.handshake.stage = .applicationData := by
  unfold applyEncryptedRecord
  rw [if_pos h]
  exact ⟨rfl, rfl⟩

/-- Otherwise, a record of the server is counted, and its number and the marker make the stage. -/
theorem applyEncryptedRecord_server (h : ¬ isTls12 conn.state.handshake.tlsVersion) :
    (applyEncryptedRecord conn .serverToClient).flight =
        (conn.encryptedRecordsFromServer + 1, conn.encryptedRecordsFromClient,
          conn.sawClientFinishedMarker) ∧
      (applyEncryptedRecord conn .serverToClient).state.handshake.stage =
        if conn.sawClientFinishedMarker then .applicationData
        else if 1 ≤ conn.encryptedRecordsFromServer + 1 ∧ conn.encryptedRecordsFromServer + 1 ≤ 3
          then .certificate
        else .serverFinished := by
  unfold applyEncryptedRecord
  rw [if_neg h, if_pos rfl]
  simp only
  by_cases hsubject : conn.state.handshake.certificateSubject.isNone
  · rw [if_pos hsubject]
    exact ⟨rfl, rfl⟩
  · rw [if_neg hsubject]
    exact ⟨rfl, rfl⟩

/-- The server has not sent an encrypted record yet, or it has. -/
theorem TrackedConnection.fromServer_cases (conn : TrackedConnection) :
    conn.encryptedRecordsFromServer = 0 ∨ conn.encryptedRecordsFromServer > 0 := by
  by_cases hnone : conn.encryptedRecordsFromServer = 0
  · exact Or.inl hnone
  · exact Or.inr (UInt32.pos_iff_ne_zero.mpr hnone)

/-- A record of the client before the first one of the server changes nothing. -/
theorem applyEncryptedRecord_early (h : ¬ isTls12 conn.state.handshake.tlsVersion)
    (hserver : conn.encryptedRecordsFromServer = 0) :
    applyEncryptedRecord conn .clientToServer = conn := by
  unfold applyEncryptedRecord
  rw [if_neg h, if_neg (by decide), if_neg (by rw [hserver]; decide)]

/-- Any other record of the client is counted; the first one is the client's Finished. -/
theorem applyEncryptedRecord_client (h : ¬ isTls12 conn.state.handshake.tlsVersion)
    (hserver : conn.encryptedRecordsFromServer > 0) :
    (applyEncryptedRecord conn .clientToServer).flight =
        (conn.encryptedRecordsFromServer, conn.encryptedRecordsFromClient + 1, true) ∧
      (applyEncryptedRecord conn .clientToServer).state.handshake.stage =
        if conn.sawClientFinishedMarker then .applicationData else .clientFinished := by
  unfold applyEncryptedRecord
  rw [if_neg h, if_neg (by decide), if_pos hserver]
  simp only
  by_cases hmarker : conn.sawClientFinishedMarker
  · rw [if_neg (by simp [hmarker]), if_pos hmarker]
    refine ⟨?_, rfl⟩
    show (conn.encryptedRecordsFromServer, _, conn.sawClientFinishedMarker) = _
    rw [hmarker]
  · rw [if_pos (by simp [hmarker]), if_neg hmarker]
    exact ⟨rfl, rfl⟩

end Encrypted

/-! ## The counters of an open timeline -/

/-- As long as the timeline is open, the counters have not wrapped, and the marker tells whether the
client sent an encrypted record after the server. -/
structure FlightCounts (conn : TrackedConnection) : Prop where
  server_le : conn.encryptedRecordsFromServer.toNat ≤ conn.state.records.length
  client_le : conn.encryptedRecordsFromClient.toNat ≤ 1
  marker_iff : conn.sawClientFinishedMarker ↔ conn.encryptedRecordsFromClient ≠ 0
  marker_server : conn.sawClientFinishedMarker → conn.encryptedRecordsFromServer ≠ 0

namespace FlightCounts

variable {conn conn' : TrackedConnection} {d : Direction} {r : TlsRecord}

theorem created (key : ConnectionKey) (t : UInt64) (origin : Origin) :
    FlightCounts (TrackedConnection.created key t origin) where
  server_le := Nat.zero_le _
  client_le := Nat.zero_le _
  marker_iff := iff_of_false Bool.false_ne_true fun h => h rfl
  marker_server := fun h => absurd h Bool.false_ne_true

theorem congr (h : FlightCounts conn) (hflight : conn'.flight = conn.flight)
    (hlen : conn.state.records.length ≤ conn'.state.records.length) : FlightCounts conn' := by
  obtain ⟨hserver, hclient, hmarker⟩ := TrackedConnection.flight_eq_iff.mp hflight
  obtain ⟨hle, hone, hiff, himp⟩ := h
  refine ⟨?_, ?_, ?_, ?_⟩
  · rw [hserver]
    exact hle.trans hlen
  · rw [hclient]
    exact hone
  · rw [hclient, hmarker]
    exact hiff
  · rw [hserver, hmarker]
    exact himp

/-- The room that is left keeps the server's counter from wrapping. -/
theorem server_succ (h : FlightCounts conn) (hroom : conn.state.records.length < RECORD_LOG_CAP) :
    (conn.encryptedRecordsFromServer + 1).toNat = conn.encryptedRecordsFromServer.toNat + 1 := by
  have hle := h.server_le
  have hcap : RECORD_LOG_CAP = 64 := rfl
  rw [UInt32.toNat_add]
  exact Nat.mod_eq_of_lt (by show _ < 4294967296; simp only [UInt32.toNat_one]; omega)

/-- A record of the client that does not close the timeline is the first one after the server's. -/
theorem client_eq_zero (h : FlightCounts conn)
    (hlt : ¬ conn.encryptedRecordsFromClient + 1 ≥ 2) : conn.encryptedRecordsFromClient = 0 := by
  have hone := h.client_le
  rw [ge_iff_le, UInt32.le_iff_toNat_le, UInt32.toNat_add] at hlt
  have htwo : (2 : UInt32).toNat = 2 := rfl
  rw [Nat.mod_eq_of_lt (by show _ < 4294967296; simp only [UInt32.toNat_one]; omega),
    UInt32.toNat_one, htwo] at hlt
  refine UInt32.toNat_inj.mp ?_
  show _ = 0
  omega

/-- An ApplicationData record that is logged finds room, and does not raise the client's counter above
one. -/
theorem of_logs_data (hlog : conn.logs d r) (hdata : r.recordType = .applicationData) :
    conn.state.records.length < RECORD_LOG_CAP ∧
      ¬ (applyEncryptedRecord conn d).encryptedRecordsFromClient ≥ 2 := by
  unfold TrackedConnection.logs TrackedConnection.stopsBefore at hlog
  simp only [hdata, decide_true, Bool.true_and, Bool.and_eq_true, Bool.not_eq_true',
    Bool.or_eq_false_iff, decide_eq_true_eq, decide_eq_false_iff_not] at hlog
  exact ⟨hlog.2, hlog.1.2.1⟩

/-- One more record of the server, that takes a place of the timeline. -/
theorem server (h : FlightCounts conn) (hroom : conn.state.records.length < RECORD_LOG_CAP)
    (hflight : conn'.flight = (conn.encryptedRecordsFromServer + 1,
      conn.encryptedRecordsFromClient, conn.sawClientFinishedMarker))
    (hlen : conn'.state.records.length = conn.state.records.length + 1) : FlightCounts conn' := by
  have hsucc := h.server_succ hroom
  obtain ⟨hserver, hclient, hmarker⟩ := TrackedConnection.flight_eq_iff.mp hflight
  refine ⟨?_, ?_, ?_, ?_⟩
  · rw [hserver, hsucc, hlen]
    exact Nat.succ_le_succ h.server_le
  · rw [hclient]
    exact h.client_le
  · rw [hclient, hmarker]
    exact h.marker_iff
  · intro _ hzero
    rw [hserver] at hzero
    rw [hzero] at hsucc
    exact absurd hsucc (Nat.succ_ne_zero _).symm

/-- The first record of the client after one of the server. -/
theorem client (h : FlightCounts conn) (hserver : conn.encryptedRecordsFromServer > 0)
    (hflight : conn'.flight = (conn.encryptedRecordsFromServer, 1, true))
    (hlen : conn.state.records.length ≤ conn'.state.records.length) : FlightCounts conn' := by
  obtain ⟨hserver', hclient, hmarker⟩ := TrackedConnection.flight_eq_iff.mp hflight
  refine ⟨?_, ?_, ?_, ?_⟩
  · rw [hserver']
    exact h.server_le.trans hlen
  · rw [hclient]
    exact Nat.le_refl 1
  · rw [hclient, hmarker]
    exact iff_of_true rfl (by decide)
  · intro _
    rw [hserver']
    exact UInt32.pos_iff_ne_zero.mp hserver

/-- A record that is logged keeps the counters in step. -/
theorem processRecord (h : FlightCounts conn) (hlog : conn.logs d r) (t : UInt64) :
    FlightCounts (SeeHandshake.processRecord tp d t conn r) := by
  obtain ⟨body, hrecords, -⟩ := processRecord_logged tp t hlog
  have hlen : (SeeHandshake.processRecord tp d t conn r).state.records.length =
      conn.state.records.length + 1 := by
    rw [hrecords, List.length_append]
    rfl
  have hflight := processRecord_flight tp d t conn r
  by_cases hdata : r.recordType = .applicationData
  swap
  · rw [if_neg hdata] at hflight
    exact h.congr hflight (by omega)
  rw [if_pos hdata] at hflight
  obtain ⟨hroom, hlt⟩ := of_logs_data hlog hdata
  by_cases h12 : isTls12 conn.state.handshake.tlsVersion
  · rw [(applyEncryptedRecord_tls12 h12 d).1] at hflight
    exact h.congr hflight (by omega)
  cases d with
  | serverToClient =>
    rw [(applyEncryptedRecord_server h12).1] at hflight
    exact h.server hroom hflight hlen
  | clientToServer =>
    rcases conn.fromServer_cases with hnone | hserver
    · rw [applyEncryptedRecord_early h12 hnone] at hflight
      exact h.congr hflight (by omega)
    · have happlied := (applyEncryptedRecord_client h12 hserver).1
      obtain ⟨-, hcount, -⟩ := TrackedConnection.flight_eq_iff.mp happlied
      rw [hcount] at hlt
      have hzero := h.client_eq_zero hlt
      rw [happlied, hzero] at hflight
      exact h.client hserver hflight (by omega)

/-- The counters are in step until the timeline is closed. -/
theorem or_closed (h : conn.Closed ∨ FlightCounts conn) (d : Direction) (t : UInt64) (r : TlsRecord) :
    (SeeHandshake.processRecord tp d t conn r).Closed ∨
      FlightCounts (SeeHandshake.processRecord tp d t conn r) := by
  rcases h with hclosed | h
  · exact Or.inl (hclosed.processRecord d t r).1
  by_cases helig : r.recordType.eligible
  · by_cases hlog : conn.logs d r
    · exact Or.inr (h.processRecord hlog t)
    · exact Or.inl (TrackedConnection.closed_of_not_logs helig hlog t)
  · rw [processRecord_of_not_eligible _ _ _ helig]
    exact Or.inr h

theorem run (tp : TlsParser) (key : ConnectionKey) (t : UInt64) (origin : Origin)
    (segs : List Segment) :
    ((TrackedConnection.created key t origin).run tp segs).Closed ∨
      FlightCounts ((TrackedConnection.created key t origin).run tp segs) :=
  TrackedConnection.run_history tp (P := fun _ conn => conn.Closed ∨ FlightCounts conn)
    (fun _ _ d t r _ _ h => or_closed h d t r)
    (fun _ _ _ _ h => h.imp_right fun h => h.congr rfl le_rfl)
    (fun _ _ _ h => h.imp_right fun h => h.congr rfl le_rfl)
    (fun _ conn d bytes h => by cases d <;> exact h.imp_right fun h => h.congr rfl le_rfl)
    segs [] _ (Or.inr (created key t origin))

/-- Within a segment, too. -/
theorem midway (h : conn.Closed ∨ FlightCounts conn) (seg : Segment) (rs : List TlsRecord) :
    (conn.midway tp seg rs).Closed ∨ FlightCounts (conn.midway tp seg rs) := by
  unfold TrackedConnection.midway
  have hstart : ((conn.touched seg.nowMs).setBuf seg.direction (conn.peeled seg).rest).Closed ∨
      FlightCounts ((conn.touched seg.nowMs).setBuf seg.direction (conn.peeled seg).rest) := by
    cases seg.direction <;> exact h.imp_right fun h => h.congr rfl le_rfl
  induction rs using List.reverseRecOn with
  | nil => exact hstart
  | append_singleton rs r ih =>
    rw [List.foldl_append]
    exact or_closed ih seg.direction seg.nowMs r

end FlightCounts

/-! ## The event of a record -/

section Event

variable {conn : TrackedConnection} {d : Direction} {r : TlsRecord}

theorem pushRecordEvent_body (hopen : ¬ conn.stopLogging)
    (hroom : conn.state.records.length < RECORD_LOG_CAP) (t : UInt64) :
    ∃ e : RecordEvent,
      (pushRecordEvent conn r d t).state.records = conn.state.records ++ [e] ∧
      e.direction = toRecordDirection d ∧ e.body = buildBody r d conn := by
  unfold pushRecordEvent
  rw [if_neg (by simp [hopen, hroom])]
  refine ⟨_, rfl, rfl, ?_⟩
  cases d <;> rfl

/-- The event of a record that is logged: a Handshake record is labelled before it is counted, an
ApplicationData record after. -/
theorem processRecord_event (tp : TlsParser) (h : conn.logs d r) (t : UInt64) :
    ∃ e : RecordEvent,
      (processRecord tp d t conn r).state.records = conn.state.records ++ [e] ∧
      e.direction = toRecordDirection d ∧
      e.body = buildBody r d
        (if r.recordType = .applicationData then applyEncryptedRecord conn d else conn) := by
  simp only [TrackedConnection.logs, Bool.and_eq_true, decide_eq_true_eq, Bool.not_eq_true'] at h
  obtain ⟨⟨⟨helig, hstop⟩, hdata⟩, hroom⟩ := h
  cases hr : r.recordType with
  | handshake =>
    have hne : TlsRecordType.handshake ≠ .applicationData := by decide
    rw [processRecord_handshake _ _ _ hr, if_neg hne]
    by_cases hccs : conn.ccsSeen d
    · rw [if_pos hccs]
      exact pushRecordEvent_body (by simp [hstop]) hroom t
    · rw [if_neg hccs]
      obtain ⟨e, hrecords, hdir, hbody⟩ := @pushRecordEvent_body
        { conn with state.handshake :=
            applyHandshakeRecord tp conn.state.handshake r.payload d } d r (by simp [hstop]) hroom t
      refine ⟨e, hrecords, hdir, hbody.trans ?_⟩
      unfold buildBody
      rw [hr]
      cases d <;> rfl
  | applicationData =>
    rw [processRecord_applicationData _ _ _ hr, if_pos rfl]
    have hstops : conn.stopsBefore d = false := by simpa [hr] using hdata
    obtain ⟨e, hrecords, hdir, hbody⟩ := @pushRecordEvent_body
      { applyEncryptedRecord conn d with stopLogging := conn.stopLogging || conn.stopsBefore d }
      d r (by simp [hstop, hstops]) (by rw [applyEncryptedRecord_records]; exact hroom) t
    refine ⟨e, ?_, hdir, hbody.trans ?_⟩
    · rw [hrecords, applyEncryptedRecord_records]
    · unfold buildBody
      rw [hr]
      rfl
  | changeCipherSpec =>
    have hne : TlsRecordType.changeCipherSpec ≠ .applicationData := by decide
    rw [processRecord_changeCipherSpec _ _ _ hr, if_neg hne]
    obtain ⟨e, hrecords, hdir, hbody⟩ := @pushRecordEvent_body
      (({ conn with state.handshake := applyCcs conn.state.handshake d } :
        TrackedConnection).setCcsSeen d) d r (by cases d <;> simp [TrackedConnection.setCcsSeen, hstop])
      (by rw [TrackedConnection.state_setCcsSeen]; exact hroom) t
    refine ⟨e, ?_, hdir, hbody.trans ?_⟩
    · rw [hrecords, TrackedConnection.state_setCcsSeen]
    · unfold buildBody
      rw [hr]
  | alert => simp [hr] at helig
  | other v => simp [hr] at helig

/-- The entry of a record that is logged, all of it. -/
theorem processRecord_entry (tp : TlsParser) (h : conn.logs d r) (t : UInt64) :
    (processRecord tp d t conn r).state.records = conn.state.records ++
      [r.event d t (u32SaturatingSucc conn.seqCounter) (buildBody r d
        (if r.recordType = .applicationData then applyEncryptedRecord conn d else conn))] := by
  obtain ⟨body, hrecords, -⟩ := processRecord_logged tp t h
  obtain ⟨e, hrecords', -, hbody⟩ := processRecord_event tp h t
  have hsame := List.append_cancel_left (hrecords.symm.trans hrecords')
  obtain rfl := List.singleton_inj.mp hsame
  rw [hrecords]
  exact congrArg (fun body => conn.state.records ++ [r.event d t _ body]) hbody

end Event

end SeeHandshake

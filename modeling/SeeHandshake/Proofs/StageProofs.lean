import SeeHandshake.Proofs.MoveProofs
import SeeHandshake.Ui.Stages

/-!
# Proofs: the stage of a record and the stage of the tracker

The stage that the user interface reads off the newest record is the stage of the tracker exactly under
the condition `StagesAgree`: the two inferences go apart on most records of the server's encrypted
flight, on most Handshake records after a ChangeCipherSpec, and on records of several messages.
-/

namespace SeeHandshake

variable {tp : TlsParser}

/-! ## Labels -/

section Labels

variable (d : Direction) (conn : TrackedConnection)

/-- The stage of the label of a Handshake record after the ChangeCipherSpec. -/
theorem labelStage_postCcsHandshakeLabel :
    labelStage (toRecordDirection d) (postCcsHandshakeLabel d conn) =
      match d with
      | .clientToServer => if conn.postCcsRecordsFromClient = 0 then .clientFinished else .certificate
      | .serverToClient =>
        if conn.postCcsRecordsFromServer = 0 then .applicationData
        else if conn.postCcsRecordsFromServer = 1 then .serverFinished
        else .certificate := by
  unfold postCcsHandshakeLabel
  cases d with
  | clientToServer =>
    simp only
    split_ifs <;> decide +kernel
  | serverToClient =>
    simp only
    split_ifs <;> decide +kernel

/-- The stage of the label of an ApplicationData record. -/
theorem labelStage_encryptedFlightLabel (len : ℕ) :
    labelStage (toRecordDirection d) (encryptedFlightLabel d conn len) =
      if isTls12 conn.state.handshake.tlsVersion then .applicationData
      else match d with
      | .serverToClient =>
        if conn.encryptedRecordsFromServer = 1 then
          if len < 200 then .certificate else .serverFinished
        else if conn.encryptedRecordsFromServer = 2 then .serverFinished
        else .applicationData
      | .clientToServer =>
        if conn.encryptedRecordsFromServer = 0 then .applicationData
        else if conn.encryptedRecordsFromClient = 1 then .clientFinished
        else .applicationData := by
  unfold encryptedFlightLabel
  by_cases h12 : isTls12 conn.state.handshake.tlsVersion
  · rw [if_pos h12, if_pos h12]
    cases d <;> decide +kernel
  rw [if_neg h12, if_neg h12]
  cases d with
  | serverToClient =>
    simp only
    split_ifs <;> decide +kernel
  | clientToServer =>
    simp only
    split_ifs <;> decide +kernel

end Labels

/-! ## The stage of an event -/

section Event

variable {d : Direction}

/-- The stage that a first byte stands for. -/
def byteStage (tls12 : Bool) (d : Direction) (msgType : UInt8) : Option HandshakeStage :=
  if msgType = 20 then some (toRecordDirection d).finished
  else if msgType = 11 ∧ ¬ tls12 then some .certificate
  else plainStage msgType

/-- A plaintext Handshake record stands for the stage of its first byte. -/
theorem recordStage_handshake {tls12 : Bool} {e : RecordEvent} {payload : Bytes}
    (hdir : e.direction = toRecordDirection d)
    (hbody : e.body = .handshake (decodeHandshakeBody payload)) :
    recordStage tls12 e = payload.head?.bind fun msgType =>
      if namesStage msgType payload then byteStage tls12 d msgType else none := by
  unfold recordStage
  rw [hbody, hdir]
  unfold decodeHandshakeBody
  cases payload with
  | nil => rfl
  | cons msgType rest =>
    simp only [List.head?_cons, Option.bind_some]
    by_cases hclient : msgType = 1
    · subst hclient
      rw [if_pos rfl]
      unfold namesStage
      cases decodeClientHello (1 :: rest) <;> rfl
    rw [if_neg hclient]
    by_cases hserver : msgType = 2
    · subst hserver
      rw [if_pos rfl]
      unfold namesStage
      cases hdecode : decodeServerHello (2 :: rest) with
      | error e => rfl
      | ok sh =>
        simp only
        cases isHelloRetryRequest sh <;> rfl
    rw [if_neg hserver]
    unfold namesStage byteStage plainStage
    simp only
    split <;> cases tls12 <;> simp_all

theorem recordStage_encrypted {tls12 : Bool} {e : RecordEvent} {l : String} {preview : Bytes}
    (hdir : e.direction = toRecordDirection d) (hbody : e.body = .encryptedHandshake l preview) :
    recordStage tls12 e = some (labelStage (toRecordDirection d) l) := by
  unfold recordStage
  rw [hbody, hdir]

end Event

/-! ## Where both inferences come to the same stage -/

section Agreement

variable {conn : TrackedConnection} {d : Direction} {r : TlsRecord} {steps : List RunStep}

/-- The stage of the tracker and the stage of the label, by the number of records of the server
before. -/
theorem server_stage_table {k len : ℕ} {marker : Bool} (h : marker → k ≠ 0) :
    ((if marker then HandshakeStage.applicationData
        else if k + 1 ≤ 3 then .certificate else .serverFinished) =
      if k + 1 = 1 then if len < 200 then .certificate else .serverFinished
      else if k + 1 = 2 then .serverFinished else .applicationData) ↔
      (k = 0 ∧ len < 200) ∨ (k ≥ 2 ∧ marker) := by
  match k, marker with
  | 0, true => exact absurd rfl (h rfl)
  | 0, false => by_cases hlen : len < 200 <;> simp [hlen]
  | 1, true => simp
  | 1, false => simp
  | k + 2, true => simp
  | k + 2, false =>
    by_cases hthree : k + 2 + 1 ≤ 3 <;> simp [hthree]

/-- The stage of the label of an ApplicationData record of the server is that of the tracker. -/
theorem server_stage_iff (h : FlightCounts conn) (hroom : conn.state.records.length < RECORD_LOG_CAP)
    (h12 : ¬ isTls12 conn.state.handshake.tlsVersion) (len : ℕ) :
    (applyEncryptedRecord conn .serverToClient).state.handshake.stage =
        labelStage .serverToClient (encryptedFlightLabel .serverToClient
          (applyEncryptedRecord conn .serverToClient) len) ↔
      EncryptedAgrees tp steps ⟨conn, .serverToClient, some r⟩ len := by
  obtain ⟨hflight, hstage⟩ := applyEncryptedRecord_server h12
  obtain ⟨hserver, -⟩ := TrackedConnection.flight_eq_iff.mp hflight
  have hlabel := labelStage_encryptedFlightLabel .serverToClient
    (applyEncryptedRecord conn .serverToClient) len
  rw [applyEncryptedRecord_tlsVersion, if_neg h12, hserver] at hlabel
  have hsucc := h.server_succ hroom
  have hcount : ∀ n : UInt32, conn.encryptedRecordsFromServer + 1 = n ↔
      conn.encryptedRecordsFromServer.toNat + 1 = n.toNat := fun n => by
    rw [← hsucc, UInt32.toNat_inj]
  have hle : ∀ n : UInt32, conn.encryptedRecordsFromServer + 1 ≤ n ↔
      conn.encryptedRecordsFromServer.toNat + 1 ≤ n.toNat := fun n => by
    rw [← hsucc, UInt32.le_iff_toNat_le]
  have hge : ∀ n : UInt32, conn.encryptedRecordsFromServer ≥ n ↔
      conn.encryptedRecordsFromServer.toNat ≥ n.toNat := fun n => UInt32.le_iff_toNat_le
  have hone : 1 ≤ conn.encryptedRecordsFromServer + 1 := by
    rw [UInt32.le_iff_toNat_le, hsucc]
    exact Nat.succ_le_succ (Nat.zero_le _)
  have hzero : conn.encryptedRecordsFromServer = 0 ↔ conn.encryptedRecordsFromServer.toNat = 0 := by
    rw [← UInt32.toNat_inj]
    rfl
  have hmarker := h.marker_server
  unfold EncryptedAgrees RunStep.tls12
  rw [hstage, show labelStage .serverToClient _ = _ from hlabel]
  simp only [hcount, hle, hge, hone, hzero, true_and, h12, false_or, Bool.false_eq_true]
  exact server_stage_table fun hm hnone => hmarker hm (hzero.mpr hnone)

/-- The same for a record of the client that does not close the timeline. -/
theorem client_stage_iff (h : FlightCounts conn) (hheld : Held tp (lastMover tp steps) conn)
    (hlt : ¬ (applyEncryptedRecord conn .clientToServer).encryptedRecordsFromClient ≥ 2)
    (h12 : ¬ isTls12 conn.state.handshake.tlsVersion) (len : ℕ) :
    (applyEncryptedRecord conn .clientToServer).state.handshake.stage =
        labelStage .clientToServer (encryptedFlightLabel .clientToServer
          (applyEncryptedRecord conn .clientToServer) len) ↔
      EncryptedAgrees tp steps ⟨conn, .clientToServer, some r⟩ len := by
  have hlabel := labelStage_encryptedFlightLabel .clientToServer
    (applyEncryptedRecord conn .clientToServer) len
  rw [applyEncryptedRecord_tlsVersion, if_neg h12] at hlabel
  unfold EncryptedAgrees RunStep.tls12
  rw [show labelStage .clientToServer _ = _ from hlabel]
  simp only [h12, false_or, Bool.false_eq_true]
  rw [← hheld.applicationData_iff]
  rcases conn.fromServer_cases with hnone | hserver
  · have hnever : ¬ conn.encryptedRecordsFromServer > 0 := by
      rw [hnone]
      decide
    rw [applyEncryptedRecord_early h12 hnone, if_pos hnone]
    exact ⟨Or.inr, fun hor => hor.resolve_left hnever⟩
  · obtain ⟨hflight, hstage⟩ := applyEncryptedRecord_client h12 hserver
    obtain ⟨hcountS, hcountC, -⟩ := TrackedConnection.flight_eq_iff.mp hflight
    rw [hcountC] at hlt
    have hzero := h.client_eq_zero hlt
    have hmarker : ¬ conn.sawClientFinishedMarker := fun hm => h.marker_iff.mp hm hzero
    have hne : conn.encryptedRecordsFromServer ≠ 0 := UInt32.pos_iff_ne_zero.mp hserver
    rw [hstage, hcountS, hcountC, hzero, if_neg hmarker, if_neg hne, if_pos (by decide)]
    exact iff_of_true rfl (Or.inl hserver)

/-- On an ApplicationData record that is logged. -/
theorem encrypted_stage_iff (h : FlightCounts conn) (hheld : Held tp (lastMover tp steps) conn)
    (hlog : conn.logs d r)
    (hdata : r.recordType = .applicationData) (len : ℕ) :
    (applyEncryptedRecord conn d).state.handshake.stage =
        labelStage (toRecordDirection d) (encryptedFlightLabel d (applyEncryptedRecord conn d) len) ↔
      EncryptedAgrees tp steps ⟨conn, d, some r⟩ len := by
  obtain ⟨hroom, hlt⟩ := FlightCounts.of_logs_data hlog hdata
  by_cases h12 : isTls12 conn.state.handshake.tlsVersion
  · rw [labelStage_encryptedFlightLabel, applyEncryptedRecord_tlsVersion, if_pos h12,
      (applyEncryptedRecord_tls12 h12 d).2]
    exact iff_of_true rfl (Or.inl h12)
  cases d with
  | serverToClient => exact server_stage_iff h hroom h12 len
  | clientToServer => exact client_stage_iff h hheld hlt h12 len

/-- On a Handshake record after the ChangeCipherSpec of its direction, which leaves the stage alone. -/
theorem postCcs_stage_iff (hheld : Held tp (lastMover tp steps) conn) :
    conn.state.handshake.stage =
        labelStage (toRecordDirection d) (postCcsHandshakeLabel d conn) ↔
      PostCcsAgrees tp steps ⟨conn, d, some r⟩ := by
  rw [labelStage_postCcsHandshakeLabel]
  unfold PostCcsAgrees
  cases d with
  | clientToServer =>
    simp only
    split_ifs
    · exact hheld.clientFinished_iff
    · exact hheld.certificate_iff
  | serverToClient =>
    simp only
    split_ifs
    · exact hheld.applicationData_iff
    · exact hheld.serverFinished_iff
    · exact hheld.certificate_iff

/-- If no message moves the stage, none changes the version. -/
theorem versionAfter_of_lastMoving {version : Option TlsVersion} {msgs : List TlsMessage}
    (h : lastMoving tp d version msgs = none) : versionAfter tp d version msgs = version := by
  induction msgs generalizing version with
  | nil => rfl
  | cons msg msgs ih =>
    rw [lastMoving] at h
    obtain ⟨hlater, hfirst⟩ := Option.or_eq_none_iff.mp h
    have hmoves : ¬ msg.movesStage d version := by
      intro hmoves
      rw [if_pos hmoves] at hfirst
      cases hfirst
    have hsame : msg.versionAfter tp d version = version := by
      unfold TlsMessage.versionAfter
      split
      · exact absurd rfl hmoves
      · exact absurd rfl hmoves
      · rfl
    rw [hsame] at hlater
    have hrest := ih hlater
    unfold versionAfter at hrest ⊢
    rw [List.foldl_cons, hsame]
    exact hrest

/-- A first byte that names a stage stands for one. -/
theorem exists_byteStage {msgType : UInt8} {payload : Bytes} (h : namesStage msgType payload)
    (tls12 : Bool) (d : Direction) :
    ∃ stage, byteStage tls12 d msgType = some stage ∧ stage ≠ .idle := by
  unfold byteStage
  unfold namesStage at h
  split_ifs
  · exact ⟨_, rfl, by cases d <;> decide⟩
  · exact ⟨_, rfl, by decide⟩
  · split at h
    case h_8 => cases h
    case h_7 hne _ => exact absurd rfl hne
    all_goals exact ⟨_, rfl, by decide⟩

/-- A step leaves the stage of a first byte iff it is of its kind. -/
theorem RunStep.stage_iff_isOf {s : RunStep} {tls12 : Bool} {msgType : UInt8} {stage : HandshakeStage}
    (h : byteStage tls12 d msgType = some stage) : s.stage tp = stage ↔ s.isOf tp d tls12 msgType := by
  obtain ⟨hclient, hserver, hflight, -⟩ := s.stage_iff tp
  unfold byteStage at h
  unfold RunStep.isOf
  split_ifs at h ⊢
  · obtain rfl := Option.some.inj h
    cases d
    · exact hclient
    · exact hserver
  · obtain rfl := Option.some.inj h
    exact hflight
  · exact stage_iff_tells h

/-- The stage of a message is that of a first byte iff the first byte is its type, and the version is
known if that is a Certificate. -/
theorem TlsMessage.stage?_iff_byte {msg : TlsMessage} {tls12 : Bool} {msgType : UInt8}
    {stage : HandshakeStage} (h : byteStage tls12 d msgType = some stage) :
    msg.stage? = some stage ↔ msg.msgType? = some msgType ∧ (msgType = 11 → tls12) := by
  obtain ⟨hclient, hserver, hflight, -⟩ := msg.stage?_ne
  unfold byteStage at h
  split_ifs at h with hfinished hcertificate
  · obtain rfl := Option.some.inj h
    subst hfinished
    refine iff_of_false (by cases d <;> assumption) ?_
    rintro ⟨hmsg, -⟩
    rcases msg with (_ | _ | _ | _ | _ | _ | _) | _ <;> simp [TlsMessage.msgType?] at hmsg
  · obtain rfl := Option.some.inj h
    refine iff_of_false hflight ?_
    rintro ⟨-, hknown⟩
    exact hcertificate.2 (hknown hcertificate.1)
  · rw [TlsMessage.msgType?_iff h, iff_self_and]
    intro _ heleven
    by_contra hunknown
    exact hcertificate ⟨heleven, hunknown⟩

/-- On a Handshake record before the ChangeCipherSpec of its direction. -/
theorem plaintext_stage_iff (hheld : Held tp (lastMover tp steps) conn)
    (hr : r.recordType = .handshake) (hccs : ¬ conn.ccsSeen d) :
    (∀ stage, (r.payload.head?.bind fun msgType =>
        if namesStage msgType r.payload then
          byteStage (isTls12 (versionAfter tp d conn.state.handshake.tlsVersion
            (messagesOf tp r.payload))) d msgType
        else none) = some stage →
      stage = (lastMove tp d conn.state.handshake.tlsVersion (messagesOf tp r.payload)).getD
        conn.state.handshake.stage) ↔
      PlaintextAgrees tp steps ⟨conn, d, some r⟩ r.payload := by
  set s : RunStep := ⟨conn, d, some r⟩ with hs
  have hmessage : s.message? tp =
      lastMoving tp d conn.state.handshake.tlsVersion (messagesOf tp r.payload) := by
    unfold RunStep.message?
    exact if_pos ⟨hr, hccs⟩
  unfold PlaintextAgrees
  rw [lastMove_eq, ← hmessage]
  cases r.payload.head? with
  | none => simp
  | some msgType =>
    simp only [Option.bind_some, Option.mem_def, Option.some.injEq, forall_eq']
    by_cases hnames : namesStage msgType r.payload
    swap
    · rw [if_neg hnames]
      exact iff_of_true (fun _ h => by cases h) fun h => absurd h hnames
    obtain ⟨stage, hbyte, hidle⟩ := exists_byteStage hnames
      (isTls12 (versionAfter tp d conn.state.handshake.tlsVersion (messagesOf tp r.payload))) d
    rw [if_pos hnames, hbyte]
    simp only [Option.some.injEq, forall_eq', hnames, forall_const]
    cases hmsg : s.message? tp with
    | some msg =>
      rw [hmsg] at hmessage
      obtain ⟨version, hmoves⟩ := lastMoving_eq_some hmessage.symm
      obtain ⟨stage', hstage'⟩ := TlsMessage.stage?_of_movesStage hmoves
      have hiff := @TlsMessage.stage?_iff_byte d msg _ _ _ hbyte
      rw [hstage', Option.some.injEq] at hiff
      rw [Option.bind_some, hstage', Option.getD_some, eq_comm]
      exact hiff
    | none =>
      rw [hmsg] at hmessage
      rw [versionAfter_of_lastMoving hmessage.symm] at hbyte
      rw [Option.bind_none, Option.getD_none, eq_comm]
      exact hheld.iff hidle fun last => RunStep.stage_iff_isOf hbyte

/-- On every record that is logged, the stage of its event is that of the tracker iff the condition
holds. -/
theorem recordStage_iff (tp : TlsParser) (h : FlightCounts conn)
    (hheld : Held tp (lastMover tp steps) conn) (hlog : conn.logs d r) (t : UInt64) {e : RecordEvent}
    (hrecords : (processRecord tp d t conn r).state.records = conn.state.records ++ [e]) :
    (∀ stage, recordStage (isTls12 (processRecord tp d t conn r).state.handshake.tlsVersion) e =
        some stage →
      stage = (processRecord tp d t conn r).state.handshake.stage) ↔ StagesAgree tp steps conn d r := by
  obtain ⟨e', hrecords', hdir, hbody⟩ := processRecord_event tp hlog t
  obtain rfl : e = e' := by
    rw [hrecords'] at hrecords
    exact (List.singleton_inj.mp (List.append_cancel_left hrecords)).symm
  have hsome : ∀ x y : HandshakeStage, (∀ stage, some x = some stage → stage = y) ↔ y = x := by
    intro x y
    simp [eq_comm]
  rw [processRecord_handshakeInfo]
  unfold StagesAgree
  unfold buildBody at hbody
  cases hr : r.recordType with
  | handshake =>
    have hne : r.recordType ≠ .applicationData := by simp [hr]
    rw [if_neg hne, hr] at hbody
    simp only at hbody ⊢
    by_cases hccs : conn.ccsSeen d
    · rw [if_pos hccs] at hbody ⊢
      rw [if_pos hccs, recordStage_encrypted hdir hbody, hsome]
      exact postCcs_stage_iff hheld
    · rw [if_neg hccs] at hbody ⊢
      obtain ⟨hversion, hstage⟩ := @foldl_applyHandshakeMessage tp d (messagesOf tp r.payload)
        conn.state.handshake
      rw [if_neg hccs, recordStage_handshake hdir hbody, applyHandshakeRecord_eq_foldl, hversion,
        hstage]
      exact plaintext_stage_iff hheld hr hccs
  | applicationData =>
    rw [if_pos hr, hr] at hbody
    simp only at hbody ⊢
    rw [recordStage_encrypted hdir hbody, hsome]
    exact encrypted_stage_iff h hheld hlog hr r.payload.length
  | changeCipherSpec =>
    rw [hr] at hbody
    simp only at hbody ⊢
    unfold recordStage
    rw [hbody]
    simp
  | alert => simp [TrackedConnection.logs, hr] at hlog
  | other v => simp [TrackedConnection.logs, hr] at hlog

/-- The stage of the newest record, under the cursor. -/
theorem selectedRecordStage_newest {app : App} {state : ConnectionState} {records : List RecordEvent}
    {e : RecordEvent} (hselected : app.selected = some state)
    (hrow : app.recordsRow = state.records.length) (hrecords : state.records = records ++ [e]) :
    app.selectedRecordStage = recordStage (isTls12 state.handshake.tlsVersion) e := by
  have hlen : state.records.length = records.length + 1 := by
    rw [hrecords, List.length_append]
    rfl
  have hlast : state.records[app.recordsRow - 1]? = some e := by
    rw [hrow, hlen, Nat.add_sub_cancel, hrecords, List.getElem?_concat_length]
  unfold App.selectedRecordStage App.selectedIsTls12
  rw [hselected]
  simp only [Option.bind_eq_bind, Option.bind_some]
  rw [if_neg (by omega), hlast]
  rfl

end Agreement

/-- In every run of a new connection, and for every record that is appended to its timeline: with the
cursor on the newest record, the user interface is at the stage of the tracker iff `StagesAgree` holds of
the record and the steps of the run before it. -/
theorem selectedRecordStage_iff (tp : TlsParser) (key : ConnectionKey) (t : UInt64) (origin : Origin)
    (segs : List Segment) (seg : Segment) (a : List (TlsRecord × Bytes)) (r : TlsRecord)
    (bytes : Bytes) (b : List (TlsRecord × Bytes)) (app : App) :
    let start := TrackedConnection.created key t origin
    let conn := start.run tp segs
    let steps := start.steps tp segs ++ conn.midwaySteps tp seg (a.map Prod.fst)
    let before := conn.midway tp seg (a.map Prod.fst)
    let after := conn.midway tp seg ((a ++ [(r, bytes)]).map Prod.fst)
    conn.framed seg = a ++ (r, bytes) :: b → after.state.records ≠ before.state.records →
    app.selected = some after.state → app.recordsRow = after.state.records.length →
      ((∀ stage, app.selectedRecordStage = some stage → stage = after.state.handshake.stage) ↔
        StagesAgree tp steps before seg.direction r) := by
  intro start conn steps before after hframed hlogged hselected hrow
  have hafter : after = processRecord tp seg.direction seg.nowMs before r := by
    show conn.midway tp seg ((a ++ [(r, bytes)]).map Prod.fst) = _
    rw [List.map_append, TrackedConnection.midway_append]
    rfl
  have hlog : before.logs seg.direction r := by
    by_contra hlog
    have hsame := (processRecord_not_logged tp seg.nowMs hlog).1
    rw [← hafter] at hsame
    exact hlogged hsame
  have hopen : ¬ before.Closed := fun hclosed =>
    TrackedConnection.not_logs_of_closed hclosed seg.direction r hlog
  have hcounts : FlightCounts before :=
    (FlightCounts.midway (FlightCounts.run tp key t origin segs) seg _).resolve_left hopen
  have hheld : Held tp (lastMover tp steps) before :=
    ((Held.created tp key t origin).run segs).midway seg _
  obtain ⟨e, hrecords, -⟩ := processRecord_event tp hlog seg.nowMs
  have hiff := recordStage_iff tp hcounts hheld hlog seg.nowMs hrecords
  rw [← hafter] at hrecords hiff
  rw [selectedRecordStage_newest hselected hrow hrecords]
  exact hiff

/-! ## Concrete handshakes -/

namespace Reference

/-- The user interface with the cursor on the newest record of a connection. -/
def newest (state : ConnectionState) : App :=
  App.new.ops (.handleUiEvent (.handshakeUpdated state) :: .focusRight ::
    List.replicate state.records.length .selectNext)

/-- The hellos of a TLS 1.3 handshake. -/
def hellos13 : List Sent :=
  [.of .clientToServer 22 clientHello13, .of .serverToClient 22 (serverHello13 (List.replicate 32 0))]

/-- The end of a TLS 1.2 handshake, from the key exchange of the client on. -/
def finished12 : List Sent :=
  [.of .clientToServer 22 [16, 0, 0, 0], .of .clientToServer 20 [1], .of .clientToServer 22 [7],
    .of .serverToClient 20 [1], .of .serverToClient 22 [7]]

/-- A connection after some records. -/
def received (xs : List Sent) : ConnectionState :=
  ((TrackedConnection.created key 0 .unknown).receive parser xs).state

end Reference

/-- The client's Finished, after its ChangeCipherSpec and its key exchange. -/
theorem selectedRecordStage_iff_finished :
    let state := Reference.received (Reference.finished12.take 3)
    (Reference.newest state).selectedRecordStage = some .clientFinished ∧
      state.handshake.stage = .clientFinished := by
  intro state
  set x : Sent := .of .clientToServer 22 [7] with hx
  set start := TrackedConnection.created Reference.key 0 .unknown with hstart
  set segs : List Segment := (Reference.finished12.take 2).map Sent.segment with hsegs
  set conn := start.run Reference.parser segs with hconn
  have hbuf : conn.buf x.direction = [] :=
    TrackedConnection.buf_run_segments _ (fun d => by cases d <;> rfl) _
  have hiff := selectedRecordStage_iff Reference.parser Reference.key 0 .unknown segs x.segment []
    x.record.toTlsRecord x.record.encode [] (Reference.newest state)
    (TrackedConnection.framed_segment hbuf) (by decide +kernel) (by decide +kernel) (by decide +kernel)
  have hsame : (conn.midway Reference.parser x.segment [x.record.toTlsRecord]).state = state := by
    decide +kernel
  have hselected : (Reference.newest state).selectedRecordStage = some .clientFinished := by
    decide +kernel
  -- The last step that moved the stage is the ChangeCipherSpec.
  have hmover : (lastMover Reference.parser (start.steps Reference.parser segs ++
      conn.midwaySteps Reference.parser x.segment [])).any RunStep.isClientFinished := by
    decide +kernel
  have hagree : StagesAgree Reference.parser (start.steps Reference.parser segs ++
      conn.midwaySteps Reference.parser x.segment []) (conn.midway Reference.parser x.segment [])
      .clientToServer x.record.toTlsRecord :=
    (Option.any_eq_true _ _).mp hmover
  have hstage := hiff.mpr hagree _ hselected
  refine ⟨hselected, ?_⟩
  rw [← hsame]
  exact hstage.symm

/-- The server's second encrypted record, and its first Handshake record after both
ChangeCipherSpecs. -/
theorem selectedRecordStage_ne :
    let state13 := Reference.received (Reference.hellos13 ++
      [.of .serverToClient 23 [7], .of .serverToClient 23 [7]])
    let state12 := Reference.received Reference.finished12
    (Reference.newest state13).selectedRecordStage = some .serverFinished ∧
      state13.handshake.stage = .certificate ∧
      (Reference.newest state12).selectedRecordStage = some .applicationData ∧
      state12.handshake.stage = .serverFinished := by
  decide +kernel

end SeeHandshake

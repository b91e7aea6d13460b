import SeeHandshake.Lib.Triple
import SeeHandshake.Proofs.FlightProofs
import SeeHandshake.Proofs.MessageProofs
import SeeHandshake.Tracker.FullHandshake

/-!
# Proofs: the stages of a full handshake before TLS 1.3

Rules of pre- and postconditions for the records of such a handshake: plaintext messages, a
ChangeCipherSpec, encrypted records, application data. The handshake is then followed flight by flight,
with the stage that each of them leaves as the assertion between them.
-/

namespace SeeHandshake

open Lib HandshakeStage

variable {tp : TlsParser}

/-! ## Messages -/

/-- A message does not move the stage backwards. -/
def Rises (tp : TlsParser) (d : Direction) (handshake : HandshakeInfo) (msg : TlsMessage) : Prop :=
  handshake.stage.position orderedTls12 ≤
    (applyHandshakeMessage tp d handshake msg).stage.position orderedTls12

/-- A handshake before TLS 1.3, at a stage. -/
def At12 (stage : HandshakeStage) (handshake : HandshakeInfo) : Prop :=
  isTls12 handshake.tlsVersion ∧ handshake.stage = stage

/-- A handshake before TLS 1.3, at a stage that is not past the given one. -/
def UpTo12 (stage : HandshakeStage) (handshake : HandshakeInfo) : Prop :=
  isTls12 handshake.tlsVersion ∧
    handshake.stage.position orderedTls12 ≤ stage.position orderedTls12

section Messages

variable {d : Direction} {stage : HandshakeStage}

theorem upTo12_of_at12 {handshake : HandshakeInfo} {stage' : HandshakeStage}
    (hle : stage.position orderedTls12 ≤ stage'.position orderedTls12) (h : At12 stage handshake) :
    UpTo12 stage' handshake := by
  refine ⟨h.1, ?_⟩
  rw [h.2]
  exact hle

/-- A message that stands for a later stage moves on to it. -/
theorem triple_moving {msg : TlsMessage} {stage' : HandshakeStage}
    (hversion : ∀ version, msg.versionAfter tp d version = version)
    (hmoves : ∀ version, isTls12 version → msg.movesStage d version)
    (hstage : msg.stage? = some stage')
    (hle : stage.position orderedTls12 ≤ stage'.position orderedTls12) :
    Triple (applyHandshakeMessage tp d) (Rises tp d) (UpTo12 stage) [msg] (At12 stage') := by
  refine Triple.single fun handshake h => ?_
  have hmoved : (applyHandshakeMessage tp d handshake msg).stage = stage' := by
    rw [applyHandshakeMessage_stage, if_pos (hmoves _ h.1), hstage]
    rfl
  refine ⟨?_, ?_, hmoved⟩
  · unfold Rises
    rw [hmoved]
    exact h.2.trans hle
  · rw [applyHandshakeMessage_tlsVersion, hversion]
    exact h.1

theorem not_movesStage_other (d : Direction) (version : Option TlsVersion) :
    ¬ (TlsMessage.handshake .other).movesStage d version := Bool.false_ne_true

theorem not_movesStage_certificate (version : Option TlsVersion) :
    ¬ (TlsMessage.handshake .certificate).movesStage .clientToServer version := Bool.false_ne_true

/-- A message that may be left out, and that moves no stage. -/
theorem triple_optional_quiet {hs : TlsMessageHandshake} {P : HandshakeInfo → Prop}
    (hquiet : ∀ version, ¬ (TlsMessage.handshake hs).movesStage d version) (present : Bool) :
    Triple (applyHandshakeMessage tp d) (Rises tp d) P (optional present hs) P := by
  cases present with
  | false => exact Triple.nil fun handshake h => h
  | true =>
    refine Triple.single fun handshake h => ?_
    unfold Rises
    rw [applyHandshakeMessage_of_not_movesStage (hquiet _)]
    exact ⟨Nat.le_refl _, h⟩

end Messages

/-! ## The flights -/

theorem foldl_read (tp : TlsParser) (visit : ServerHelloInfo → TlsExtension → ServerHelloInfo)
    (info : ServerHelloInfo) : ∀ (fuel : ℕ) (i : Bytes) (read : List TlsExtension),
      (walkExtensionsLoop tp (fun read e => read ++ [e]) fuel i read).foldl visit info =
        walkExtensionsLoop tp visit fuel i (read.foldl visit info) := by
  intro fuel
  induction fuel with
  | zero => exact fun i read => rfl
  | succ fuel ih =>
    intro i read
    rw [walkExtensionsLoop, walkExtensionsLoop]
    split_ifs
    · rfl
    · cases tp.parseTlsExtension i with
      | error e => rfl
      | ok r =>
        simp only
        rw [ih, List.foldl_append]
        rfl

/-- The summary of a ServerHello applies the extensions that are read. -/
theorem extractServerHello_eq_foldl (sh : TlsServerHelloContents) :
    extractServerHello tp sh = (parsedExtensions tp sh.ext).foldl applyServerExtension
      { cipherSuiteSelected := some (CipherSuite.fromU16 sh.cipher)
        tlsVersion := some (TlsVersion.fromU16 sh.version) } := by
  unfold extractServerHello parsedExtensions
  cases sh.ext with
  | none => rfl
  | some extBytes => exact (foldl_read tp applyServerExtension _ extBytes.length extBytes []).symm

/-- Only `supported_versions` changes the version that a ServerHello selects. -/
theorem foldl_applyServerExtension_tlsVersion {es : List TlsExtension}
    (h : ∀ versions, TlsExtension.supportedVersions versions ∉ es) (info : ServerHelloInfo) :
    (es.foldl applyServerExtension info).tlsVersion = info.tlsVersion := by
  induction es generalizing info with
  | nil => rfl
  | cons e es ih =>
    rw [List.foldl_cons, ih fun versions hv => h versions (List.mem_cons_of_mem _ hv)]
    cases e with
    | supportedVersions versions => exact absurd List.mem_cons_self (h versions)
    | sni | alpn | ellipticCurves | keyShare | other => rfl

theorem isTls12_of_selectsTls12 {sh : TlsServerHelloContents} (h : sh.SelectsTls12 tp)
    (version : Option TlsVersion) : isTls12 ((extractServerHello tp sh).tlsVersion.or version) := by
  rw [extractServerHello_eq_foldl, foldl_applyServerExtension_tlsVersion h.2]
  obtain hv | hv | hv : sh.version = 0x0301 ∨ sh.version = 0x0302 ∨ sh.version = 0x0303 := by
    simpa using h.1
  · rw [hv]
    rfl
  · rw [hv]
    rfl
  · rw [hv]
    rfl

/-- The first message of the client. -/
theorem triple_clientHello (ch : TlsClientHelloContents) :
    Triple (applyHandshakeMessage tp .clientToServer) (Rises tp .clientToServer)
      (fun handshake => handshake.stage = .idle) [.handshake (.clientHello ch)]
      (fun handshake => handshake.stage = .clientHello) := by
  refine Triple.single fun handshake h => ⟨?_, rfl⟩
  unfold Rises
  rw [h]
  exact Nat.zero_le _

/-- The flight of the server. -/
theorem triple_serverMessages {sh : TlsServerHelloContents} (h : sh.SelectsTls12 tp)
    (status keyExchange request : Bool) :
    Triple (applyHandshakeMessage tp .serverToClient) (Rises tp .serverToClient)
      (fun handshake => handshake.stage = .clientHello)
      (serverMessages sh status keyExchange request) (At12 .serverHelloDone) := by
  have hhello : Triple (applyHandshakeMessage tp .serverToClient) (Rises tp .serverToClient)
      (fun handshake => handshake.stage = .clientHello) [.handshake (.serverHello sh)]
      (UpTo12 .serverHello) := by
    refine Triple.single fun handshake hstage => ⟨?_, ?_, Nat.le_refl _⟩
    · have hle : clientHello.position orderedTls12 ≤ serverHello.position orderedTls12 := by decide
      unfold Rises
      rw [hstage]
      exact hle
    · exact isTls12_of_selectsTls12 h _
  have hcertificate : Triple (applyHandshakeMessage tp .serverToClient) (Rises tp .serverToClient)
      (UpTo12 .serverHello) [.handshake .certificate] (UpTo12 .serverCertificate) := by
    refine (triple_moving (fun _ => rfl) (fun version h12 => ?_) rfl (by decide)).conseq
      (fun _ h => h) (fun _ => upTo12_of_at12 (Nat.le_refl _))
    simp [TlsMessage.movesStage, h12]
  have hkeyExchange : Triple (applyHandshakeMessage tp .serverToClient) (Rises tp .serverToClient)
      (UpTo12 .serverCertificate) (optional keyExchange .serverKeyExchange)
      (UpTo12 .serverKeyExchange) := by
    cases keyExchange with
    | false =>
      exact Triple.nil fun handshake h => ⟨h.1, h.2.trans (by decide)⟩
    | true =>
      exact (triple_moving (fun _ => rfl) (fun _ _ => rfl) rfl (by decide)).conseq
        (fun _ h => h) (fun _ => upTo12_of_at12 (Nat.le_refl _))
  have hdone : Triple (applyHandshakeMessage tp .serverToClient) (Rises tp .serverToClient)
      (UpTo12 .serverKeyExchange) [.handshake .serverDone] (At12 .serverHelloDone) :=
    triple_moving (fun _ => rfl) (fun _ _ => rfl) rfl (by decide)
  exact hhello.append (hcertificate.append
    ((triple_optional_quiet (not_movesStage_other _) status).append
      (hkeyExchange.append
        ((triple_optional_quiet (not_movesStage_other _) request).append hdone))))

/-- The flight of the client. -/
theorem triple_clientMessages (certificate verify : Bool) :
    Triple (applyHandshakeMessage tp .clientToServer) (Rises tp .clientToServer)
      (At12 .serverHelloDone) (clientMessages certificate verify) (At12 .clientKeyExchange) := by
  have hkeyExchange : Triple (applyHandshakeMessage tp .clientToServer) (Rises tp .clientToServer)
      (UpTo12 .serverHelloDone) [.handshake .clientKeyExchange] (At12 .clientKeyExchange) :=
    triple_moving (fun _ => rfl) (fun _ _ => rfl) rfl (by decide)
  have hstart : ∀ handshake, At12 .serverHelloDone handshake → UpTo12 .serverHelloDone handshake :=
    fun _ => upTo12_of_at12 (Nat.le_refl _)
  exact (triple_optional_quiet not_movesStage_certificate certificate).append
    ((hkeyExchange.conseq hstart fun _ h => h).append
      (triple_optional_quiet (not_movesStage_other _) verify))

/-! ## Records -/

/-- The stage that the ChangeCipherSpecs so far stand for. -/
def AsSeen (seen : Direction → Bool) (stage : HandshakeStage) : Prop :=
  (seen .serverToClient → stage = .serverFinished) ∧
    (seen .clientToServer → ¬ seen .serverToClient → stage = .clientFinished)

/-- A record does not move the stage backwards, and leaves the one that it and the ChangeCipherSpecs so
far stand for. -/
def Walks (tp : TlsParser) (conn : TrackedConnection) (x : Sent) : Prop :=
  conn.MovesOn tp orderedTls12 x ∧
    if x.type = .applicationData then
      (conn.process tp x).state.handshake.stage = .applicationData
    else AsSeen (conn.process tp x).ccsSeen (conn.process tp x).state.handshake.stage

/-- A connection that has seen these ChangeCipherSpecs, with a handshake that satisfies `P`. -/
def Phase (seen : Direction → Bool) (P : HandshakeInfo → Prop) (conn : TrackedConnection) : Prop :=
  conn.ccsSeen = seen ∧ P conn.state.handshake

section Records

variable {d : Direction} {seen : Direction → Bool} {P Q : HandshakeInfo → Prop}

/-- The ChangeCipherSpecs seen after a record. -/
theorem process_ccsSeen (tp : TlsParser) (conn : TrackedConnection) {x : Sent} {type : TlsRecordType}
    (hx : x.Is d type) (d' : Direction) :
    (conn.process tp x).ccsSeen d' =
      (conn.ccsSeen d' || decide (type = .changeCipherSpec) && decide (d' = d)) := by
  obtain ⟨htype, rfl⟩ := hx
  have hr : x.record.toTlsRecord.recordType = type := htype
  rw [← hr]
  exact processRecord_ccsSeen x.direction x.nowMs conn x.record.toTlsRecord d'

/-- What a Handshake record does to the handshake and the ChangeCipherSpecs seen. -/
theorem process_handshake (tp : TlsParser) (conn : TrackedConnection) {x : Sent}
    (hx : x.Is d .handshake) :
    (conn.process tp x).state.handshake =
        (if conn.ccsSeen d then conn.state.handshake
        else applyHandshakeRecord tp conn.state.handshake x.record.payload d) ∧
      (conn.process tp x).ccsSeen = conn.ccsSeen := by
  have hseen := process_ccsSeen tp conn hx
  obtain ⟨htype, rfl⟩ := hx
  have hr : x.record.toTlsRecord.recordType = .handshake := htype
  have hinfo := @processRecord_handshakeInfo tp x.direction x.nowMs conn x.record.toTlsRecord
  simp only [hr] at hinfo
  exact ⟨hinfo, funext fun d' => (hseen d').trans (by simp)⟩

/-- What a ChangeCipherSpec does to them. -/
theorem process_ccs (tp : TlsParser) (conn : TrackedConnection) {x : Sent}
    (hx : x.Is d .changeCipherSpec) :
    (conn.process tp x).state.handshake = applyCcs conn.state.handshake d ∧
      (conn.process tp x).ccsSeen = fun d' => conn.ccsSeen d' || decide (d' = d) := by
  have hseen := process_ccsSeen tp conn hx
  obtain ⟨htype, rfl⟩ := hx
  have hr : x.record.toTlsRecord.recordType = .changeCipherSpec := htype
  have hinfo := @processRecord_handshakeInfo tp x.direction x.nowMs conn x.record.toTlsRecord
  simp only [hr] at hinfo
  exact ⟨hinfo, funext fun d' => (hseen d').trans (by simp)⟩

/-- Plaintext messages before the first ChangeCipherSpec. -/
theorem triple_messages {xs : List Sent} {msgs : List TlsMessage}
    (h : Triple (applyHandshakeMessage tp d) (Rises tp d) P msgs Q) (hxs : Carries tp d xs msgs) :
    Triple (TrackedConnection.process tp) (Walks tp) (Phase (fun _ => false) P) xs
      (Phase (fun _ => false) Q) := by
  rintro conn ⟨hseen, hp⟩
  obtain ⟨hall, hq⟩ := h _ hp
  clear hp h
  induction hxs generalizing conn with
  | nil => exact ⟨allSteps_nil _ _, hseen, hq⟩
  | @cons x xs ms msgs htype hdir hms hpayload _ ih =>
    obtain ⟨hinfo, hsame⟩ := process_handshake tp conn ⟨htype, hdir⟩
    rw [hseen, if_neg Bool.false_ne_true, hpayload, applyHandshakeRecord_messages d hms] at hinfo
    rw [hseen] at hsame
    obtain ⟨hthis, hrest⟩ := allSteps_append.mp hall
    rw [← hinfo] at hrest
    rw [List.foldl_append, ← hinfo] at hq
    have hwalks : Walks tp conn x := by
      refine ⟨?_, ?_⟩
      · unfold TrackedConnection.MovesOn
        rw [hinfo]
        exact AllSteps.le hthis
      · rw [if_neg (by rw [htype]; decide), hsame]
        exact ⟨fun hs => absurd hs Bool.false_ne_true, fun hs => absurd hs Bool.false_ne_true⟩
    obtain ⟨hwalk, hend⟩ := ih (conn.process tp x) hsame hrest hq
    exact ⟨allSteps_cons.mpr ⟨hwalks, hwalk⟩, hend⟩

/-- A Handshake record that does not change the handshake. -/
theorem triple_quiet {x : Sent} {stage : HandshakeStage} (hx : x.Is d .handshake)
    (hseen : AsSeen seen stage)
    (h : seen d ∨ ∀ handshake, applyHandshakeRecord tp handshake x.record.payload d = handshake) :
    Triple (TrackedConnection.process tp) (Walks tp) (Phase seen (At12 stage)) [x]
      (Phase seen (At12 stage)) := by
  refine Triple.single ?_
  rintro conn ⟨rfl, hp⟩
  obtain ⟨hinfo, hsame⟩ := process_handshake tp conn hx
  have hkept : (conn.process tp x).state.handshake = conn.state.handshake := by
    rw [hinfo]
    split_ifs with hccs
    · rfl
    · exact h.resolve_left hccs _
  refine ⟨⟨?_, ?_⟩, hsame, by rw [hkept]; exact hp⟩
  · unfold TrackedConnection.MovesOn
    rw [hkept]
  · rw [if_neg (by rw [hx.type]; decide), hsame, hkept, hp.2]
    exact hseen

theorem applyCcs_client {handshake : HandshakeInfo} (h : handshake.stage = .clientKeyExchange) :
    applyCcs handshake .clientToServer = { handshake with stage := .clientFinished } := if_pos h

theorem applyCcs_server {handshake : HandshakeInfo} (h : handshake.stage = .clientFinished) :
    applyCcs handshake .serverToClient = { handshake with stage := .serverFinished } := if_pos h

/-- A ChangeCipherSpec at the stage that waits for it. -/
theorem triple_ccs {x : Sent} {seen' : Direction → Bool} {stage stage' : HandshakeStage}
    (hx : x.Is d .changeCipherSpec) (hseen : ∀ d', seen' d' = (seen d' || decide (d' = d)))
    (hccs : ∀ handshake : HandshakeInfo, handshake.stage = stage →
      applyCcs handshake d = { handshake with stage := stage' })
    (hle : stage.position orderedTls12 ≤ stage'.position orderedTls12) (hseen' : AsSeen seen' stage') :
    Triple (TrackedConnection.process tp) (Walks tp) (Phase seen (At12 stage)) [x]
      (Phase seen' (At12 stage')) := by
  refine Triple.single ?_
  rintro conn ⟨rfl, h12, hstage⟩
  obtain ⟨hinfo, hmarked⟩ := process_ccs tp conn hx
  rw [← funext hseen] at hmarked
  rw [hccs _ hstage] at hinfo
  have hmoved : (conn.process tp x).state.handshake.stage = stage' := by rw [hinfo]
  refine ⟨⟨?_, ?_⟩, hmarked, ?_, hmoved⟩
  · unfold TrackedConnection.MovesOn
    rw [hmoved, hstage]
    exact hle
  · rw [if_neg (by rw [hx.type]; decide), hmarked, hmoved]
    exact hseen'
  · rw [hinfo]
    exact h12

theorem position_le_applicationData12 {stage : HandshakeStage} (h : stage ∈ idle :: orderedTls12) :
    stage.position orderedTls12 ≤ applicationData.position orderedTls12 := by
  cases stage <;> revert h <;> decide

/-- A connection before TLS 1.3, at a stage of the diagram. -/
def OnDiagram12 (conn : TrackedConnection) : Prop :=
  isTls12 conn.state.handshake.tlsVersion ∧
    conn.state.handshake.stage ∈ idle :: orderedTls12

/-- Application data. -/
theorem triple_data {x : Sent} (hx : x.type = .applicationData) :
    Triple (TrackedConnection.process tp) (Walks tp) OnDiagram12 [x] OnDiagram12 := by
  refine Triple.single ?_
  rintro conn ⟨h12, hstage⟩
  have hr : x.record.toTlsRecord.recordType = .applicationData := hx
  have hinfo := @processRecord_handshakeInfo tp x.direction x.nowMs conn x.record.toTlsRecord
  simp only [hr] at hinfo
  have hmoved : (conn.process tp x).state.handshake.stage = .applicationData := by
    unfold TrackedConnection.process
    rw [hinfo]
    exact (applyEncryptedRecord_tls12 h12 x.direction).2
  have hversion : (conn.process tp x).state.handshake.tlsVersion =
      conn.state.handshake.tlsVersion := by
    unfold TrackedConnection.process
    rw [hinfo, applyEncryptedRecord_tlsVersion]
  refine ⟨⟨?_, ?_⟩, ?_, ?_⟩
  · unfold TrackedConnection.MovesOn
    rw [hmoved]
    exact position_le_applicationData12 hstage
  · rw [if_pos hx]
    exact hmoved
  · rw [hversion]
    exact h12
  · rw [hmoved]
    decide

theorem position_le_of_walks {conn : TrackedConnection} {xs : List Sent}
    (h : AllSteps (TrackedConnection.process tp) (Walks tp) conn xs) :
    conn.state.handshake.stage.position orderedTls12 ≤
      (xs.foldl (TrackedConnection.process tp) conn).state.handshake.stage.position orderedTls12 :=
  @AllSteps.le _ _ (TrackedConnection.process tp)
    (fun conn => conn.state.handshake.stage.position orderedTls12) conn xs
    fun a x b heq => (h a x b heq).1

end Records

/-! ## The whole handshake -/

/-- Records that carry no message but ones that move no stage. -/
theorem Carries.quiet {d : Direction} {xs : List Sent} {msgs : List TlsMessage}
    (h : Carries tp d xs msgs) (hquiet : ∀ msg ∈ msgs, ∀ version, ¬ msg.movesStage d version) :
    ∀ x ∈ xs, x.Is d .handshake ∧
      ∀ handshake, applyHandshakeRecord tp handshake x.record.payload d = handshake := by
  induction h with
  | nil => exact fun x hx => absurd hx List.not_mem_nil
  | @cons x xs ms msgs htype hdir hms hpayload _ ih =>
    intro y hy
    rcases List.mem_cons.mp hy with rfl | hy
    · refine ⟨⟨htype, hdir⟩, fun handshake => ?_⟩
      rw [hpayload, applyHandshakeRecord_messages d hms]
      exact foldl_applyHandshakeMessage_of_not_movesStage fun msg hmsg =>
        hquiet msg (List.mem_append_left _ hmsg) _
    · exact ih (fun msg hmsg => hquiet msg (List.mem_append_right _ hmsg)) y hy

namespace FullHandshake

theorem not_movesStage_ticket (h : FullHandshake tp) :
    ∀ msg ∈ optional h.withTicket .other, ∀ version, ¬ msg.movesStage .serverToClient version := by
  intro msg hmsg version
  unfold optional at hmsg
  split_ifs at hmsg
  · rw [List.mem_singleton.mp hmsg]
    exact not_movesStage_other _ version
  · exact absurd hmsg List.not_mem_nil

/-- After the ChangeCipherSpec of the client only. -/
def clientSeen : Direction → Bool
  | .clientToServer => true
  | .serverToClient => false

theorem asSeen_clientSeen : AsSeen clientSeen .clientFinished :=
  ⟨fun hs => absurd hs Bool.false_ne_true, fun _ _ => rfl⟩

theorem asSeen_bothSeen : AsSeen (fun _ => true) .serverFinished :=
  ⟨fun _ => rfl, fun _ hs => absurd rfl hs⟩

/-- The handshake, flight by flight. -/
theorem triple_records (h : FullHandshake tp) :
    Triple (TrackedConnection.process tp) (Walks tp)
      (Phase (fun _ => false) fun handshake => handshake.stage = .idle) h.records OnDiagram12 := by
  have hclientCcs : Triple (TrackedConnection.process tp) (Walks tp)
      (Phase (fun _ => false) (At12 .clientKeyExchange)) [h.clientCcs]
      (Phase clientSeen (At12 .clientFinished)) :=
    triple_ccs h.clientCcs_is (fun d => by cases d <;> rfl) (fun _ => applyCcs_client) (by decide)
      asSeen_clientSeen
  have hclientFinished : Triple (TrackedConnection.process tp) (Walks tp)
      (Phase clientSeen (At12 .clientFinished)) [h.clientFinished]
      (Phase clientSeen (At12 .clientFinished)) :=
    triple_quiet h.clientFinished_is asSeen_clientSeen (Or.inl rfl)
  have hticket : Triple (TrackedConnection.process tp) (Walks tp)
      (Phase clientSeen (At12 .clientFinished)) h.ticket
      (Phase clientSeen (At12 .clientFinished)) := by
    refine Triple.all fun x hx => ?_
    obtain ⟨his, hquiet⟩ := h.ticket_carries.quiet h.not_movesStage_ticket x hx
    exact triple_quiet his asSeen_clientSeen (Or.inr hquiet)
  have hserverCcs : Triple (TrackedConnection.process tp) (Walks tp)
      (Phase clientSeen (At12 .clientFinished)) [h.serverCcs]
      (Phase (fun _ => true) (At12 .serverFinished)) :=
    triple_ccs h.serverCcs_is (fun d => by cases d <;> rfl) (fun _ => applyCcs_server) (by decide)
      asSeen_bothSeen
  have hserverFinished : Triple (TrackedConnection.process tp) (Walks tp)
      (Phase (fun _ => true) (At12 .serverFinished)) [h.serverFinished]
      (Phase (fun _ => true) (At12 .serverFinished)) :=
    triple_quiet h.serverFinished_is asSeen_bothSeen (Or.inl rfl)
  have hdata : Triple (TrackedConnection.process tp) (Walks tp)
      (Phase (fun _ => true) (At12 .serverFinished)) h.data OnDiagram12 := by
    have hstart : ∀ conn, Phase (fun _ => true) (At12 .serverFinished) conn → OnDiagram12 conn := by
      rintro conn ⟨-, h12, hstage⟩
      refine ⟨h12, ?_⟩
      rw [hstage]
      decide
    exact (Triple.all fun x hx => triple_data (h.data_type x hx)).conseq hstart fun _ h => h
  exact (triple_messages (triple_clientHello h.ch) h.clientHello_carries).append
    ((triple_messages (triple_serverMessages h.selectsTls12 _ _ _) h.serverFlight_carries).append
      ((triple_messages (triple_clientMessages _ _) h.clientFlight_carries).append
        (hclientCcs.cons (hclientFinished.cons (hticket.append
          (hserverCcs.cons (hserverFinished.cons hdata)))))))

end FullHandshake

/-! ## From records to segments -/

theorem ccsSeen_foldl_process (tp : TlsParser) (conn : TrackedConnection) (xs : List Sent)
    (d : Direction) :
    (xs.foldl (TrackedConnection.process tp) conn).ccsSeen d =
      (conn.ccsSeen d || ccsSent xs d) := by
  induction xs using List.reverseRecOn with
  | nil => simp [ccsSent]
  | append_singleton xs x ih =>
    rw [List.foldl_append, ccsSent_concat, ← Bool.or_assoc, ← ih]
    exact processRecord_ccsSeen x.direction x.nowMs _ x.record.toTlsRecord d

/-- Records that arrive whole have the effect that they have in the record loop, up to timestamps. -/
theorem receive_core (tp : TlsParser) (xs : List Sent) {conn conn' : TrackedConnection}
    (hcore : conn.core = conn'.core) (hbuf : ∀ d, conn.buf d = []) :
    (conn.receive tp xs).core = (xs.foldl (TrackedConnection.process tp) conn').core := by
  induction xs generalizing conn conn' with
  | nil => exact hcore
  | cons x xs ih =>
    have hstep := TrackedConnection.step_segment tp (hbuf x.direction)
    refine ih ?_ fun d => ?_
    · unfold TrackedConnection.process
      rw [hstep, processRecord_core, processRecord_core, TrackedConnection.core_touched, hcore]
    · rw [hstep, processRecord_buf, TrackedConnection.buf_touched]
      exact hbuf d

theorem receive_handshake (tp : TlsParser) (key : ConnectionKey) (t : UInt64) (origin : Origin)
    (xs : List Sent) :
    ((TrackedConnection.created key t origin).receive tp xs).state.handshake =
      (xs.foldl (TrackedConnection.process tp) (.created key t origin)).state.handshake := by
  have hcore := receive_core tp xs (Eq.refl (TrackedConnection.created key t origin).core)
    (fun d => by cases d <;> rfl)
  exact congrArg (fun conn => conn.state.handshake) hcore

/-- At every record of a full handshake before TLS 1.3 and of the application data after it, the stage
of a new connection does not move backwards along the diagram. It is ClientFinished from the client's
ChangeCipherSpec on and ServerFinished from the server's on, until application data sets the last one. -/
theorem fullHandshake_stages (tp : TlsParser) (key : ConnectionKey) (t : UInt64) (origin : Origin)
    (h : FullHandshake tp) {a b : List Sent} {x : Sent} (heq : h.records = a ++ x :: b) :
    let start := TrackedConnection.created key t origin
    let before := (start.receive tp a).state.handshake.stage
    let stage := (start.receive tp (a ++ [x])).state.handshake.stage
    before.position orderedTls12 ≤ stage.position orderedTls12 ∧
      stage ∈ idle :: orderedTls12 ∧
      (x.type = .applicationData → stage = .applicationData) ∧
      (x.type ≠ .applicationData → ccsSent (a ++ [x]) .serverToClient → stage = .serverFinished) ∧
      (x.type ≠ .applicationData → ccsSent (a ++ [x]) .clientToServer →
        ¬ ccsSent (a ++ [x]) .serverToClient → stage = .clientFinished) := by
  intro start before stage
  have hphase : Phase (fun _ => false) (fun handshake => handshake.stage = .idle) start :=
    ⟨funext fun d => by cases d <;> rfl, rfl⟩
  obtain ⟨hall, -, hend⟩ := h.triple_records start hphase
  rw [heq, List.append_cons] at hall hend
  obtain ⟨hall, hrest⟩ := allSteps_append.mp hall
  have hwalks := hall a x [] rfl
  have hafter : (a ++ [x]).foldl (TrackedConnection.process tp) start =
      (a.foldl (TrackedConnection.process tp) start).process tp x := List.foldl_append
  -- No stage of the handshake is past the last one, which is one of the diagram.
  have hmem : stage ∈ idle :: orderedTls12 := by
    have hle := position_le_of_walks hrest
    rw [← List.foldl_append, ← receive_handshake] at hle
    rw [← List.idxOf_lt_length_iff] at hend ⊢
    exact Nat.lt_of_le_of_lt hle hend
  have hseen : ∀ d, ((a.foldl (TrackedConnection.process tp) start).process tp x).ccsSeen d =
      ccsSent (a ++ [x]) d := by
    intro d
    rw [← hafter, ccsSeen_foldl_process]
    cases d <;> rfl
  have hbefore : before = (a.foldl (TrackedConnection.process tp) start).state.handshake.stage := by
    rw [← receive_handshake]
  have hstage : stage =
      ((a.foldl (TrackedConnection.process tp) start).process tp x).state.handshake.stage := by
    rw [← hafter, ← receive_handshake]
  obtain ⟨hmoves, hleft⟩ := hwalks
  unfold TrackedConnection.MovesOn at hmoves
  rw [← hbefore, ← hstage] at hmoves
  rw [← hstage] at hleft
  refine ⟨hmoves, hmem, ?_, ?_, ?_⟩
  · intro hdata
    rw [if_pos hdata] at hleft
    exact hleft
  · intro hdata hserver
    rw [if_neg hdata] at hleft
    exact hleft.1 (by rw [hseen]; exact hserver)
  · intro hdata hclient hserver
    rw [if_neg hdata] at hleft
    exact hleft.2 (by rw [hseen]; exact hclient) (by rw [hseen]; exact hserver)

namespace Reference

/-- A ServerHello that selects TLS 1.2. -/
def serverHello12 : Bytes :=
  [2, 0, 0, 38, 3, 3] ++ List.replicate 32 0 ++ [0, 0xC0, 0x2F, 0]

/-- What `serverHello12` parses to. -/
def serverHello12Contents : TlsServerHelloContents :=
  { version := 0x0303, cipher := 0xC02F, ext := none }

/-- A message without a body. -/
def emptyMessage (ty : UInt8) : Bytes := [ty, 0, 0, 0]

theorem emptyMessage_isMessage {ty : UInt8} {hs : TlsMessageHandshake}
    (h : messageBody ty [] = .ok hs) : parser.IsMessage (emptyMessage ty) (.handshake hs) :=
  @isMessage ty 0 0 0 [] hs rfl h

/-- A flight in one record. -/
theorem carries (d : Direction) {ms : List (Bytes × TlsMessage)} {msgs : List TlsMessage}
    (hms : parser.AreMessages ms) (hmsgs : msgs = ms.map Prod.snd)
    (hlen : (messageBytes ms).length ≤ MAX_RECORD_PAYLOAD) :
    Carries parser d [.of d 22 (messageBytes ms)] msgs := by
  rw [hmsgs, ← List.append_nil (ms.map Prod.snd)]
  exact .cons rfl rfl hms (List.take_of_length_le hlen) .nil

/-- The messages of the server, each with the message it parses to. -/
def serverFlight12 : List (Bytes × TlsMessage) :=
  [(serverHello12, .handshake (.serverHello serverHello12Contents)),
    (emptyMessage 11, .handshake .certificate), (emptyMessage 12, .handshake .serverKeyExchange),
    (emptyMessage 14, .handshake .serverDone)]

theorem serverFlight12_areMessages : parser.AreMessages serverFlight12 := by
  intro m hm
  simp only [serverFlight12, List.mem_cons, List.not_mem_nil, or_false] at hm
  rcases hm with rfl | rfl | rfl | rfl
  · exact @isMessage 2 0 0 38 (serverHello12.drop 4) _ (by decide) (by decide)
  · exact emptyMessage_isMessage rfl
  · exact emptyMessage_isMessage rfl
  · exact emptyMessage_isMessage rfl

theorem ccs_is (d : Direction) : (Sent.of d 20 [1]).Is d .changeCipherSpec := ⟨rfl, rfl⟩

theorem finished_is (d : Direction) : (Sent.of d 22 [7]).Is d .handshake := ⟨rfl, rfl⟩

/-- A full handshake of TLS 1.2, each flight in one record, and one record of application data. -/
def full12 : FullHandshake parser where
  clientHello := [.of .clientToServer 22 (messageBytes [(clientHello13,
    .handshake (.clientHello clientHello13Contents))])]
  serverFlight := [.of .serverToClient 22 (messageBytes serverFlight12)]
  clientFlight := [.of .clientToServer 22 (messageBytes [(emptyMessage 16,
    .handshake .clientKeyExchange)])]
  clientCcs := .of .clientToServer 20 [1]
  clientFinished := .of .clientToServer 22 [7]
  ticket := []
  serverCcs := .of .serverToClient 20 [1]
  serverFinished := .of .serverToClient 22 [7]
  data := [.of .clientToServer 23 [7]]
  ch := clientHello13Contents
  sh := serverHello12Contents
  status := false
  keyExchange := true
  request := false
  certificate := false
  verify := false
  withTicket := false
  clientHello_carries := carries _ (List.forall_mem_singleton.mpr clientHello13_isMessage) rfl (by decide)
  selectsTls12 := ⟨by decide, fun _ => List.not_mem_nil⟩
  serverFlight_carries := carries _ serverFlight12_areMessages rfl (by decide)
  clientFlight_carries := carries _ (List.forall_mem_singleton.mpr (emptyMessage_isMessage rfl)) rfl
    (by decide)
  clientCcs_is := ccs_is .clientToServer
  clientFinished_is := finished_is .clientToServer
  ticket_carries := .nil
  serverCcs_is := ccs_is .serverToClient
  serverFinished_is := finished_is .serverToClient
  data_type := List.forall_mem_singleton.mpr rfl

/-- Its records before the ChangeCipherSpec of the server. -/
def before12 : List Sent :=
  full12.clientHello ++ (full12.serverFlight ++ (full12.clientFlight ++
    (full12.clientCcs :: full12.clientFinished :: full12.ticket)))

end Reference

/-- The ChangeCipherSpec of the server sets the stage of its Finished. -/
theorem fullHandshake_stages_serverCcs :
    ((TrackedConnection.created Reference.key 0 .unknown).receive Reference.parser
      (Reference.before12 ++ [Reference.full12.serverCcs])).state.handshake.stage =
        .serverFinished :=
  (fullHandshake_stages Reference.parser Reference.key 0 .unknown Reference.full12
    (show Reference.full12.records = Reference.before12 ++ Reference.full12.serverCcs :: _ from rfl)).2.2.2.1
      (by decide) (by decide)

end SeeHandshake

import SeeHandshake.Proofs.FlightProofs

/-!
# Proofs: the stage is that of the step that last moved it

What kind of step leaves which stage, and that in every run the stage of the connection is the one that
the last step that moved it has left.
-/

namespace SeeHandshake

variable {tp : TlsParser}

/-! ## Messages -/

section Messages

variable {d : Direction} {version : Option TlsVersion} {msg : TlsMessage}

/-- A message that moves the stage stands for one. -/
theorem TlsMessage.stage?_of_movesStage (h : msg.movesStage d version) :
    ∃ stage, msg.stage? = some stage := by
  cases msg with
  | other => cases h
  | handshake hs =>
    cases hs with
    | other => cases h
    | clientHello | serverHello | certificate | serverKeyExchange | serverDone | clientKeyExchange =>
      exact ⟨_, rfl⟩

/-- The last message that moves the stage is one that does. -/
theorem lastMoving_eq_some {msgs : List TlsMessage} (h : lastMoving tp d version msgs = some msg) :
    ∃ version', msg.movesStage d version' := by
  induction msgs generalizing version with
  | nil => cases h
  | cons first msgs ih =>
    rw [lastMoving] at h
    cases hlater : lastMoving tp d (first.versionAfter tp d version) msgs with
    | some later =>
      rw [hlater] at h
      obtain rfl := Option.some.inj h
      exact ih hlater
    | none =>
      rw [hlater, Option.none_or] at h
      split_ifs at h with hmoves
      obtain rfl := Option.some.inj h
      exact ⟨version, hmoves⟩

theorem lastMove_eq (version : Option TlsVersion) (msgs : List TlsMessage) :
    lastMove tp d version msgs = (lastMoving tp d version msgs).bind TlsMessage.stage? := by
  induction msgs generalizing version with
  | nil => rfl
  | cons first msgs ih =>
    rw [lastMove, lastMoving, ih]
    cases hlater : lastMoving tp d (first.versionAfter tp d version) msgs with
    | none =>
      rw [Option.bind_none, Option.none_or, Option.none_or]
      split_ifs <;> rfl
    | some later =>
      obtain ⟨version', hmoves⟩ := lastMoving_eq_some hlater
      obtain ⟨stage, hstage⟩ := TlsMessage.stage?_of_movesStage hmoves
      rw [Option.bind_some, Option.some_or, Option.bind_some, hstage, Option.some_or]

/-- The stage that a type byte stands for in a plaintext message. -/
def plainStage : UInt8 → Option HandshakeStage
  | 1 => some .clientHello
  | 2 => some .serverHello
  | 11 => some .serverCertificate
  | 12 => some .serverKeyExchange
  | 14 => some .serverHelloDone
  | 16 => some .clientKeyExchange
  | _ => none

theorem plainStage_ne {msgType : UInt8} {stage : HandshakeStage}
    (h : plainStage msgType = some stage) :
    stage ≠ .clientFinished ∧ stage ≠ .serverFinished ∧ stage ≠ .certificate ∧
      stage ≠ .applicationData ∧ stage ≠ .errored ∧ stage ≠ .idle := by
  unfold plainStage at h
  split at h
  case h_7 => cases h
  all_goals
    obtain rfl := Option.some.inj h
    decide

theorem TlsMessage.msgType?_iff {msgType : UInt8} {stage : HandshakeStage}
    (h : plainStage msgType = some stage) : msg.msgType? = some msgType ↔ msg.stage? = some stage := by
  unfold plainStage at h
  split at h
  case h_7 => cases h
  all_goals
    obtain rfl := Option.some.inj h
    rcases msg with (_ | _ | _ | _ | _ | _ | _) | _ <;> simp [TlsMessage.msgType?, TlsMessage.stage?]

/-- No message stands for a later stage than the key exchange of the client. -/
theorem TlsMessage.stage?_ne (msg : TlsMessage) :
    msg.stage? ≠ some .clientFinished ∧ msg.stage? ≠ some .serverFinished ∧
      msg.stage? ≠ some .certificate ∧ msg.stage? ≠ some .applicationData := by
  rcases msg with (_ | _ | _ | _ | _ | _ | _) | _ <;> simp [TlsMessage.stage?]

end Messages

/-! ## Kinds of steps -/

namespace RunStep

variable {s : RunStep}

/-- The stage that a step leaves if it moves the stage. -/
def stage (tp : TlsParser) (s : RunStep) : HandshakeStage :=
  match s.message? tp with
  | some msg => msg.stage?.getD .errored
  | none =>
    if s.isClientFinished then .clientFinished
    else if s.isServerFinished then .serverFinished
    else if s.isServerFlight then .certificate
    else if s.isTraffic then .applicationData
    else .errored

/-- The record of a message is neither ApplicationData nor a ChangeCipherSpec. -/
theorem kinds_of_message {msg : TlsMessage} (h : s.message? tp = some msg) :
    s.isClientFinished = false ∧ s.isServerFinished = false ∧ s.isServerFlight = false ∧
      s.isTraffic = false := by
  unfold message? at h
  split at h
  case h_2 => cases h
  case h_1 r hr =>
    split_ifs at h with hplain
    have hdata : s.isData = false := by
      unfold isData
      rw [hr, Option.any_some, hplain.1]
      rfl
    have hccs : ∀ d, s.isCcs d = false := fun d => by
      unfold isCcs
      rw [hr, Option.any_some, hplain.1]
      exact Bool.and_false _
    unfold isClientFinished isServerFinished isServerFlight isTraffic isFlight
    simp only [hdata, hccs, Bool.and_false, Bool.false_and, Bool.or_false, and_self]

/-- A step of one kind is of no other. -/
theorem kinds_disjoint (s : RunStep) :
    (s.isServerFinished → s.isClientFinished = false) ∧
    (s.isServerFlight → s.isClientFinished = false ∧ s.isServerFinished = false) ∧
    (s.isTraffic → s.isClientFinished = false ∧ s.isServerFinished = false ∧
      s.isServerFlight = false) := by
  have hcases : s.isData = false ∨ ∀ d, s.isCcs d = false := by
    unfold isData isCcs
    cases s.record with
    | none => exact Or.inl rfl
    | some r =>
      cases hr : r.recordType <;> simp [hr]
  have hthree : (decide (s.before.encryptedRecordsFromServer < 3)) =
      !decide (s.before.encryptedRecordsFromServer ≥ 3) := by
    rw [← decide_not]
    exact decide_eq_decide.mpr UInt32.not_le.symm
  unfold isClientFinished isServerFinished isServerFlight isTraffic isFlight
  rw [hthree]
  rcases hcases with hdata | hccs
  · unfold isCcs
    cases s.direction <;> simp [hdata]
  · cases s.direction <;> simp [hccs] <;> grind

theorem stage_of_some {msg : TlsMessage} (h : s.message? tp = some msg) :
    s.stage tp = msg.stage?.getD .errored := by
  unfold stage
  rw [h]

/-- The stage of a message is that of none of these kinds. -/
theorem stage_of_message {msg : TlsMessage} (h : s.message? tp = some msg) :
    s.stage tp ≠ .clientFinished ∧ s.stage tp ≠ .serverFinished ∧ s.stage tp ≠ .certificate ∧
      s.stage tp ≠ .applicationData := by
  have hne := msg.stage?_ne
  rw [stage_of_some h]
  cases hstage : msg.stage? with
  | none => simp
  | some stage => simpa [hstage] using hne

theorem stage_of_no_message (h : s.message? tp = none) :
    s.stage tp = if s.isClientFinished then .clientFinished
      else if s.isServerFinished then .serverFinished
      else if s.isServerFlight then .certificate
      else if s.isTraffic then .applicationData
      else .errored := by
  unfold stage
  rw [h]

/-- The kinds of steps by the stage that they leave. -/
theorem stage_iff (tp : TlsParser) (s : RunStep) :
    (s.stage tp = .clientFinished ↔ s.isClientFinished) ∧
    (s.stage tp = .serverFinished ↔ s.isServerFinished) ∧
    (s.stage tp = .certificate ↔ s.isServerFlight) ∧
    (s.stage tp = .applicationData ↔ s.isTraffic) := by
  obtain ⟨hserver, hflight, htraffic⟩ := s.kinds_disjoint
  cases hmsg : s.message? tp with
  | some msg =>
    obtain ⟨h1, h2, h3, h4⟩ := kinds_of_message hmsg
    obtain ⟨n1, n2, n3, n4⟩ := stage_of_message hmsg
    rw [h1, h2, h3, h4]
    exact ⟨iff_of_false n1 Bool.false_ne_true, iff_of_false n2 Bool.false_ne_true,
      iff_of_false n3 Bool.false_ne_true, iff_of_false n4 Bool.false_ne_true⟩
  | none =>
    rw [stage_of_no_message hmsg]
    grind

/-- A step leaves the stage of a message iff it tells it. -/
theorem stage_iff_tells {msgType : UInt8} {stage : HandshakeStage}
    (h : plainStage msgType = some stage) : s.stage tp = stage ↔ s.tells tp msgType := by
  have hplain := plainStage_ne h
  unfold tells
  cases hmsg : s.message? tp with
  | some msg =>
    have hiff := @TlsMessage.msgType?_iff msg _ _ h
    rw [stage_of_some hmsg, Option.any_some, decide_eq_true_iff, hiff]
    cases hstage : msg.stage? with
    | none => simp [hplain.2.2.2.2.1.symm]
    | some stage' => simp
  | none =>
    rw [stage_of_no_message hmsg]
    refine iff_of_false ?_ (by simp)
    split_ifs
    · exact hplain.1.symm
    · exact hplain.2.1.symm
    · exact hplain.2.2.1.symm
    · exact hplain.2.2.2.1.symm
    · exact hplain.2.2.2.2.1.symm

/-- The stage that an error exit leaves. -/
theorem stage_of_error (conn : TrackedConnection) (d : Direction) :
    (⟨conn, d, none⟩ : RunStep).stage tp = .errored := by
  rw [stage_of_no_message rfl]
  unfold isClientFinished isServerFinished isServerFlight isTraffic isFlight isCcs isData
  simp

/-- The stage that an ApplicationData record leaves. -/
theorem stage_of_isData (h : s.isData) :
    s.stage tp =
      if s.tls12 || s.before.sawClientFinishedMarker then .applicationData
      else match s.direction with
      | .clientToServer => .clientFinished
      | .serverToClient =>
        if s.before.encryptedRecordsFromServer < 3 then .certificate else .serverFinished := by
  obtain ⟨hclient, hserver, hflight, htraffic⟩ := s.stage_iff tp
  by_cases hlate : s.tls12 || s.before.sawClientFinishedMarker
  · rw [if_pos hlate, htraffic]
    unfold isTraffic
    rw [h, hlate]
    rfl
  rw [if_neg hlate]
  have hearly : ∀ d, s.direction = d → s.isFlight d := fun d hd => by
    unfold isFlight
    simp [h, hd, hlate]
  cases hd : s.direction with
  | clientToServer =>
    refine hclient.mpr ?_
    unfold isClientFinished
    rw [hearly _ hd, Bool.or_true]
  | serverToClient =>
    simp only
    split_ifs with hthree
    · refine hflight.mpr ?_
      unfold isServerFlight
      rw [hearly _ hd, decide_eq_true hthree]
      rfl
    · refine hserver.mpr ?_
      unfold isServerFinished
      rw [hearly _ hd, decide_eq_true (UInt32.not_lt.mp hthree), Bool.and_self, Bool.or_true]

/-- The stage that a ChangeCipherSpec leaves. -/
theorem stage_of_isCcs {d : Direction} (h : s.isCcs d) :
    s.stage tp = match d with
      | .clientToServer => .clientFinished
      | .serverToClient => .serverFinished := by
  obtain ⟨hclient, hserver, -, -⟩ := s.stage_iff tp
  cases d with
  | clientToServer =>
    refine hclient.mpr ?_
    unfold isClientFinished
    rw [h, Bool.true_or]
  | serverToClient =>
    refine hserver.mpr ?_
    unfold isServerFinished
    rw [h, Bool.true_or]

end RunStep

/-! ## The stage in a run -/

/-- The stage is the one that the last step that moved it has left. -/
def Held (tp : TlsParser) (last : Option RunStep) (conn : TrackedConnection) : Prop :=
  conn.state.handshake.stage = (last.map (RunStep.stage tp)).getD .idle

section Held

variable {last : Option RunStep} {conn conn' : TrackedConnection}

theorem Held.congr (h : Held tp last conn)
    (hstage : conn'.state.handshake.stage = conn.state.handshake.stage) : Held tp last conn' :=
  hstage.trans h

/-- The stage by the kind of the last step that moved it. -/
theorem Held.iff (h : Held tp last conn) {stage : HandshakeStage} (hidle : stage ≠ .idle)
    {kind : RunStep → Bool} (hkind : ∀ s : RunStep, s.stage tp = stage ↔ kind s) :
    conn.state.handshake.stage = stage ↔ ∃ s ∈ last, kind s := by
  unfold Held at h
  rw [h]
  cases last with
  | none => simp [hidle.symm]
  | some s => simp [hkind s]

theorem Held.clientFinished_iff (h : Held tp last conn) :
    conn.state.handshake.stage = .clientFinished ↔ ∃ s ∈ last, s.isClientFinished :=
  h.iff (by decide) fun s => (s.stage_iff tp).1

theorem Held.serverFinished_iff (h : Held tp last conn) :
    conn.state.handshake.stage = .serverFinished ↔ ∃ s ∈ last, s.isServerFinished :=
  h.iff (by decide) fun s => (s.stage_iff tp).2.1

theorem Held.certificate_iff (h : Held tp last conn) :
    conn.state.handshake.stage = .certificate ↔ ∃ s ∈ last, s.isServerFlight :=
  h.iff (by decide) fun s => (s.stage_iff tp).2.2.1

theorem Held.applicationData_iff (h : Held tp last conn) :
    conn.state.handshake.stage = .applicationData ↔ ∃ s ∈ last, s.isTraffic :=
  h.iff (by decide) fun s => (s.stage_iff tp).2.2.2

/-- The key exchange of the client is what its ChangeCipherSpec waits for. -/
theorem Held.keyExchange (h : Held tp last conn) :
    conn.state.handshake.stage = .clientKeyExchange ↔ last.any fun s => s.tells tp 16 := by
  have htells : ∀ s : RunStep, s.stage tp = .clientKeyExchange ↔ s.tells tp 16 := fun s =>
    RunStep.stage_iff_tells rfl
  rw [h.iff (by decide) htells]
  cases last <;> simp

/-- The client's Finished is what the ChangeCipherSpec of the server waits for. -/
theorem Held.clientFinished (h : Held tp last conn) :
    conn.state.handshake.stage = .clientFinished ↔ last.any RunStep.isClientFinished := by
  rw [h.clientFinished_iff]
  cases last <;> simp

end Held

section Record

variable {last : Option RunStep} {conn : TrackedConnection} {d : Direction} {r : TlsRecord}

/-- A Handshake record moves the stage to that of its last message that moves it. -/
theorem handshake_stage (hr : r.recordType = .handshake) (t : UInt64) :
    let s : RunStep := ⟨conn, d, some r⟩
    (processRecord tp d t conn r).state.handshake.stage =
      if s.moves tp last then s.stage tp else conn.state.handshake.stage := by
  intro s
  have hinfo := @processRecord_handshakeInfo tp d t conn r
  rw [hr] at hinfo
  simp only at hinfo
  have hmoves : s.moves tp last = (s.message? tp).isSome := by
    unfold RunStep.moves
    simp only [s, hr]
  have hmessage : s.message? tp = if r.recordType = .handshake ∧ ¬ conn.ccsSeen d then
      lastMoving tp d conn.state.handshake.tlsVersion (messagesOf tp r.payload) else none := rfl
  rw [hmoves]
  by_cases hccs : conn.ccsSeen d
  · rw [if_neg fun hplain => hplain.2 hccs] at hmessage
    rw [if_pos hccs] at hinfo
    rw [hmessage, hinfo]
    rfl
  rw [if_pos ⟨hr, hccs⟩] at hmessage
  rw [if_neg hccs, applyHandshakeRecord_eq_foldl] at hinfo
  have hstage := (@foldl_applyHandshakeMessage tp d (messagesOf tp r.payload)
    conn.state.handshake).2
  rw [← hinfo, lastMove_eq, ← hmessage] at hstage
  rw [hstage]
  cases hlast : s.message? tp with
  | none => rfl
  | some msg =>
    rw [hlast] at hmessage
    obtain ⟨version, hmsg⟩ := lastMoving_eq_some hmessage.symm
    obtain ⟨stage, hmsgStage⟩ := TlsMessage.stage?_of_movesStage hmsg
    rw [Option.isSome_some, if_pos rfl, RunStep.stage_of_some hlast, Option.bind_some, hmsgStage]
    rfl

/-- The server's counter passes three with its fourth record. -/
theorem fromServer_succ_le_iff (k : UInt32) : (1 ≤ k + 1 ∧ k + 1 ≤ 3) ↔ k < 3 := by
  have hlt := k.toNat_lt
  rw [UInt32.le_iff_toNat_le, UInt32.le_iff_toNat_le, UInt32.lt_iff_toNat_lt, UInt32.toNat_add]
  show (1 ≤ (k.toNat + 1) % 4294967296 ∧ (k.toNat + 1) % 4294967296 ≤ 3) ↔ k.toNat < 3
  omega

/-- An ApplicationData record moves the stage by its kind. -/
theorem applicationData_stage (hr : r.recordType = .applicationData) (t : UInt64) :
    let s : RunStep := ⟨conn, d, some r⟩
    (processRecord tp d t conn r).state.handshake.stage =
      if s.moves tp last then s.stage tp else conn.state.handshake.stage := by
  intro s
  have hinfo := congrArg HandshakeInfo.stage (@processRecord_handshakeInfo tp d t conn r)
  rw [hr] at hinfo
  simp only at hinfo
  have hmoves : s.moves tp last = (isTls12 conn.state.handshake.tlsVersion ||
      decide (d = .serverToClient) || decide (conn.encryptedRecordsFromServer > 0)) := by
    unfold RunStep.moves RunStep.tls12
    simp only [s, hr]
  have hdata : s.isData := by
    unfold RunStep.isData
    simp [s, hr]
  rw [hinfo, hmoves, RunStep.stage_of_isData hdata]
  show _ = if _ then if isTls12 conn.state.handshake.tlsVersion || conn.sawClientFinishedMarker then _
    else _ else _
  by_cases h12 : isTls12 conn.state.handshake.tlsVersion
  · rw [(applyEncryptedRecord_tls12 h12 d).2, h12]
    rfl
  rw [Bool.eq_false_iff.mpr h12, Bool.false_or, Bool.false_or]
  cases d with
  | serverToClient =>
    rw [(applyEncryptedRecord_server h12).2]
    simp only [fromServer_succ_le_iff]
    rfl
  | clientToServer =>
    rcases conn.fromServer_cases with hnone | hserver
    · rw [applyEncryptedRecord_early h12 hnone, hnone]
      rfl
    · rw [(applyEncryptedRecord_client h12 hserver).2, decide_eq_true hserver]
      rfl

/-- A ChangeCipherSpec moves the stage of the state that waits for it. -/
theorem changeCipherSpec_stage (h : Held tp last conn) (hr : r.recordType = .changeCipherSpec)
    (t : UInt64) :
    let s : RunStep := ⟨conn, d, some r⟩
    (processRecord tp d t conn r).state.handshake.stage =
      if s.moves tp last then s.stage tp else conn.state.handshake.stage := by
  intro s
  have hmoves : s.moves tp last = match d with
      | .clientToServer => last.any fun s' => s'.tells tp 16
      | .serverToClient => last.any RunStep.isClientFinished := by
    unfold RunStep.moves
    cases d <;> simp only [s, hr]
  have hinfo := congrArg HandshakeInfo.stage (@processRecord_handshakeInfo tp d t conn r)
  rw [hr] at hinfo
  simp only at hinfo
  have hccs : s.isCcs d := by
    unfold RunStep.isCcs
    simp [s, hr]
  rw [hinfo, hmoves, RunStep.stage_of_isCcs hccs]
  unfold applyCcs
  cases d with
  | clientToServer =>
    simp only [← h.keyExchange]
    split_ifs <;> rfl
  | serverToClient =>
    simp only [← h.clientFinished]
    split_ifs <;> rfl

/-- Every record of the record loop keeps the stage that of the last step that moved it. -/
theorem Held.processRecord (h : Held tp last conn) (d : Direction) (t : UInt64) (r : TlsRecord) :
    let s : RunStep := ⟨conn, d, some r⟩
    Held tp (if s.moves tp last then some s else last) (processRecord tp d t conn r) := by
  intro s
  have hstage : (SeeHandshake.processRecord tp d t conn r).state.handshake.stage =
      if s.moves tp last then s.stage tp else conn.state.handshake.stage := by
    cases hr : r.recordType with
    | handshake => exact handshake_stage hr t
    | applicationData => exact applicationData_stage hr t
    | changeCipherSpec => exact changeCipherSpec_stage h hr t
    | alert | other v =>
      have hmoves : s.moves tp last = false := by
        unfold RunStep.moves
        simp only [s, hr]
      rw [hmoves, processRecord_of_not_eligible _ _ _ (by simp [hr])]
      rfl
  by_cases hmoves : s.moves tp last
  · rw [if_pos hmoves] at hstage ⊢
    exact hstage
  · rw [if_neg hmoves] at hstage ⊢
    exact h.congr hstage

end Record

section Run

variable {conn : TrackedConnection} {last : Option RunStep}

theorem lastMover_concat (steps : List RunStep) (s : RunStep) :
    lastMover tp (steps ++ [s]) =
      if s.moves tp (lastMover tp steps) then some s else lastMover tp steps := by
  unfold lastMover
  rw [List.foldl_append]
  rfl

/-- The records of the record loop. -/
theorem Held.recordSteps {steps : List RunStep} (h : Held tp (lastMover tp steps) conn) (d : Direction)
    (t : UInt64) (rs : List TlsRecord) :
    Held tp (lastMover tp (steps ++ conn.recordSteps tp d t rs))
      (rs.foldl (SeeHandshake.processRecord tp d t) conn) := by
  induction rs generalizing conn steps with
  | nil =>
    unfold TrackedConnection.recordSteps
    rwa [List.append_nil]
  | cons r rs ih =>
    have hfirst : Held tp (lastMover tp (steps ++ [⟨conn, d, some r⟩]))
        (SeeHandshake.processRecord tp d t conn r) := by
      rw [lastMover_concat]
      exact h.processRecord d t r
    have hrest := ih hfirst
    rwa [List.append_assoc] at hrest

/-- The records of a segment, up to any of them. -/
theorem Held.midway {steps : List RunStep} (h : Held tp (lastMover tp steps) conn) (seg : Segment)
    (rs : List TlsRecord) :
    Held tp (lastMover tp (steps ++ conn.midwaySteps tp seg rs)) (conn.midway tp seg rs) := by
  have hstart : Held tp (lastMover tp steps) (conn.midway tp seg []) := by
    refine h.congr ?_
    unfold TrackedConnection.midway
    rw [List.foldl_nil, TrackedConnection.state_setBuf]
    rfl
  have hloop := hstart.recordSteps seg.direction seg.nowMs rs
  rwa [← TrackedConnection.midway_append, List.nil_append] at hloop

/-- In every run, the stage is that of the last step that moved it. -/
theorem Held.run {steps : List RunStep} (h : Held tp (lastMover tp steps) conn)
    (segs : List Segment) :
    Held tp (lastMover tp (steps ++ conn.steps tp segs)) (conn.run tp segs) := by
  induction segs generalizing conn steps with
  | nil =>
    unfold TrackedConnection.steps
    rwa [List.append_nil]
  | cons seg segs ih =>
    unfold TrackedConnection.steps
    rw [TrackedConnection.run_cons, ← List.append_assoc]
    refine ih ?_
    by_cases hfails : conn.fails seg
    · obtain ⟨text, bytes, -, hstep⟩ := TrackedConnection.step_of_fails tp hfails
      have hmoves : (⟨conn, seg.direction, none⟩ : RunStep).moves tp (lastMover tp steps) = true := rfl
      rw [if_pos hfails, lastMover_concat, hstep, hmoves]
      unfold Held
      rw [TrackedConnection.state_setBuf, if_pos rfl, Option.map_some, RunStep.stage_of_error]
      rfl
    rw [if_neg hfails]
    by_cases hne : seg.payload = []
    · rw [TrackedConnection.step_of_nil hne, TrackedConnection.framed_of_nil hne]
      rwa [List.map_nil, show conn.midwaySteps tp seg [] = [] from rfl, List.append_nil]
    · rw [TrackedConnection.step_of_not_fails hne hfails]
      exact h.midway seg _

theorem Held.created (tp : TlsParser) (key : ConnectionKey) (t : UInt64) (origin : Origin) :
    Held tp (lastMover tp []) (TrackedConnection.created key t origin) :=
  rfl

end Run

end SeeHandshake

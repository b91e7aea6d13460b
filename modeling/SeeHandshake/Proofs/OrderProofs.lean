import SeeHandshake.Proofs.FlightProofs
import SeeHandshake.Proofs.StageProofs
import SeeHandshake.Tracker.Order

/-!
# Proofs: the inferred stages of TLS 1.3 and their order

An encrypted record moves the stage to the one that its direction, its number and the marker of the
client's Finished stand for. Whether that is a step back depends on the stage before: the server's
Finished is inferred from the number of the record alone, so it can come before the client's.
-/

namespace SeeHandshake

open Lib HandshakeStage

variable {tp : TlsParser}

/-! ## Places in the order -/

section Position

variable {stage : HandshakeStage}

theorem position_le_applicationData (h : stage ∈ idle :: ordered) :
    stage.position ordered ≤ applicationData.position ordered := by
  cases stage <;> revert h <;> decide

theorem position_le_serverFinished (h : stage ∈ idle :: ordered) (hne : stage ≠ .applicationData) :
    stage.position ordered ≤ serverFinished.position ordered := by
  cases stage <;> revert h hne <;> decide

theorem position_le_clientFinished (h : stage ∈ idle :: ordered) (hne : stage ≠ .applicationData) :
    stage.position ordered ≤ clientFinished.position ordered ↔ stage ≠ .serverFinished := by
  cases stage <;> revert h hne <;> decide

theorem position_le_certificate (h : stage ∈ idle :: ordered) (hne : stage ≠ .applicationData) :
    stage.position ordered ≤ certificate.position ordered ↔
      stage ≠ .clientFinished ∧ stage ≠ .serverFinished := by
  cases stage <;> revert h hne <;> decide

end Position

/-! ## How the last stage is reached -/

/-- No message moves the stage to the last one. -/
theorem applyHandshakeMessage_of_applicationData {d : Direction} {handshake : HandshakeInfo}
    {msg : TlsMessage} (h : (applyHandshakeMessage tp d handshake msg).stage = .applicationData) :
    applyHandshakeMessage tp d handshake msg = handshake := by
  by_cases hmoves : msg.movesStage d handshake.tlsVersion
  swap
  · exact applyHandshakeMessage_of_not_movesStage hmoves
  rw [applyHandshakeMessage_stage, if_pos hmoves] at h
  cases msg with
  | other => cases hmoves
  | handshake hs =>
    cases hs with
    | other => cases hmoves
    | _ => cases h

theorem applyHandshakeRecord_of_applicationData {d : Direction} {handshake : HandshakeInfo}
    {payload : Bytes} (h : (applyHandshakeRecord tp handshake payload d).stage = .applicationData) :
    applyHandshakeRecord tp handshake payload d = handshake := by
  rw [applyHandshakeRecord_eq_foldl] at h ⊢
  generalize messagesOf tp payload = msgs at h ⊢
  induction msgs using List.reverseRecOn with
  | nil => rfl
  | append_singleton msgs msg ih =>
    rw [List.foldl_append] at h ⊢
    have hlast := applyHandshakeMessage_of_applicationData h
    rw [List.foldl_cons, List.foldl_nil, hlast] at h ⊢
    exact ih h

theorem applyCcs_of_applicationData {d : Direction} {handshake : HandshakeInfo}
    (h : (applyCcs handshake d).stage = .applicationData) : applyCcs handshake d = handshake := by
  unfold applyCcs at h ⊢
  cases d with
  | clientToServer =>
    simp only at h ⊢
    split_ifs at h ⊢ with hstage
    rfl
  | serverToClient =>
    simp only at h ⊢
    split_ifs at h ⊢ with hstage
    rfl

namespace TrackedConnection

/-- The last stage is reached in TLS 1.2 or after the client's Finished only. -/
def DataFounded (conn : TrackedConnection) : Prop :=
  conn.state.handshake.stage = .applicationData →
    isTls12 conn.state.handshake.tlsVersion ∨ conn.sawClientFinishedMarker

namespace DataFounded

variable {conn : TrackedConnection}

theorem congr {conn' : TrackedConnection} (h : DataFounded conn)
    (hstate : conn'.state.handshake = conn.state.handshake) (hflight : conn'.flight = conn.flight) :
    DataFounded conn' := by
  obtain ⟨-, -, hmarker⟩ := flight_eq_iff.mp hflight
  unfold DataFounded
  rw [hstate, hmarker]
  exact h

theorem applyEncryptedRecord (h : DataFounded conn) (d : Direction) :
    DataFounded (applyEncryptedRecord conn d) := by
  intro hstage
  rw [applyEncryptedRecord_tlsVersion]
  by_cases h12 : isTls12 conn.state.handshake.tlsVersion
  · exact Or.inl h12
  refine Or.inr ?_
  cases d with
  | serverToClient =>
    obtain ⟨hflight, hmoved⟩ := applyEncryptedRecord_server h12
    obtain ⟨-, -, hsame⟩ := flight_eq_iff.mp hflight
    rw [hsame]
    rw [hmoved] at hstage
    by_contra hmarker
    rw [if_neg hmarker] at hstage
    split_ifs at hstage
  | clientToServer =>
    rcases conn.fromServer_cases with hnone | hserver
    · rw [applyEncryptedRecord_early h12 hnone] at hstage ⊢
      exact (h hstage).resolve_left h12
    · obtain ⟨-, -, hmarker⟩ := flight_eq_iff.mp (applyEncryptedRecord_client h12 hserver).1
      exact hmarker

theorem processRecord (h : DataFounded conn) (d : Direction) (t : UInt64) (r : TlsRecord) :
    DataFounded (processRecord tp d t conn r) := by
  have hinfo := @processRecord_handshakeInfo tp d t conn r
  have hflight := processRecord_flight tp d t conn r
  cases hr : r.recordType with
  | handshake =>
    simp only [hr] at hinfo hflight
    split_ifs at hinfo
    · exact h.congr hinfo hflight
    · intro hstage
      have happlied := applyHandshakeRecord_of_applicationData (hinfo ▸ hstage)
      exact h.congr (hinfo.trans happlied) hflight hstage
  | applicationData =>
    simp only [hr] at hinfo hflight
    exact (h.applyEncryptedRecord d).congr hinfo hflight
  | changeCipherSpec =>
    simp only [hr] at hinfo hflight
    intro hstage
    have happlied := applyCcs_of_applicationData (hinfo ▸ hstage)
    exact h.congr (hinfo.trans happlied) hflight hstage
  | alert =>
    rw [processRecord_of_not_eligible _ _ _ (by simp [hr])]
    exact h
  | other v =>
    rw [processRecord_of_not_eligible _ _ _ (by simp [hr])]
    exact h

theorem run (tp : TlsParser) (key : ConnectionKey) (t : UInt64) (origin : Origin)
    (segs : List Segment) : DataFounded ((created key t origin).run tp segs) := by
  have hstart : DataFounded (created key t origin) := fun hstage => by cases hstage
  exact run_history tp (P := fun _ conn => DataFounded conn)
    (fun _ _ d t r _ _ h => h.processRecord d t r)
    (fun _ _ _ _ _ hstage => by cases hstage)
    (fun _ _ _ h => h.congr rfl rfl)
    (fun _ _ d _ h => by cases d <;> exact h.congr rfl rfl) segs [] _ hstart

theorem of_reached (h : Reached tp conn) : DataFounded conn := by
  cases h with
  | between key t origin segs => exact run tp key t origin segs
  | within key t origin segs seg a b hframed =>
    have hstart := run tp key t origin segs
    unfold midway
    induction a.map Prod.fst using List.reverseRecOn with
    | nil =>
      cases seg.direction <;> exact hstart.congr rfl rfl
    | append_singleton rs r ih =>
      rw [List.foldl_append]
      exact ih.processRecord seg.direction seg.nowMs r

end DataFounded

/-! ## One encrypted record -/

section Step

variable {conn : TrackedConnection} {x : Sent}

/-- What an encrypted record does to the handshake, the counters and the marker. -/
theorem process_data (tp : TlsParser) (conn : TrackedConnection) (h : x.type = .applicationData) :
    (conn.process tp x).state.handshake = (applyEncryptedRecord conn x.direction).state.handshake ∧
      (conn.process tp x).flight = (applyEncryptedRecord conn x.direction).flight := by
  have hr : x.record.toTlsRecord.recordType = .applicationData := h
  have hinfo := @processRecord_handshakeInfo tp x.direction x.nowMs conn x.record.toTlsRecord
  have hflight := processRecord_flight tp x.direction x.nowMs conn x.record.toTlsRecord
  simp only [hr] at hinfo hflight
  exact ⟨hinfo, hflight⟩

/-- A state of a connection that is not known to be TLS 1.2 or older, at a stage of the diagram. -/
structure OnDiagram (conn : TrackedConnection) : Prop where
  version : ¬ isTls12 conn.state.handshake.tlsVersion
  stage : conn.state.handshake.stage ∈ idle :: ordered
  marker : conn.state.handshake.stage = .applicationData → conn.sawClientFinishedMarker

theorem OnDiagram.process (h : OnDiagram conn) (hdata : x.type = .applicationData) :
    OnDiagram (conn.process tp x) := by
  obtain ⟨hinfo, hflight⟩ := process_data tp conn hdata
  obtain ⟨h12, hstage, hmarker⟩ := h
  have h12' : ¬ isTls12 (conn.process tp x).state.handshake.tlsVersion := by
    rw [hinfo, applyEncryptedRecord_tlsVersion]
    exact h12
  have hfounded : DataFounded (conn.process tp x) := by
    have hbefore : DataFounded conn := fun heq => Or.inr (hmarker heq)
    exact (hbefore.applyEncryptedRecord x.direction).congr hinfo hflight
  refine ⟨h12', ?_, fun heq => (hfounded heq).resolve_left h12'⟩
  rw [hinfo]
  cases x.direction with
  | serverToClient =>
    rw [(applyEncryptedRecord_server h12).2]
    split_ifs <;> decide
  | clientToServer =>
    rcases conn.fromServer_cases with hnone | hserver
    · rw [applyEncryptedRecord_early h12 hnone]
      exact hstage
    · rw [(applyEncryptedRecord_client h12 hserver).2]
      split_ifs <;> decide

/-- The server's next record is one of its first three. -/
theorem firstThree_iff (n : UInt32) : (1 ≤ n + 1 ∧ n + 1 ≤ 3) ↔ ¬ 3 ≤ n := by
  have hlt := n.toNat_lt
  have hthree : (3 : UInt32).toNat = 3 := rfl
  simp only [UInt32.le_iff_toNat_le, UInt32.toNat_add, UInt32.toNat_one, hthree]
  omega

/-- An encrypted record moves the stage backwards just when it is out of order. -/
theorem movesOn_iff_inOrder (h : OnDiagram conn) (hdata : x.type = .applicationData) :
    MovesOn tp ordered conn x ↔ InOrder conn x := by
  obtain ⟨h12, hstage, hmarker⟩ := h
  unfold MovesOn InOrder
  rw [(process_data tp conn hdata).1]
  by_cases hseen : conn.sawClientFinishedMarker
  · refine iff_of_true ?_ (Or.inl hseen)
    cases x.direction with
    | serverToClient =>
      rw [(applyEncryptedRecord_server h12).2, if_pos hseen]
      exact position_le_applicationData hstage
    | clientToServer =>
      rcases conn.fromServer_cases with hnone | hserver
      · rw [applyEncryptedRecord_early h12 hnone]
      · rw [(applyEncryptedRecord_client h12 hserver).2, if_pos hseen]
        exact position_le_applicationData hstage
  -- Without the marker, the stage is not the last one, and the record can move it backwards.
  have hne : conn.state.handshake.stage ≠ .applicationData := mt hmarker hseen
  rw [or_iff_right hseen]
  cases x.direction with
  | serverToClient =>
    simp only
    rw [(applyEncryptedRecord_server h12).2, if_neg hseen]
    by_cases hcount : 3 ≤ conn.encryptedRecordsFromServer
    · rw [if_neg fun hfirst => (firstThree_iff _).mp hfirst hcount]
      exact iff_of_true (position_le_serverFinished hstage hne) (Or.inl hcount)
    · rw [if_pos ((firstThree_iff _).mpr hcount), or_iff_right hcount]
      exact position_le_certificate hstage hne
  | clientToServer =>
    simp only
    rcases conn.fromServer_cases with hnone | hserver
    · rw [applyEncryptedRecord_early h12 hnone]
      exact iff_of_true le_rfl (Or.inl hnone)
    · rw [(applyEncryptedRecord_client h12 hserver).2, if_neg hseen,
        or_iff_right (UInt32.pos_iff_ne_zero.mp hserver)]
      exact position_le_clientFinished hstage hne

end Step

/-- From every state that a run reaches, on a connection that is not known to be TLS 1.2 or older and at
a stage of the diagram, the stage moves backwards at none of a sequence of encrypted records just when
all of them are in order. -/
theorem movesOn_iff_allInOrder {conn : TrackedConnection} {xs : List Sent} (hreach : Reached tp conn)
    (h12 : ¬ isTls12 conn.state.handshake.tlsVersion)
    (hstage : conn.state.handshake.stage ∈ idle :: ordered)
    (hdata : ∀ x ∈ xs, x.type = .applicationData) :
    AllSteps (process tp) (MovesOn tp ordered) conn xs ↔ AllSteps (process tp) InOrder conn xs := by
  have hmarker : conn.state.handshake.stage = .applicationData → conn.sawClientFinishedMarker :=
    fun heq => (DataFounded.of_reached hreach heq).resolve_left h12
  have keep : ∀ conn (x : Sent), OnDiagram conn → x.type = .applicationData →
      OnDiagram (conn.process tp x) := fun _ _ h hx => h.process hx
  have agree : ∀ conn (x : Sent), OnDiagram conn → x.type = .applicationData →
      (MovesOn tp ordered conn x ↔ InOrder conn x) := fun _ _ h hx => movesOn_iff_inOrder h hx
  exact allSteps_congr keep agree ⟨h12, hstage, hmarker⟩ hdata

end TrackedConnection

/-- The server's encrypted flight in four records, and the Finished of the client. -/
def Reference.flight13 (n : ℕ) : List Sent :=
  List.replicate n (.of .serverToClient 23 [7]) ++ [.of .clientToServer 23 [7]]

/-- A connection of TLS 1.3 after the hellos. -/
def Reference.greeted13 : TrackedConnection :=
  (TrackedConnection.created key 0 .unknown).run parser (hellos13.map Sent.segment)

theorem Reference.data_flight13 (n : ℕ) : ∀ x ∈ flight13 n, x.type = .applicationData := by
  intro x hx
  rcases List.mem_append.mp hx with hx | hx
  · rw [List.eq_of_mem_replicate hx]
    rfl
  · rw [List.mem_singleton.mp hx]
    rfl

/-- Three records of the server keep the order. -/
theorem movesOn_three :
    AllSteps (TrackedConnection.process Reference.parser)
      (TrackedConnection.MovesOn Reference.parser ordered) Reference.greeted13
      (Reference.flight13 3) :=
  (TrackedConnection.movesOn_iff_allInOrder (.between Reference.key 0 .unknown _) (by decide +kernel)
    (by decide +kernel) (Reference.data_flight13 3)).mpr (by decide +kernel)

/-- The fourth record of the server is taken for its Finished, before the client's. -/
theorem not_movesOn_four :
    ¬ ∀ conn xs, TrackedConnection.Reached Reference.parser conn →
      ¬ isTls12 conn.state.handshake.tlsVersion → conn.state.handshake.stage ≠ .errored →
      conn.state.handshake.stage ∈ idle :: ordered → (∀ x ∈ xs, x.type = .applicationData) →
      AllSteps (TrackedConnection.process Reference.parser)
        (TrackedConnection.MovesOn Reference.parser ordered) conn xs := by
  intro h
  have hmoves := h Reference.greeted13 (Reference.flight13 4) (.between Reference.key 0 .unknown _)
    (by decide +kernel) (by decide +kernel) (by decide +kernel) (Reference.data_flight13 4)
  exact absurd hmoves (by decide +kernel)

end SeeHandshake

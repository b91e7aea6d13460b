import Mathlib.Data.List.Induction
import SeeHandshake.Lib.Simulation
import SeeHandshake.Parser.Reference
import SeeHandshake.Proofs.HandshakeProofs
import SeeHandshake.Proofs.SegmentProofs

/-!
# Proofs: fatal errors

Nothing stops an errored connection from framing further segments; it stays errored as long as none of
them completes a record that moves the stage.
-/

namespace SeeHandshake

open Lib

variable {tp : TlsParser}

/-! ## The error is never cleared -/

theorem processRecord_error (d : Direction) (t : UInt64) (conn : TrackedConnection) (r : TlsRecord) :
    (processRecord tp d t conn r).state.handshake.error = conn.state.handshake.error :=
  congrArg Prod.fst (processRecord_unwritten d t conn r)

namespace TrackedConnection

variable {conn : TrackedConnection} {seg : Segment}

theorem foldl_processRecord_error (d : Direction) (t : UInt64) (rs : List TlsRecord)
    (conn : TrackedConnection) :
    (rs.foldl (processRecord tp d t) conn).state.handshake.error = conn.state.handshake.error := by
  induction rs generalizing conn with
  | nil => rfl
  | cons r rs ih => rw [List.foldl_cons, ih, processRecord_error]

theorem step_error (tp : TlsParser) (h : ¬ conn.fails seg) :
    (conn.step tp seg).state.handshake.error = conn.state.handshake.error := by
  by_cases hne : seg.payload = []
  · rw [step_of_nil hne]
  · rw [step_of_not_fails hne h, foldl_processRecord_error, state_setBuf]
    rfl

theorem step_of_fails_handshake (tp : TlsParser) (h : conn.fails seg) :
    (conn.step tp seg).state.handshake.error.isSome ∧
      (conn.step tp seg).state.handshake.stage = .errored ∧
      (conn.step tp seg).state.records = conn.state.records := by
  obtain ⟨text, bytes, -, hstep⟩ := step_of_fails tp h
  rw [hstep, state_setBuf]
  exact ⟨rfl, rfl, rfl⟩

/-! ## Harmless segments -/

/-- A record that does not move the stage of an errored connection leaves its handshake alone. -/
theorem processRecord_of_not_movesStage {d : Direction} {r : TlsRecord} (t : UInt64)
    (hstage : conn.state.handshake.stage = .errored) (h : ¬ conn.movesStage tp d r) :
    (processRecord tp d t conn r).state.handshake = conn.state.handshake := by
  rw [processRecord_handshakeInfo]
  unfold movesStage at h
  cases hr : r.recordType with
  | handshake =>
    rw [hr] at h
    by_cases hccs : conn.ccsSeen d
    · simp only [if_pos hccs]
    · simp only [if_neg hccs]
      rw [applyHandshakeRecord_eq_foldl]
      refine foldl_applyHandshakeMessage_of_not_movesStage fun msg hmem hmoves => ?_
      exact h ⟨hccs, msg, hmem, hmoves⟩
  | applicationData =>
    rw [hr] at h
    simp only [not_or] at h
    obtain ⟨h1, h2, h3⟩ := h
    simp only
    unfold applyEncryptedRecord
    rw [if_neg h1, if_neg h2, if_neg h3]
  | changeCipherSpec =>
    simp only [applyCcs]
    cases d <;> simp [hstage]
  | alert => rfl
  | other v => rfl

/-- A segment that completes a single record is harmless if the record is. -/
theorem Harmless.of_single {failed : Direction → Prop} {f : TlsRecord × Bytes}
    (hframed : conn.framed seg = [f])
    (hmoves : ¬ (conn.midway tp seg []).movesStage tp seg.direction f.1)
    (hskip : failed seg.direction → ¬ f.1.recordType.eligible) : conn.Harmless tp failed seg := by
  refine ⟨fun a r bytes b h => ?_, fun hfailed g hg => ?_⟩
  · rw [hframed] at h
    cases a with
    | nil =>
      obtain ⟨rfl, -⟩ := List.cons.inj h
      exact hmoves
    | cons g a => simp at h
  · rw [hframed] at hg
    obtain rfl := List.mem_singleton.mp hg
    exact hskip hfailed

/-- A harmless segment leaves the handshake of an errored connection alone. -/
theorem step_of_harmless_handshake {failed : Direction → Prop} (h : conn.Harmless tp failed seg)
    (hf : ¬ conn.fails seg) (hstage : conn.state.handshake.stage = .errored) :
    (conn.step tp seg).state.handshake = conn.state.handshake := by
  by_cases hne : seg.payload = []
  · rw [step_of_nil hne]
  -- The handshake is the same after every initial part `a` of the frames.
  have hmid : ∀ b a, conn.framed seg = a ++ b →
      (conn.midway tp seg (a.map Prod.fst)).state.handshake = conn.state.handshake →
      (conn.midway tp seg ((a ++ b).map Prod.fst)).state.handshake = conn.state.handshake := by
    intro b
    induction b with
    | nil => intro a _ ha; simpa using ha
    | cons f b ih =>
      intro a hframed ha
      have hnext : (conn.midway tp seg ((a ++ [f]).map Prod.fst)).state.handshake =
          conn.state.handshake := by
        rw [List.map_append, midway_append, List.map_cons, List.map_nil, List.foldl_cons,
          List.foldl_nil, processRecord_of_not_movesStage _ (by rw [ha]; exact hstage)
            (h.moves a f.1 f.2 b hframed), ha]
      have hsplit : a ++ f :: b = (a ++ [f]) ++ b := by simp
      rw [hsplit]
      exact ih (a ++ [f]) (by rw [hframed, hsplit]) hnext
  rw [step_of_not_fails hne hf]
  have hstart : (conn.midway tp seg (([] : List (TlsRecord × Bytes)).map Prod.fst)).state.handshake =
      conn.state.handshake := by
    show ((conn.touched seg.nowMs).setBuf seg.direction (conn.peeled seg).rest).state.handshake = _
    rw [state_setBuf]
    rfl
  exact hmid (conn.framed seg) [] rfl hstart

theorem foldl_processRecord_of_not_eligible (d : Direction) (t : UInt64) {rs : List TlsRecord}
    (h : ∀ r ∈ rs, ¬ r.recordType.eligible) (conn : TrackedConnection) :
    rs.foldl (processRecord tp d t) conn = conn := by
  induction rs with
  | nil => rfl
  | cons r rs ih =>
    rw [List.foldl_cons, processRecord_of_not_eligible _ _ _ (h r (List.mem_cons_self ..))]
    exact ih fun x hx => h x (List.mem_cons_of_mem _ hx)

/-- A segment that completes only records that the record loop passes over adds no event. -/
theorem step_of_skipped_records (h : ∀ f ∈ conn.framed seg, ¬ f.1.recordType.eligible) :
    (conn.step tp seg).state.records = conn.state.records := by
  by_cases hf : conn.fails seg
  · exact (step_of_fails_handshake tp hf).2.2
  by_cases hne : seg.payload = []
  · rw [step_of_nil hne]
  rw [step_of_not_fails hne hf, foldl_processRecord_of_not_eligible, state_setBuf]
  · rfl
  · intro r hr
    obtain ⟨f, hmem, rfl⟩ := List.mem_map.mp hr
    exact h f hmem

/-! ## Runs -/

theorem not_failedIn_nil (start : TrackedConnection) (d : Direction) : ¬ start.FailedIn tp [] d :=
  fun ⟨a, seg, b, h, _⟩ => by simp at h

theorem failedIn_concat (start : TrackedConnection) (segs : List Segment) (seg : Segment)
    (d : Direction) :
    start.FailedIn tp (segs ++ [seg]) d ↔
      start.FailedIn tp segs d ∨ ((start.run tp segs).fails seg ∧ seg.direction = d) :=
  exists_split_concat

/-- What a run keeps when every segment after an error is harmless. -/
structure ErrorInv (tp : TlsParser) (start : TrackedConnection) (segs : List Segment) : Prop where
  stage : (start.run tp segs).state.handshake.error.isSome →
    (start.run tp segs).state.handshake.stage = .errored
  error : ∀ d, start.FailedIn tp segs d → (start.run tp segs).state.handshake.error.isSome

theorem ErrorInv.step {start : TrackedConnection} {segs : List Segment} (h : ErrorInv tp start segs)
    (hok : (start.run tp segs).state.handshake.error.isSome →
      (start.run tp segs).Harmless tp (start.FailedIn tp segs) seg) :
    ErrorInv tp start (segs ++ [seg]) := by
  by_cases hf : (start.run tp segs).fails seg
  · obtain ⟨herror, hstage, -⟩ := step_of_fails_handshake tp hf
    rw [← run_concat] at herror hstage
    exact ⟨fun _ => hstage, fun _ _ => herror⟩
  · have herror := step_error tp hf
    rw [← run_concat] at herror
    refine ⟨fun hsome => ?_, fun d hd => ?_⟩
    · rw [herror] at hsome
      rw [run_concat, step_of_harmless_handshake (hok hsome) hf (h.stage hsome)]
      exact h.stage hsome
    · rw [herror]
      rcases (failedIn_concat start segs seg d).mp hd with hd | hd
      · exact h.error d hd
      · exact absurd hd.1 hf

theorem errorInv_run (start : TrackedConnection) (hstart : start.state.handshake.error = none)
    (segs : List Segment)
    (hok : ∀ a seg b, segs = a ++ seg :: b → (start.run tp a).state.handshake.error.isSome →
      (start.run tp a).Harmless tp (start.FailedIn tp a) seg) :
    ErrorInv tp start segs := by
  induction segs using List.reverseRecOn with
  | nil =>
    refine ⟨fun h => ?_, fun d hd => absurd hd (not_failedIn_nil start d)⟩
    rw [run_nil, hstart] at h
    exact Bool.noConfusion h
  | append_singleton segs seg ih =>
    have hseg := hok segs seg [] rfl
    exact (ih fun a s b heq => hok a s (b ++ [seg]) (by rw [heq]; simp)).step hseg

/-- An error is never cleared. -/
theorem run_error_isSome (segs : List Segment) (h : conn.state.handshake.error.isSome) :
    (conn.run tp segs).state.handshake.error.isSome := by
  induction segs generalizing conn with
  | nil => exact h
  | cons seg segs ih =>
    refine ih ?_
    by_cases hf : conn.fails seg
    · exact (step_of_fails_handshake tp hf).1
    · rw [step_error tp hf]
      exact h

end TrackedConnection

/-- Errors are terminal as long as the segments after them are harmless: in a run from a new
connection in which every segment after an error completes no record that moves the stage, and in a
failed direction only records that the record loop passes over, the stage stays errored once an error
is set, and a failed direction adds no event and changes no field but the text of the error. -/
theorem errored_of_harmless (tp : TlsParser) (key : ConnectionKey) (t : UInt64) (origin : Origin)
    (segs : List Segment)
    (hok : ∀ a seg b, segs = a ++ seg :: b →
      ((TrackedConnection.created key t origin).run tp a).state.handshake.error.isSome →
      ((TrackedConnection.created key t origin).run tp a).Harmless tp
        ((TrackedConnection.created key t origin).FailedIn tp a) seg) :
    let start := TrackedConnection.created key t origin
    (∀ a b c, segs = a ++ b ++ c → (start.run tp a).state.handshake.error.isSome →
      (start.run tp (a ++ b)).state.handshake.stage = .errored) ∧
    (∀ a seg b, segs = a ++ seg :: b → start.FailedIn tp a seg.direction →
      (start.run tp (a ++ [seg])).state.records = (start.run tp a).state.records ∧
      (start.run tp (a ++ [seg])).state.handshake.withoutError =
        (start.run tp a).state.handshake.withoutError) := by
  intro start
  have hinv : ∀ a b, segs = a ++ b → TrackedConnection.ErrorInv tp start a := by
    intro a b hab
    refine TrackedConnection.errorInv_run start rfl a fun a' seg b' heq => ?_
    exact hok a' seg (b' ++ b) (by rw [hab, heq]; simp)
  refine ⟨fun a b c heq hsome => ?_, fun a seg b heq hfailed => ?_⟩
  · refine (hinv (a ++ b) c heq).stage ?_
    rw [TrackedConnection.run_append]
    exact TrackedConnection.run_error_isSome b hsome
  · have hbefore := hinv a (seg :: b) heq
    have hsome := hbefore.error _ hfailed
    have hstage := hbefore.stage hsome
    have hharm := hok a seg b heq hsome
    rw [TrackedConnection.run_concat]
    refine ⟨TrackedConnection.step_of_skipped_records (hharm.skipped hfailed), ?_⟩
    by_cases hf : (start.run tp a).fails seg
    · obtain ⟨text, bytes, -, hstep⟩ := TrackedConnection.step_of_fails tp hf
      rw [hstep, TrackedConnection.state_setBuf]
      show { (start.run tp a).state.handshake with stage := .errored, error := none } = _
      rw [← hstage]
      rfl
    · rw [TrackedConnection.step_of_harmless_handshake hharm hf hstage]

/-- After an oversized header of the server, its alert and the early data of the client: the one is passed
over, and the other moves no stage. -/
theorem errored_of_harmless_alert :
    let start := TrackedConnection.created Reference.key 0 .unknown
    let bad : Segment := ⟨.serverToClient, [22, 3, 3, 0xFF, 0xFF], 0⟩
    let alert : Sent := .of .serverToClient 21 [2, 22]
    let early : Sent := .of .clientToServer 23 [7]
    (start.run Reference.parser [bad, alert.segment, early.segment]).state.handshake.stage = .errored ∧
      (start.run Reference.parser [bad, alert.segment]).state.records =
        (start.run Reference.parser [bad]).state.records := by
  intro start bad alert early
  have halert : (start.run Reference.parser [bad]).framed alert.segment =
      [(alert.record.toTlsRecord, alert.record.encode)] :=
    TrackedConnection.framed_segment (by decide)
  have hearly : (start.run Reference.parser [bad, alert.segment]).framed early.segment =
      [(early.record.toTlsRecord, early.record.encode)] :=
    TrackedConnection.framed_segment (by decide)
  have hfails : start.fails bad := ⟨by decide, Or.inr (by decide)⟩
  have hok : ∀ a seg b, [bad, alert.segment, early.segment] = a ++ seg :: b →
      (start.run Reference.parser a).state.handshake.error.isSome →
      (start.run Reference.parser a).Harmless Reference.parser
        (start.FailedIn Reference.parser a) seg := by
    intro a seg b heq hsome
    rcases a with _ | ⟨x, _ | ⟨y, _ | ⟨z, a⟩⟩⟩
    · exact absurd hsome (by decide)
    · obtain ⟨hx, heq⟩ := List.cons.inj heq
      obtain ⟨rfl, -⟩ := List.cons.inj heq
      rw [← hx]
      exact .of_single halert (fun hmoves => hmoves) fun _ => by decide
    · obtain ⟨hx, heq⟩ := List.cons.inj heq
      obtain ⟨hy, heq⟩ := List.cons.inj heq
      obtain ⟨rfl, -⟩ := List.cons.inj heq
      rw [← hx, ← hy]
      have hstays : ¬ ((start.run Reference.parser [bad, alert.segment]).midway Reference.parser
          early.segment []).movesStage Reference.parser .clientToServer early.record.toTlsRecord := by
        rintro (h | h | h)
        · exact absurd h (by decide)
        · cases h
        · exact absurd h (by decide)
      refine .of_single hearly hstays fun hfailed => ?_
      rw [show [bad, alert.segment] = [bad] ++ [alert.segment] from rfl,
        TrackedConnection.failedIn_concat, show [bad] = [] ++ [bad] from rfl,
        TrackedConnection.failedIn_concat] at hfailed
      rcases hfailed with (hfailed | ⟨-, hd⟩) | ⟨-, hd⟩
      · exact absurd hfailed (TrackedConnection.not_failedIn_nil start _)
      · cases hd
      · cases hd
    · simp at heq
  obtain ⟨hstage, hskip⟩ := errored_of_harmless Reference.parser Reference.key 0 .unknown
    [bad, alert.segment, early.segment] hok
  exact ⟨hstage [bad] [alert.segment, early.segment] [] rfl (by decide),
    (hskip [bad] alert.segment [early.segment] rfl ⟨[], bad, [], rfl, hfails, rfl⟩).1⟩

/-- A server that sends an oversized header and then an ApplicationData record. -/
def resumedStream : List Segment :=
  [⟨.serverToClient, [22, 3, 3, 0xFF, 0xFF], 0⟩, ⟨.serverToClient, [23, 3, 3, 0, 1, 7], 0⟩]

/-- The errored connection frames the second segment: it leaves the errored stage, notes a hidden
certificate and logs the record. -/
theorem error_not_terminal :
    let start := TrackedConnection.created Reference.key 0 .unknown
    let failed := start.run Reference.parser (resumedStream.take 1)
    let resumed := start.run Reference.parser resumedStream
    failed.state.handshake.error.isSome ∧ failed.state.handshake.stage = .errored ∧
      failed.state.records = [] ∧
      resumed.state.handshake.error.isSome ∧ resumed.state.handshake.stage = .certificate ∧
      resumed.state.handshake.certificateSubject = some "encrypted (TLS 1.3)" ∧
      resumed.state.records.length = 1 := by
  decide

end SeeHandshake

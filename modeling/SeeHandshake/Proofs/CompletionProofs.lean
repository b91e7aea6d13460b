import SeeHandshake.Proofs.FullHandshakeProofs
import SeeHandshake.Proofs.MoveProofs
import SeeHandshake.Tracker.Completion

/-!
# Proofs: which completions are recognised

A ChangeCipherSpec moves the stage from the one that waits for it only. What the two of them make of the
stage is therefore decided by the stage before the first one and by the messages in between.
-/

namespace SeeHandshake

open Lib HandshakeStage

variable {tp : TlsParser}

/-! ## Messages in between -/

/-- The last move is the stage of a message that moves the stage. -/
theorem lastMove_eq_some {d : Direction} {version : Option TlsVersion} {msgs : List TlsMessage}
    {stage : HandshakeStage} (h : lastMove tp d version msgs = some stage) :
    ∃ version' msg, TlsMessage.movesStage d version' msg ∧ msg.stage? = some stage := by
  rw [lastMove_eq] at h
  obtain ⟨msg, hlast, hstage⟩ := Option.bind_eq_some_iff.mp h
  obtain ⟨version', hmoves⟩ := lastMoving_eq_some hlast
  exact ⟨version', msg, hmoves, hstage⟩

/-- No message of the server stands for the key exchange of the client or for a completed handshake. -/
theorem lastMove_server {version : Option TlsVersion} {msgs : List TlsMessage}
    {stage : HandshakeStage} (h : lastMove tp .serverToClient version msgs = some stage) :
    stage ∉ clientKeyExchange :: finishedStages := by
  obtain ⟨version', msg, hmoves, hstage⟩ := lastMove_eq_some h
  cases msg with
  | other => cases hmoves
  | handshake hs =>
    cases hs with
    | clientHello | clientKeyExchange | other => cases hmoves
    | serverHello | certificate | serverKeyExchange | serverDone =>
      obtain rfl := Option.some.inj hstage
      decide

/-- No message of the client stands for a completed handshake. -/
theorem lastMove_client {version : Option TlsVersion} {msgs : List TlsMessage}
    {stage : HandshakeStage} (h : lastMove tp .clientToServer version msgs = some stage) :
    stage ∉ finishedStages := by
  obtain ⟨version', msg, hmoves, hstage⟩ := lastMove_eq_some h
  cases msg with
  | other => cases hmoves
  | handshake hs =>
    cases hs with
    | serverHello | other => cases hmoves
    | certificate => cases hmoves
    | clientHello | serverKeyExchange | serverDone | clientKeyExchange =>
      obtain rfl := Option.some.inj hstage
      decide

/-- Handshake records of a direction apply the messages that are read off them. -/
theorem foldl_process_handshake (tp : TlsParser) (conn : TrackedConnection) {d : Direction} {xs : List Sent}
    (hxs : ∀ x ∈ xs, x.Is d .handshake) :
    (xs.foldl (TrackedConnection.process tp) conn).state.handshake =
        (conn.messagesRead tp d xs).foldl (applyHandshakeMessage tp d) conn.state.handshake ∧
      (xs.foldl (TrackedConnection.process tp) conn).ccsSeen = conn.ccsSeen := by
  induction xs generalizing conn with
  | nil =>
    refine ⟨?_, rfl⟩
    unfold TrackedConnection.messagesRead
    split_ifs <;> rfl
  | cons x xs ih =>
    obtain ⟨hinfo, hseen⟩ := process_handshake tp conn (hxs x List.mem_cons_self)
    obtain ⟨hrest, hsame⟩ := ih (conn.process tp x) fun y hy => hxs y (List.mem_cons_of_mem x hy)
    refine ⟨?_, hsame.trans hseen⟩
    rw [List.foldl_cons, hrest, hinfo]
    unfold TrackedConnection.messagesRead
    rw [hseen]
    split_ifs with hccs
    · rfl
    · rw [List.flatMap_cons, List.foldl_append, applyHandshakeRecord_eq_foldl]

/-! ## The two ChangeCipherSpecs -/

/-- What a ChangeCipherSpec makes of a stage. -/
def afterCcs (d : Direction) (stage : HandshakeStage) : HandshakeStage :=
  match d with
  | .clientToServer => if stage = .clientKeyExchange then .clientFinished else stage
  | .serverToClient => if stage = .clientFinished then .serverFinished else stage

theorem applyCcs_eq (handshake : HandshakeInfo) (d : Direction) :
    applyCcs handshake d = { handshake with stage := afterCcs d handshake.stage } := by
  unfold applyCcs afterCcs
  cases d with
  | clientToServer =>
    simp only
    split_ifs <;> rfl
  | serverToClient =>
    simp only
    split_ifs <;> rfl

/-- A ChangeCipherSpec and the encrypted Finished behind it. -/
theorem process_finish (tp : TlsParser) (conn : TrackedConnection) {d : Direction} {ccs finished : Sent}
    (hccs : ccs.Is d .changeCipherSpec) (hfinished : finished.Is d .handshake) :
    ((conn.process tp ccs).process tp finished).state.handshake =
        { conn.state.handshake with stage := afterCcs d conn.state.handshake.stage } ∧
      ((conn.process tp ccs).process tp finished).ccsSeen =
        fun d' => conn.ccsSeen d' || decide (d' = d) := by
  obtain ⟨hinfo, hseen⟩ := process_ccs tp conn hccs
  obtain ⟨hinfo', hseen'⟩ := process_handshake tp (conn.process tp ccs) hfinished
  have hmarked : (conn.process tp ccs).ccsSeen d := by
    rw [hseen]
    simp
  rw [if_pos hmarked, hinfo, applyCcs_eq] at hinfo'
  exact ⟨hinfo', hseen'.trans hseen⟩

theorem messagesRead_congr {conn conn' : TrackedConnection} {d : Direction}
    (h : conn'.ccsSeen d = conn.ccsSeen d) (xs : List Sent) :
    conn'.messagesRead tp d xs = conn.messagesRead tp d xs := by
  unfold TrackedConnection.messagesRead
  rw [h]

/-- The stage after the whole completion. -/
theorem stage_completion (conn : TrackedConnection) (c : Completion) :
    (c.records.foldl (TrackedConnection.process tp) conn).state.handshake.stage =
      afterCcs c.first.flip ((c.move tp conn).getD
        (afterCcs c.first (c.before tp conn).state.handshake.stage)) := by
  -- The states before the first ChangeCipherSpec, after the first Finished, and before the second
  -- ChangeCipherSpec.
  set before := c.before tp conn with hbefore
  set middle := (before.process tp c.firstCcs).process tp c.firstFinished with hmiddle
  set later := c.between.foldl (TrackedConnection.process tp) middle with hlater
  obtain ⟨hfirst, hseen⟩ := process_finish tp before c.firstCcs_is c.firstFinished_is
  obtain ⟨hbetween, -⟩ := foldl_process_handshake tp middle c.between_is
  obtain ⟨hsecond, -⟩ := process_finish tp later c.secondCcs_is c.secondFinished_is
  have hunseen : middle.ccsSeen c.first.flip = before.ccsSeen c.first.flip := by
    rw [hmiddle, hseen]
    cases c.first <;> simp [Direction.flip]
  have hrun : c.records.foldl (TrackedConnection.process tp) conn =
      (later.process tp c.secondCcs).process tp c.secondFinished := by
    unfold Completion.records
    rw [List.foldl_append, List.foldl_cons, List.foldl_cons, List.foldl_append]
    rfl
  rw [messagesRead_congr hunseen] at hbetween
  have hstage := (@foldl_applyHandshakeMessage tp c.first.flip
    (before.messagesRead tp c.first.flip c.between) middle.state.handshake).2
  rw [← hbetween, ← hlater, hmiddle, hfirst] at hstage
  rw [hrun, hsecond]
  exact congrArg (afterCcs c.first.flip) hstage

/-! ## When a completion is recognised -/

theorem afterCcs_mem_iff {d : Direction} {stage : HandshakeStage} :
    afterCcs d.flip (afterCcs d stage) ∈ finishedStages ↔
      stage ∈ clientKeyExchange :: finishedStages := by
  cases d <;> cases stage <;> decide

theorem afterCcs_server_mem_iff {stage : HandshakeStage} :
    afterCcs .serverToClient stage ∈ finishedStages ↔ stage ∈ finishedStages := by
  cases stage <;> decide

theorem afterCcs_client_mem_iff {stage : HandshakeStage} :
    afterCcs .clientToServer stage ∈ finishedStages ↔
      stage = .clientKeyExchange ∨ stage ∈ finishedStages := by
  cases stage <;> decide

/-- The stage after both sides have sent their ChangeCipherSpec and their Finished is one of a completed
handshake just when the completion is recognised: from every state, for every order of the two, and
whatever plaintext messages come before and in between. -/
theorem stage_finished_iff (tp : TlsParser) (conn : TrackedConnection) (c : Completion) :
    (c.records.foldl (TrackedConnection.process tp) conn).state.handshake.stage ∈ finishedStages ↔
      c.Recognised tp conn := by
  rw [stage_completion]
  unfold Completion.Recognised
  cases hmove : c.move tp conn with
  | none =>
    rw [Option.getD_none, afterCcs_mem_iff]
    constructor
    · exact fun h => Or.inl ⟨rfl, h⟩
    · rintro (⟨-, h⟩ | ⟨-, h⟩)
      · exact h
      · cases h
  | some stage =>
    rw [Option.getD_some]
    unfold Completion.move at hmove
    cases hd : c.first with
    | clientToServer =>
      rw [hd] at hmove
      have hno := lastMove_server hmove
      refine iff_of_false ?_ ?_
      · rw [Direction.flip, afterCcs_server_mem_iff]
        exact fun h => hno (List.mem_cons_of_mem _ h)
      · rintro (⟨h, -⟩ | ⟨h, -⟩) <;> cases h
    | serverToClient =>
      rw [hd] at hmove
      have hno := lastMove_client hmove
      rw [Direction.flip, afterCcs_client_mem_iff, or_iff_left hno]
      constructor
      · exact fun h => Or.inr ⟨rfl, congrArg some h⟩
      · rintro (⟨h, -⟩ | ⟨-, h⟩)
        · cases h
        · exact Option.some.inj h

namespace Reference

/-- The end of an abbreviated handshake: the server is the first. -/
def abbreviated : Completion where
  first := .serverToClient
  plaintext := []
  firstCcs := .of .serverToClient 20 [1]
  firstFinished := .of .serverToClient 22 [7]
  between := []
  secondCcs := .of .clientToServer 20 [1]
  secondFinished := .of .clientToServer 22 [7]
  plaintext_type := List.forall_mem_nil _
  firstCcs_is := ccs_is .serverToClient
  firstFinished_is := finished_is .serverToClient
  between_is := List.forall_mem_nil _
  secondCcs_is := ccs_is .clientToServer
  secondFinished_is := finished_is .clientToServer

/-- A connection of TLS 1.2 after the hellos. -/
def greeted12 : TrackedConnection :=
  (TrackedConnection.created key 0 .unknown).run parser
    ([.of .clientToServer 22 clientHello13, .of .serverToClient 22 serverHello12].map Sent.segment)

end Reference

/-- The completion of an abbreviated handshake leaves the stage at the ServerHello. -/
theorem not_finished_abbreviated :
    ¬ ∀ (conn : TrackedConnection) (c : Completion),
      TrackedConnection.Reached Reference.parser conn → isTls12 conn.state.handshake.tlsVersion →
      conn.state.handshake.cipherSuiteSelected.isSome →
      (c.records.foldl (TrackedConnection.process Reference.parser) conn).state.handshake.stage ∈
        finishedStages := by
  intro h
  have hfinished := h Reference.greeted12 Reference.abbreviated
    (.between Reference.key 0 .unknown _) (by decide +kernel) (by decide +kernel)
  exact absurd hfinished (by decide +kernel)

end SeeHandshake

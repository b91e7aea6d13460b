import SeeHandshake.Lib.Fuel
import SeeHandshake.Proofs.TrackerProofs
import SeeHandshake.Tracker.Errors

/-!
# Proofs: what a record does to the handshake

A Handshake record is a fold over its messages; and no record writes the error or the origin.
-/

namespace SeeHandshake

open Lib

variable {tp : TlsParser}

/-! ## Messages -/

/-- One turn of the loop over the messages of a record. -/
def applyHandshakeTurn (tp : TlsParser) (direction : Direction)
    (loop : HandshakeInfo × Bytes → HandshakeInfo) (s : HandshakeInfo × Bytes) : HandshakeInfo :=
  if s.2.isEmpty then s.1
  else
    match tp.parseTlsMessageHandshake s.2 with
    | .ok (rest, msg) => loop (applyHandshakeMessage tp direction s.1 msg, rest)
    | .error _ => s.1

theorem TlsParser.Consumes.fuelLoop_applyHandshake (h : tp.Consumes) (d : Direction) :
    FuelLoop (fun fuel s => applyHandshakeLoop tp d fuel s.1 s.2) (applyHandshakeTurn tp d)
      fun s => s.2.length where
  succ := fun _ _ => rfl
  stop := fun n s hs => by
    obtain ⟨handshake, remaining⟩ := s
    obtain rfl := List.length_eq_zero_iff.mp hs
    cases n <;> rfl
  smaller := fun f g s hfg => by
    unfold applyHandshakeTurn
    cases hparse : tp.parseTlsMessageHandshake s.2 with
    | error e => rfl
    | ok r =>
      obtain ⟨rest, msg⟩ := r
      simp only [hfg (applyHandshakeMessage tp d s.1 msg, rest) (h.message _ _ _ hparse)]

/-- The fuel of `applyHandshakeRecord` is never exhausted: it is the one function that goes round as the
loop of the source does. -/
theorem applyHandshakeRecord_iff (h : tp.Consumes) (d : Direction)
    (loop : HandshakeInfo × Bytes → HandshakeInfo) :
    (∀ s, loop s = applyHandshakeTurn tp d loop s) ↔ ∀ s, loop s = applyHandshakeRecord tp s.1 s.2 d :=
  (h.fuelLoop_applyHandshake d).solution_iff loop

theorem applyHandshakeLoop_eq_foldl (d : Direction) :
    ∀ (fuel : ℕ) (handshake : HandshakeInfo) (payload : Bytes),
      applyHandshakeLoop tp d fuel handshake payload =
        (messagesOfLoop tp fuel payload).foldl (applyHandshakeMessage tp d) handshake := by
  intro fuel
  induction fuel with
  | zero => intro handshake payload; rfl
  | succ fuel ih =>
    intro handshake payload
    rw [applyHandshakeLoop, messagesOfLoop]
    by_cases hempty : payload.isEmpty
    · rw [if_pos hempty, if_pos hempty]
      rfl
    · rw [if_neg hempty, if_neg hempty]
      cases tp.parseTlsMessageHandshake payload with
      | error e => rfl
      | ok r => exact ih _ _

/-- A Handshake record applies its messages in order. -/
theorem applyHandshakeRecord_eq_foldl (handshake : HandshakeInfo) (payload : Bytes)
    (d : Direction) :
    applyHandshakeRecord tp handshake payload d =
      (messagesOf tp payload).foldl (applyHandshakeMessage tp d) handshake :=
  applyHandshakeLoop_eq_foldl d _ _ _

/-- A message that does not move the stage changes nothing. -/
theorem applyHandshakeMessage_of_not_movesStage {d : Direction} {handshake : HandshakeInfo}
    {msg : TlsMessage} (h : ¬ msg.movesStage d handshake.tlsVersion) :
    applyHandshakeMessage tp d handshake msg = handshake := by
  cases msg with
  | other => rfl
  | handshake hs =>
    cases hs with
    | clientHello ch =>
      cases d with
      | clientToServer => exact absurd rfl h
      | serverToClient => rfl
    | serverHello sh =>
      cases d with
      | clientToServer => rfl
      | serverToClient => exact absurd rfl h
    | certificate =>
      cases d with
      | clientToServer => rfl
      | serverToClient =>
        refine if_neg fun hv => h ?_
        simpa [TlsMessage.movesStage] using hv
    | serverKeyExchange => exact absurd rfl h
    | serverDone => exact absurd rfl h
    | clientKeyExchange =>
      cases d with
      | clientToServer => exact absurd rfl h
      | serverToClient => rfl
    | other => cases d <;> rfl

theorem foldl_applyHandshakeMessage_of_not_movesStage {d : Direction} {handshake : HandshakeInfo}
    {msgs : List TlsMessage} (h : ∀ msg ∈ msgs, ¬ msg.movesStage d handshake.tlsVersion) :
    msgs.foldl (applyHandshakeMessage tp d) handshake = handshake := by
  induction msgs with
  | nil => rfl
  | cons msg msgs ih =>
    rw [List.foldl_cons, applyHandshakeMessage_of_not_movesStage (h msg (List.mem_cons_self ..))]
    exact ih fun m hm => h m (List.mem_cons_of_mem _ hm)

/-! ## The fields that no record writes -/

/-- The error and the origin: `ingest` sets them itself, at its error exits and for a new key. -/
def HandshakeInfo.unwritten (handshake : HandshakeInfo) : Option String × Option Origin :=
  (handshake.error, handshake.origin)

theorem applyHandshakeMessage_unwritten (d : Direction) (handshake : HandshakeInfo)
    (msg : TlsMessage) :
    (applyHandshakeMessage tp d handshake msg).unwritten = handshake.unwritten := by
  unfold applyHandshakeMessage
  split
  · split
    · rfl
    · rfl
    · split_ifs <;> rfl
    · rfl
    · rfl
    · rfl
    · rfl
  · rfl

theorem applyHandshakeRecord_unwritten (d : Direction) (handshake : HandshakeInfo)
    (payload : Bytes) :
    (applyHandshakeRecord tp handshake payload d).unwritten = handshake.unwritten := by
  rw [applyHandshakeRecord_eq_foldl]
  generalize messagesOf tp payload = msgs
  induction msgs generalizing handshake with
  | nil => rfl
  | cons msg msgs ih => rw [List.foldl_cons, ih, applyHandshakeMessage_unwritten]

theorem applyEncryptedRecord_unwritten (conn : TrackedConnection) (d : Direction) :
    (applyEncryptedRecord conn d).state.handshake.unwritten =
      conn.state.handshake.unwritten := by
  obtain ⟨stage, subject, issuer, h⟩ := applyEncryptedRecord_handshake conn d
  rw [h]
  rfl

theorem processRecord_unwritten (d : Direction) (t : UInt64) (conn : TrackedConnection)
    (r : TlsRecord) :
    (processRecord tp d t conn r).state.handshake.unwritten = conn.state.handshake.unwritten := by
  rw [processRecord_handshakeInfo]
  cases r.recordType with
  | handshake =>
    by_cases h : conn.ccsSeen d
    · simp only [if_pos h]
    · simp only [if_neg h, applyHandshakeRecord_unwritten]
  | applicationData => exact applyEncryptedRecord_unwritten conn d
  | changeCipherSpec =>
    simp only [applyCcs]
    cases d <;> split_ifs <;> rfl
  | alert => rfl
  | other v => rfl

end SeeHandshake

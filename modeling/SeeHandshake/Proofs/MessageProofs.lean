import SeeHandshake.Parser.Reference
import SeeHandshake.Proofs.SegmentProofs
import SeeHandshake.Tracker.Flights

/-!
# Proofs: handshake messages and record borders

Handshake messages are parsed per record. As long as the records are cut between messages, it does not
matter where; a message that straddles a record border is lost.
-/

namespace SeeHandshake

variable {tp : TlsParser}

/-! ## Sequences of messages -/

theorem TlsParser.AreMessages.tail {m : Bytes × TlsMessage} {ms : List (Bytes × TlsMessage)}
    (h : tp.AreMessages (m :: ms)) : tp.IsMessage m.1 m.2 ∧ tp.AreMessages ms :=
  ⟨h m (List.mem_cons_self ..), fun x hx => h x (List.mem_cons_of_mem _ hx)⟩

theorem messageBytes_append (ms ms' : List (Bytes × TlsMessage)) :
    messageBytes (ms ++ ms') = messageBytes ms ++ messageBytes ms' := by
  simp [messageBytes]

theorem length_le_messageBytes {ms : List (Bytes × TlsMessage)} (h : tp.AreMessages ms) :
    ms.length ≤ (messageBytes ms).length := by
  induction ms with
  | nil => exact Nat.zero_le _
  | cons m ms ih =>
    obtain ⟨hm, hms⟩ := h.tail
    have hpos := List.length_pos_iff.mpr hm.ne_nil
    have hrec := ih hms
    simp only [messageBytes, List.map_cons, List.flatten_cons, List.length_append,
      List.length_cons] at hrec ⊢
    omega

/-- The bytes of a sequence of messages determine the messages. -/
theorem messages_unique {ms ms' : List (Bytes × TlsMessage)} (h : tp.AreMessages ms)
    (h' : tp.AreMessages ms') (heq : messageBytes ms = messageBytes ms') : ms = ms' := by
  induction ms generalizing ms' with
  | nil =>
    have hlen := length_le_messageBytes h'
    rw [← heq] at hlen
    exact (List.length_eq_zero_iff.mp (Nat.le_zero.mp hlen)).symm
  | cons m ms ih =>
    obtain ⟨hm, hms⟩ := h.tail
    cases ms' with
    | nil =>
      have hlen := length_le_messageBytes h
      rw [heq] at hlen
      exact absurd hlen (by simp [messageBytes])
    | cons m' ms' =>
      obtain ⟨hm', hms'⟩ := h'.tail
      have hp := hm.parse (messageBytes ms)
      have hp' := hm'.parse (messageBytes ms')
      have hcons : m.1 ++ messageBytes ms = m'.1 ++ messageBytes ms' := heq
      rw [hcons, hp'] at hp
      obtain ⟨hrest, hmsg⟩ := Prod.mk.inj (Except.ok.inj hp)
      rw [← hrest] at hcons
      have hbytes : m.1 = m'.1 := List.append_cancel_right hcons
      rw [ih hms hms' hrest.symm, Prod.ext hbytes hmsg.symm]

/-! ## One record -/

theorem applyHandshakeLoop_messages (d : Direction) {ms : List (Bytes × TlsMessage)}
    (h : tp.AreMessages ms) : ∀ (fuel : ℕ) (handshake : HandshakeInfo), ms.length ≤ fuel →
      applyHandshakeLoop tp d fuel handshake (messageBytes ms) =
        (ms.map Prod.snd).foldl (applyHandshakeMessage tp d) handshake := by
  induction ms with
  | nil =>
    intro fuel handshake _
    cases fuel <;> rfl
  | cons m ms ih =>
    intro fuel handshake hfuel
    obtain ⟨hm, hms⟩ := h.tail
    cases fuel with
    | zero => simp at hfuel
    | succ fuel =>
      have hcons : messageBytes (m :: ms) = m.1 ++ messageBytes ms := rfl
      have hne : ¬ (m.1 ++ messageBytes ms).isEmpty := by simp [hm.ne_nil]
      rw [hcons, applyHandshakeLoop, if_neg hne, hm.parse]
      exact ih hms fuel _ (Nat.le_of_succ_le_succ hfuel)

/-- A record of complete messages applies them all, in order. -/
theorem applyHandshakeRecord_messages (d : Direction) {ms : List (Bytes × TlsMessage)}
    (h : tp.AreMessages ms) (handshake : HandshakeInfo) :
    applyHandshakeRecord tp handshake (messageBytes ms) d =
      (ms.map Prod.snd).foldl (applyHandshakeMessage tp d) handshake :=
  applyHandshakeLoop_messages d h _ handshake (length_le_messageBytes h)

/-! ## Records cut between messages -/

/-- Handshake records of a direction, each with complete messages only. -/
def MessageRecords (tp : TlsParser) (d : Direction) (xs : List Sent) : Prop :=
  ∀ x ∈ xs, x.type = .handshake ∧ x.direction = d ∧
    ∃ ms, tp.AreMessages ms ∧ x.record.payload = messageBytes ms

/-- The payloads of the records, one after the other. -/
def payloads (xs : List Sent) : Bytes := (xs.map fun x => x.record.payload).flatten

/-- The effect of such records, before the ChangeCipherSpec of their direction, is that of their
messages. -/
theorem receive_messages {d : Direction} {xs : List Sent} (h : MessageRecords tp d xs) :
    ∃ ms, tp.AreMessages ms ∧ payloads xs = messageBytes ms ∧
      ∀ conn : TrackedConnection, conn.buf d = [] → ¬ conn.ccsSeen d →
        (conn.receive tp xs).state.handshake =
          (ms.map Prod.snd).foldl (applyHandshakeMessage tp d) conn.state.handshake := by
  induction xs with
  | nil => exact ⟨[], fun m hm => absurd hm List.not_mem_nil, rfl, fun conn _ _ => rfl⟩
  | cons x xs ih =>
    obtain ⟨hx, rfl, ms₁, hms₁, hpay⟩ := h x (List.mem_cons_self ..)
    obtain ⟨ms₂, hms₂, hpays, hrun⟩ := ih fun y hy => h y (List.mem_cons_of_mem _ hy)
    refine ⟨ms₁ ++ ms₂, ?_, ?_, ?_⟩
    · intro m hm
      rcases List.mem_append.mp hm with hm | hm
      · exact hms₁ m hm
      · exact hms₂ m hm
    · rw [messageBytes_append, ← hpay, ← hpays]
      rfl
    · intro conn hbuf hccs
      have htype : x.record.toTlsRecord.recordType = .handshake := hx
      have hccs' : ¬ (conn.touched x.nowMs).ccsSeen x.direction := by
        intro hseen
        refine hccs ?_
        rw [← hseen]
        cases x.direction <;> rfl
      have hstep := TrackedConnection.step_segment tp hbuf
      have hhand : (conn.step tp x.segment).state.handshake =
          (ms₁.map Prod.snd).foldl (applyHandshakeMessage tp x.direction) conn.state.handshake := by
        rw [hstep, processRecord_handshakeInfo, htype]
        simp only
        rw [if_neg hccs', show x.record.toTlsRecord.payload = messageBytes ms₁ from hpay,
          applyHandshakeRecord_messages _ hms₁]
        rfl
      have hbuf' : (conn.step tp x.segment).buf x.direction = [] := by
        rw [hstep, processRecord_buf, TrackedConnection.buf_touched, hbuf]
      have hunseen : ¬ (conn.step tp x.segment).ccsSeen x.direction := by
        rw [hstep, processRecord_ccsSeen, htype]
        simpa using hccs'
      have hrest := hrun (conn.step tp x.segment) hbuf' hunseen
      rw [List.map_append, List.foldl_append, ← hhand]
      exact hrest

/-- The extracted handshake does not depend on where the records of a direction are cut, as long as
they are cut between handshake messages: from every connection that buffers nothing in the direction
and has not seen its ChangeCipherSpec, two sequences of records with the same payload bytes leave the
same handshake. -/
theorem handshake_eq_of_messageRecords (tp : TlsParser) (conn : TrackedConnection) (d : Direction)
    (hbuf : conn.buf d = []) (hccs : ¬ conn.ccsSeen d) (xs ys : List Sent)
    (hxs : MessageRecords tp d xs) (hys : MessageRecords tp d ys) (heq : payloads xs = payloads ys) :
    (conn.receive tp xs).state.handshake = (conn.receive tp ys).state.handshake := by
  obtain ⟨ms, hms, hbytes, hrun⟩ := receive_messages hxs
  obtain ⟨ms', hms', hbytes', hrun'⟩ := receive_messages hys
  have hsame : ms = ms' := messages_unique hms hms' (by rw [← hbytes, ← hbytes', heq])
  rw [hrun conn hbuf hccs, hrun' conn hbuf hccs, hsame]

/-- Two ClientHellos in one record or in two. -/
theorem handshake_eq_of_messageRecords_two :
    let conn := TrackedConnection.created Reference.key 0 .unknown
    let m := Reference.clientHello13
    (conn.receive Reference.parser [.of .clientToServer 22 (m ++ m)]).state.handshake =
      (conn.receive Reference.parser
        [.of .clientToServer 22 m, .of .clientToServer 22 m]).state.handshake := by
  intro conn m
  set msg : TlsMessage := .handshake (.clientHello Reference.clientHello13Contents) with hmsg
  have hall : ∀ n, Reference.parser.AreMessages (List.replicate n (m, msg)) := fun n p hp => by
    obtain ⟨-, rfl⟩ := List.mem_replicate.mp hp
    exact Reference.clientHello13_isMessage
  refine handshake_eq_of_messageRecords Reference.parser conn .clientToServer rfl (by decide) _ _ ?_ ?_
    (by decide)
  · intro x hx
    obtain rfl := List.mem_singleton.mp hx
    exact ⟨rfl, rfl, _, hall 2, by decide⟩
  · intro x hx
    have hx' : x = .of .clientToServer 22 m := by simpa using hx
    subst hx'
    exact ⟨rfl, rfl, _, hall 1, by decide⟩

/-- A ClientHello cut inside the message is not extracted from either record. -/
theorem clientHello_lost_across_records :
    let conn := TrackedConnection.created Reference.key 0 .unknown
    let m := Reference.clientHello13
    let whole := [Sent.of .clientToServer 22 m]
    let cut := [Sent.of .clientToServer 22 (m.take 20), .of .clientToServer 22 (m.drop 20)]
    (∃ msg, Reference.parser.IsMessage m msg) ∧ payloads whole = m ∧ payloads cut = m ∧
      (conn.receive Reference.parser whole).state.handshake.stage = .clientHello ∧
      (conn.receive Reference.parser cut).state.handshake.stage = .idle := by
  intro conn m whole cut
  exact ⟨⟨_, Reference.clientHello13_isMessage⟩, by decide⟩

end SeeHandshake

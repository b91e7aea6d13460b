import SeeHandshake.Proofs.FlightProofs
import SeeHandshake.Proofs.RetainedProofs

/-!
# Proofs: ciphertext is not read as plaintext

The record loop and the event both ask the flag of the record's own direction, which is set as soon as
its first ChangeCipherSpec is processed. So a Handshake record after it is neither applied nor decoded.
-/

namespace SeeHandshake

open Lib

variable {tp : TlsParser}

/-- The body of the event of a Handshake record, after a history: a preview of the ciphertext if a
ChangeCipherSpec of its direction was processed, and the decoded message otherwise. -/
def HandshakeBody (history : List (Direction × TlsRecord × Bytes)) (d : Direction) (r : TlsRecord)
    (body : RecordBody) : Prop :=
  if ccsProcessed history d then ∃ label, body = .encryptedHandshake label (r.payload.take 64)
  else body = .handshake (decodeHandshakeBody r.payload)

section Record

variable {l : List (Direction × TlsRecord × Bytes)} {conn : TrackedConnection} {d : Direction}
  {r : TlsRecord}

/-- A Handshake record after the ChangeCipherSpec of its direction leaves the handshake alone. -/
theorem processRecord_of_ccsSeen (hr : r.recordType = .handshake) (hccs : conn.ccsSeen d)
    (t : UInt64) : (processRecord tp d t conn r).state.handshake = conn.state.handshake := by
  rw [processRecord_handshakeInfo, hr]
  simp only [if_pos hccs]

/-- The event of a Handshake record that is logged. -/
theorem processRecord_handshakeBody (tp : TlsParser) (hr : r.recordType = .handshake)
    (hccs : conn.ccsSeen d = ccsProcessed l d) (hlog : conn.logs d r) (t : UInt64) :
    ∃ e : RecordEvent,
      (processRecord tp d t conn r).state.records = conn.state.records ++ [e] ∧
      e.direction = toRecordDirection d ∧ HandshakeBody l d r e.body := by
  obtain ⟨e, hrecords, hdir, hbody⟩ := processRecord_event tp hlog t
  refine ⟨e, hrecords, hdir, ?_⟩
  rw [if_neg (by rw [hr]; decide)] at hbody
  unfold buildBody at hbody
  rw [hr] at hbody
  unfold HandshakeBody
  rw [← hccs]
  by_cases hseen : conn.ccsSeen d
  · rw [if_pos hseen]
    simp only [if_pos hseen] at hbody
    exact ⟨_, hbody⟩
  · rw [if_neg hseen]
    simpa only [if_neg hseen] using hbody

end Record

/-! ## The timeline -/

/-- Every Handshake entry of the timeline is the event of the eligible record in its place. -/
def HandshakeEntries (l : List (Direction × TlsRecord × Bytes)) (conn : TrackedConnection) : Prop :=
  ∀ k e, conn.state.records[k]? = some e → e.outerType = .handshake →
    ∃ a d r bytes b, l = a ++ (d, r, bytes) :: b ∧
      (TrackedConnection.eligibleSlices a).length = k ∧ r.recordType = .handshake ∧ e.raw = bytes ∧
      e.direction = toRecordDirection d ∧ HandshakeBody a d r e.body

namespace HandshakeEntries

variable {l : List (Direction × TlsRecord × Bytes)} {conn : TrackedConnection}

/-- More processed records leave the entries as they are. -/
theorem mono (h : HandshakeEntries l conn) (x : Direction × TlsRecord × Bytes) :
    HandshakeEntries (l ++ [x]) conn := by
  intro k e hk htype
  obtain ⟨a, d, r, bytes, b, rfl, hrest⟩ := h k e hk htype
  exact ⟨a, d, r, bytes, b ++ [x], by simp, hrest⟩

theorem processRecord (h : HandshakeEntries l conn) (hinv : TimelineInv l conn)
    (hccs : ∀ d, conn.ccsSeen d = ccsProcessed l d) {r : TlsRecord} {bytes : Bytes}
    (hcut : recordCut bytes = .frame r bytes.length) (tp : TlsParser) (d : Direction) (t : UInt64) :
    HandshakeEntries (l ++ [(d, r, bytes)]) (processRecord tp d t conn r) := by
  by_cases hlog : conn.logs d r
  swap
  · have hsame := (processRecord_not_logged tp t hlog).1
    intro k e hk
    rw [hsame] at hk
    exact h.mono (d, r, bytes) k e hk
  obtain ⟨body, hrecords, -⟩ := processRecord_logged tp t hlog
  intro k e hk htype
  rw [hrecords, List.getElem?_append] at hk
  split_ifs at hk with hlt
  · exact h.mono (d, r, bytes) k e hk htype
  · -- The new entry stands in the place of the record.
    rw [List.getElem?_singleton] at hk
    split_ifs at hk with hzero
    have hlen : k = conn.state.records.length := by omega
    obtain rfl := Option.some.inj hk
    obtain ⟨e', hrecords', hdir, hbody⟩ := processRecord_handshakeBody tp htype (hccs d) hlog t
    have hsame := List.append_cancel_left (hrecords.symm.trans hrecords')
    obtain rfl := List.singleton_inj.mp hsame
    exact ⟨l, d, r, bytes, [], rfl, hlen ▸ (hinv.length_of_logs hlog).symm, htype,
      rawRecord_of_cut hcut, hdir, hbody⟩

theorem run (tp : TlsParser) (key : ConnectionKey) (t : UInt64) (origin : Origin)
    (segs : List Segment) :
    HandshakeEntries (TrackedConnection.processed tp (.created key t origin) segs)
      ((TrackedConnection.created key t origin).run tp segs) := by
  have hrun := TrackedConnection.run_history tp
    (P := fun l conn => (TimelineInv l conn ∧ ∀ d, conn.ccsSeen d = ccsProcessed l d) ∧
      HandshakeEntries l conn)
    (fun l conn d t r bytes hcut hl =>
      ⟨⟨hl.1.1.processRecord hcut d t,
        fun d' => by rw [processRecord_ccsSeen, ccsProcessed_concat, hl.1.2]⟩,
        hl.2.processRecord hl.1.1 hl.1.2 hcut tp d t⟩)
    (fun l conn t text hl => ⟨⟨hl.1.1.congr rfl rfl rfl,
      fun d => by rw [TrackedConnection.ccsSeen_errored, hl.1.2]⟩, hl.2⟩)
    (fun l conn t hl => ⟨⟨hl.1.1.congr rfl rfl rfl,
      fun d => by rw [TrackedConnection.ccsSeen_touched, hl.1.2]⟩, hl.2⟩)
    (fun l conn d bytes hl => by cases d <;> exact ⟨⟨hl.1.1.congr rfl rfl rfl,
      fun d' => by rw [TrackedConnection.ccsSeen_setBuf, hl.1.2]⟩, hl.2⟩)
    segs [] (.created key t origin)
    ⟨⟨.created key t origin, fun d => by cases d <;> rfl⟩, fun k e hk => by cases hk⟩
  exact hrun.2

end HandshakeEntries

/-- The flags within a segment. -/
theorem TrackedConnection.ccsSeen_midway (tp : TlsParser) {conn : TrackedConnection}
    {l : List (Direction × TlsRecord × Bytes)} (h : ∀ d, conn.ccsSeen d = ccsProcessed l d)
    (seg : Segment) (a : List (TlsRecord × Bytes)) (d : Direction) :
    (conn.midway tp seg (a.map Prod.fst)).ccsSeen d =
      ccsProcessed (l ++ a.map (seg.direction, ·)) d := by
  induction a using List.reverseRecOn with
  | nil =>
    rw [List.map_nil, List.map_nil, List.append_nil, ← h]
    show ((conn.touched seg.nowMs).setBuf seg.direction _).ccsSeen d = _
    rw [ccsSeen_setBuf, ccsSeen_touched]
  | append_singleton a f ih =>
    rw [List.map_append, midway_append, List.map_append, ← List.append_assoc, List.map_singleton,
      List.map_singleton, List.foldl_cons, List.foldl_nil, processRecord_ccsSeen, ih,
      ccsProcessed_concat]

/-- In every run of a new connection, of whatever version: a Handshake record that is processed after a
ChangeCipherSpec of its direction leaves the handshake alone, and the event in its place shows the first
bytes of the ciphertext only. The event of a Handshake record before the ChangeCipherSpec of its
direction shows the decoded message. The other direction plays no part. -/
theorem ciphertext_not_read (tp : TlsParser) (key : ConnectionKey) (t : UInt64) (origin : Origin) :
    let start := TrackedConnection.created key t origin
    (∀ pre seg a r bytes b, (start.run tp pre).framed seg = a ++ (r, bytes) :: b →
      r.recordType = .handshake →
      ccsProcessed (start.processed tp pre ++ a.map (seg.direction, ·)) seg.direction →
      ((start.run tp pre).midway tp seg ((a ++ [(r, bytes)]).map Prod.fst)).state.handshake =
        ((start.run tp pre).midway tp seg (a.map Prod.fst)).state.handshake) ∧
    (∀ segs k e, (start.run tp segs).state.records[k]? = some e → e.outerType = .handshake →
      ∃ a d r bytes b, start.processed tp segs = a ++ (d, r, bytes) :: b ∧
        (TrackedConnection.eligibleSlices a).length = k ∧ r.recordType = .handshake ∧
        e.raw = bytes ∧ e.direction = toRecordDirection d ∧
        if ccsProcessed a d then
          ∃ label, e.body = .encryptedHandshake label (r.payload.take 64)
        else e.body = .handshake (decodeHandshakeBody r.payload)) := by
  intro start
  constructor
  · intro pre seg a r bytes b _ hr hseen
    have hstart : ∀ d, start.ccsSeen d = false := fun d => by cases d <;> rfl
    have hrun := TrackedConnection.ccsSeen_run tp hstart pre
    rw [← TrackedConnection.ccsSeen_midway tp hrun] at hseen
    rw [List.map_append, TrackedConnection.midway_append]
    exact processRecord_of_ccsSeen hr hseen seg.nowMs
  · exact HandshakeEntries.run tp key t origin

/-- A ClientKeyExchange in the wrong place, after the ChangeCipherSpec of the client. -/
theorem ciphertext_not_read_keyExchange :
    let start := TrackedConnection.created Reference.key 0 .unknown
    let segs := [Sent.of .clientToServer 20 [1], Sent.of .clientToServer 22 [16, 0, 0, 0]].map
      Sent.segment
    ∃ e label, (start.run Reference.parser segs).state.records[1]? = some e ∧
      e.body = .encryptedHandshake label [16, 0, 0, 0] := by
  intro start segs
  obtain ⟨e, he⟩ := Option.isSome_iff_exists.mp
    (show (start.run Reference.parser segs).state.records[1]?.isSome by decide)
  have htype : (start.run Reference.parser segs).state.records[1]?.map RecordEvent.outerType =
      some .handshake := by decide
  rw [he] at htype
  obtain ⟨a, d, r, bytes, b, hprocessed, hlen, -, -, -, hbody⟩ :=
    (ciphertext_not_read Reference.parser Reference.key 0 .unknown).2 segs 1 e he
      (Option.some.inj htype)
  have hbuf : ∀ d, start.buf d = [] := fun d => by cases d <;> rfl
  rw [TrackedConnection.processed_segments _ hbuf] at hprocessed
  rcases a with - | ⟨x, - | ⟨y, a⟩⟩
  · exact absurd hlen (by decide)
  · obtain ⟨hx, hrest⟩ := List.cons.inj hprocessed
    obtain ⟨hd, hr⟩ := Prod.mk.inj (List.cons.inj hrest).1
    rw [← hx, ← hd, ← (Prod.mk.inj hr).1, if_pos (by decide)] at hbody
    obtain ⟨label, hbody⟩ := hbody
    exact ⟨e, label, he, hbody⟩
  · simp at hprocessed

end SeeHandshake

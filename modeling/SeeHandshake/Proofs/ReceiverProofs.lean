import SeeHandshake.Lib.Receiver
import SeeHandshake.Lib.Simulation
import SeeHandshake.Proofs.SegmentProofs
import SeeHandshake.Tracker.Flights

/-!
# Proofs: a connection is a receiver

As long as no segment fails, a tracked connection is a receiver of two streams of records: its core
state, together with the records processed so far, is the core of the receiver.
-/

namespace SeeHandshake

open Lib

variable {tp : TlsParser}

/-- The core of a connection and the records it processed. -/
abbrev Processing := TrackedConnection × List (Direction × TlsRecord × Bytes)

/-- Process a record. -/
def recordStep (tp : TlsParser) (d : Direction) (s : Processing) (f : TlsRecord × Bytes) :
    Processing :=
  (processRecord tp d 0 s.1 f.1, s.2 ++ [(d, f)])

theorem foldl_recordStep (d : Direction) (frames : List (TlsRecord × Bytes)) :
    ∀ s : Processing, frames.foldl (recordStep tp d) s =
      ((frames.map Prod.fst).foldl (processRecord tp d 0) s.1, s.2 ++ frames.map (d, ·)) := by
  induction frames with
  | nil => intro s; simp
  | cons f frames ih =>
    intro s
    rw [List.foldl_cons, ih]
    simp [recordStep]

/-- The chunk that a segment carries. -/
def Segment.chunk (seg : Segment) : Direction × Bytes := (seg.direction, seg.payload)

namespace TrackedConnection

variable {conn : TrackedConnection} {seg : Segment}

/-- The connection as a receiver, with the records it processed before. -/
def receiver (conn : TrackedConnection) (log : List (Direction × TlsRecord × Bytes)) :
    Receiver Processing Direction UInt8 :=
  ⟨(conn.core, log), conn.buf⟩

/-- A segment that does not fail is a chunk that the receiver accepts. -/
theorem feed_receiver (hne : seg.payload ≠ []) (h : ¬ conn.fails seg)
    (log : List (Direction × TlsRecord × Bytes)) :
    Receiver.feed recordSplitter (recordStep tp) (conn.receiver log) seg.chunk =
      some ((conn.step tp seg).receiver (log ++ (conn.framed seg).map (seg.direction, ·))) := by
  have hstop : (conn.peeled seg).stop = none := by
    by_contra hstop
    exact h (fails_iff.mpr ⟨hne, Or.inr hstop⟩)
  rw [Receiver.feed_eq_some (conn.receiver log) seg.chunk hstop, foldl_recordStep]
  unfold receiver
  rw [step_core h, framed_of_not_fails hne h]
  congr 2
  funext d
  rw [step_buf hne h, Function.update_apply]
  rfl

/-- No segment of the run overflows the reassembly buffer. -/
def WithinCap (tp : TlsParser) (conn : TrackedConnection) (segs : List Segment) : Prop :=
  AllSteps (step tp) (fun c seg => ¬ c.overflows seg) conn segs

instance (conn : TrackedConnection) (segs : List Segment) : Decidable (conn.WithinCap tp segs) :=
  inferInstanceAs (Decidable (AllSteps _ _ _ _))

/-- When the receiver accepts all chunks of a run within the cap, it ends in the state of the
connection. -/
theorem feedAll_receiver {segs : List Segment} (hne : ∀ seg ∈ segs, seg.payload ≠ [])
    (hcap : conn.WithinCap tp segs) (log : List (Direction × TlsRecord × Bytes))
    (hsome : (Receiver.feedAll recordSplitter (recordStep tp) (conn.receiver log)
      (segs.map Segment.chunk)).isSome) :
    Receiver.feedAll recordSplitter (recordStep tp) (conn.receiver log) (segs.map Segment.chunk) =
      some ((conn.run tp segs).receiver (log ++ conn.processed tp segs)) := by
  induction segs generalizing conn log with
  | nil => simp [Receiver.feedAll, processed]
  | cons seg segs ih =>
    have hseg := hne seg (List.mem_cons_self ..)
    rw [List.map_cons, Receiver.feedAll_cons] at hsome ⊢
    have hfeed := Option.isSome_of_isSome_bind hsome
    have hf : ¬ conn.fails seg := by
      rw [fails_iff]
      rintro ⟨-, hover | hstop⟩
      · exact AllSteps.head hcap hover
      · exact hstop (Receiver.feed_isSome_iff.mp hfeed)
    rw [feed_receiver hseg hf, Option.bind_some] at hsome ⊢
    rw [ih (fun s hs => hne s (List.mem_cons_of_mem _ hs)) (AllSteps.tail hcap) _ hsome, run_cons, processed,
      List.append_assoc]

/-- Records that arrive whole are chunks that the receiver accepts. -/
theorem feedAll_receive (xs : List Sent) (h : ∀ d, conn.buf d = [])
    (log : List (Direction × TlsRecord × Bytes)) :
    Receiver.feedAll recordSplitter (recordStep tp) (conn.receiver log)
        (xs.map fun x => x.segment.chunk) =
      some ((conn.receive tp xs).receiver
        (log ++ xs.map fun x => (x.direction, x.record.toTlsRecord, x.record.encode))) := by
  induction xs generalizing conn log with
  | nil => simp [Receiver.feedAll, receive]
  | cons x xs ih =>
    have hbuf := h x.direction
    have hempty : ∀ d, (conn.step tp x.segment).buf d = [] := buf_run_segments [x] h
    rw [List.map_cons, Receiver.feedAll_cons,
      feed_receiver x.record.encode_ne_nil (not_fails_segment hbuf), Option.bind_some,
      ih hempty, framed_segment hbuf, List.append_assoc]
    rfl

/-! ## Counting bytes -/

/-- The number of bytes of the processed records. -/
def processedBytes (l : List (Direction × TlsRecord × Bytes)) : ℕ :=
  ((l.map fun f => f.2.2).flatten).length

/-- The number of buffered bytes. -/
def bufferedBytes (conn : TrackedConnection) : ℕ :=
  (conn.buf .clientToServer).length + (conn.buf .serverToClient).length

/-- The number of bytes that a run is given. -/
def payloadBytes (segs : List Segment) : ℕ := ((segs.map Segment.payload).flatten).length

theorem processed_append (segs segs' : List Segment) :
    conn.processed tp (segs ++ segs') =
      conn.processed tp segs ++ (conn.run tp segs).processed tp segs' := by
  induction segs generalizing conn with
  | nil => rfl
  | cons seg segs ih => rw [List.cons_append, processed, ih, processed, List.append_assoc, run_cons]

/-- Replacing a buffer by a shorter one. -/
theorem bufferedBytes_setBuf (conn : TrackedConnection) (d : Direction) (bytes : Bytes) :
    (conn.setBuf d bytes).bufferedBytes + (conn.buf d).length =
      conn.bufferedBytes + bytes.length := by
  unfold bufferedBytes
  simp only [buf_setBuf]
  cases d <;> simp <;> omega

theorem processedBytes_framed (d : Direction) (frames : List (TlsRecord × Bytes)) :
    processedBytes (frames.map (d, ·)) = ((frames.map Prod.snd).flatten).length := by
  unfold processedBytes
  rw [List.map_map]
  rfl

/-- A failing segment processes nothing and buffers nothing. -/
theorem bufferedBytes_of_fails (tp : TlsParser) (h : conn.fails seg) :
    (conn.step tp seg).bufferedBytes ≤ conn.bufferedBytes := by
  obtain ⟨text, bytes, hbytes, hstep⟩ := step_of_fails tp h
  have hset := bufferedBytes_setBuf (conn.errored seg.nowMs text) seg.direction bytes
  have hsame : (conn.errored seg.nowMs text).bufferedBytes = conn.bufferedBytes := rfl
  rw [buf_errored, hsame, ← hstep] at hset
  rcases hbytes with rfl | rfl
  · omega
  · rw [List.length_nil] at hset
    omega

/-- The bytes of a segment are processed, buffered or dropped. -/
theorem step_bytes (tp : TlsParser) (conn : TrackedConnection) (seg : Segment) :
    processedBytes ((conn.framed seg).map (seg.direction, ·)) + (conn.step tp seg).bufferedBytes ≤
      conn.bufferedBytes + seg.payload.length := by
  by_cases hne : seg.payload = []
  · rw [step_of_nil hne, framed_of_nil hne, hne]
    exact (Nat.zero_add _).le
  by_cases hf : conn.fails seg
  · have hle := bufferedBytes_of_fails tp hf
    rw [framed_of_fails hf]
    show 0 + _ ≤ _
    omega
  · have hflat := congrArg List.length (framed_flatten tp hne hf)
    rw [List.length_append, List.length_append, ← processedBytes_framed seg.direction] at hflat
    have hother : ∀ d, d ≠ seg.direction → (conn.step tp seg).buf d = conn.buf d := fun d hd => by
      rw [step_buf hne hf, if_neg hd]
    have hsum : (conn.step tp seg).bufferedBytes + (conn.buf seg.direction).length =
        conn.bufferedBytes + ((conn.step tp seg).buf seg.direction).length := by
      unfold bufferedBytes
      cases hd : seg.direction
      · rw [hother .serverToClient (by rw [hd]; exact Direction.noConfusion)]
        omega
      · rw [hother .clientToServer (by rw [hd]; exact Direction.noConfusion)]
        omega
    omega

/-- No more bytes are processed than were buffered or given. -/
theorem run_bytes (tp : TlsParser) (segs : List Segment) (conn : TrackedConnection) :
    processedBytes (conn.processed tp segs) + (conn.run tp segs).bufferedBytes ≤
      conn.bufferedBytes + payloadBytes segs := by
  induction segs generalizing conn with
  | nil => exact (Nat.zero_add _).le
  | cons seg segs ih =>
    have hstep := step_bytes tp conn seg
    have hrest := ih (conn.step tp seg)
    have happ : processedBytes (conn.processed tp (seg :: segs)) =
        processedBytes ((conn.framed seg).map (seg.direction, ·)) +
          processedBytes ((conn.step tp seg).processed tp segs) := by
      simp only [processed, processedBytes, List.map_append, List.flatten_append, List.length_append]
    have hpay : payloadBytes (seg :: segs) = seg.payload.length + payloadBytes segs := by
      simp [payloadBytes]
    rw [run_cons, happ, hpay]
    omega

/-- The payload of a failing segment is not processed. -/
theorem run_bytes_of_fails {a b : List Segment} (h : (conn.run tp a).fails seg) :
    processedBytes (conn.processed tp (a ++ seg :: b)) + seg.payload.length ≤
      conn.bufferedBytes + payloadBytes (a ++ seg :: b) := by
  have hbefore := run_bytes tp a conn
  have hstep := bufferedBytes_of_fails tp h
  have hafter := run_bytes tp b ((conn.run tp a).step tp seg)
  have happ : processedBytes (conn.processed tp (a ++ seg :: b)) =
      processedBytes (conn.processed tp a) +
        processedBytes (((conn.run tp a).step tp seg).processed tp b) := by
    rw [processed_append, processed, framed_of_fails h]
    simp only [processedBytes, List.map_nil, List.nil_append, List.map_append, List.flatten_append, List.length_append]
  have hpay : payloadBytes (a ++ seg :: b) =
      payloadBytes a + (seg.payload.length + payloadBytes b) := by
    simp [payloadBytes]
  rw [happ, hpay]
  omega

/-- A buffer is always shorter than a header with the longest payload. -/
theorem run_buf_lt (tp : TlsParser) (segs : List Segment) (h : ∀ d, conn.buf d = []) (d : Direction) :
    ((conn.run tp segs).buf d).length < RECORD_HEADER_LEN + MAX_RECORD_PAYLOAD := by
  have hkeep : ∀ (segs : List Segment) (conn : TrackedConnection),
      (∀ d, (conn.buf d).length < RECORD_HEADER_LEN + MAX_RECORD_PAYLOAD) →
      ∀ d, ((conn.run tp segs).buf d).length < RECORD_HEADER_LEN + MAX_RECORD_PAYLOAD := by
    intro segs
    induction segs with
    | nil => exact fun conn h => h
    | cons seg segs ih =>
      intro conn h
      refine ih _ fun d => ?_
      by_cases hne : seg.payload = []
      · rw [step_of_nil hne]
        exact h d
      by_cases hf : conn.fails seg
      · obtain ⟨text, bytes, hbytes, hstep⟩ := step_of_fails tp hf
        rw [hstep, buf_setBuf, buf_errored]
        split_ifs
        · rcases hbytes with rfl | rfl
          · exact h _
          · exact Nat.zero_lt_succ _
        · exact h d
      · rw [step_buf hne hf]
        split_ifs
        · refine rest_length_lt ?_
          by_contra hstop
          exact hf (fails_iff.mpr ⟨hne, Or.inr hstop⟩)
        · exact h d
  exact hkeep segs conn (fun d => by rw [h d]; exact Nat.zero_lt_succ _) d

end TrackedConnection

end SeeHandshake

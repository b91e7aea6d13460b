import SeeHandshake.Proofs.TrackerProofs

/-!
# Proofs: what one segment does, and runs of segments

`ingest` has two error exits and one regular exit. `step_of_fails` and `step_of_not_fails` say what a
segment does to the connection; `run_history` is the induction rule for facts about the records
processed so far.
-/

namespace SeeHandshake

open Lib

variable {tp : TlsParser}

namespace TrackedConnection

@[simp] theorem setBuf_buf (conn : TrackedConnection) (d : Direction) :
    conn.setBuf d (conn.buf d) = conn := by
  cases d <;> rfl

@[simp] theorem buf_touched (conn : TrackedConnection) (t : UInt64) (d : Direction) :
    (conn.touched t).buf d = conn.buf d := by
  cases d <;> rfl

@[simp] theorem core_touched (conn : TrackedConnection) (t : UInt64) :
    (conn.touched t).core = conn.core := rfl

@[simp] theorem buf_errored (conn : TrackedConnection) (t : UInt64) (text : String) (d : Direction) :
    (conn.errored t text).buf d = conn.buf d := by
  cases d <;> rfl

@[simp] theorem ccsSeen_touched (conn : TrackedConnection) (t : UInt64) (d : Direction) :
    (conn.touched t).ccsSeen d = conn.ccsSeen d := by
  cases d <;> rfl

@[simp] theorem ccsSeen_errored (conn : TrackedConnection) (t : UInt64) (text : String)
    (d : Direction) : (conn.errored t text).ccsSeen d = conn.ccsSeen d := by
  cases d <;> rfl

/-! ## The three ways through `ingest` -/

section Ingest

variable {conn : TrackedConnection} {d : Direction} {payload : Bytes} {t : UInt64}

theorem ingest_overflow (h : (conn.buf d).length + payload.length > MAX_REASSEMBLY_BYTES) :
    conn.ingest tp d payload t =
      conn.errored t s!"reassembly buffer would exceed {MAX_REASSEMBLY_BYTES} bytes" := by
  unfold ingest
  simp only
  rw [if_pos (by cases d <;> exact h)]
  rfl

theorem ingest_oversized (h : ¬ (conn.buf d).length + payload.length > MAX_REASSEMBLY_BYTES)
    {n : ℕ} (hs : (recordSplitter.peel (conn.buf d ++ payload)).stop = some n) :
    conn.ingest tp d payload t =
      (conn.errored t (oversizedRecord n).toString).setBuf d [] := by
  have hp := parseRecords_of_stop_some hs
  have hbuf := buf_touched conn t d
  unfold touched at hbuf
  unfold ingest
  simp only [hbuf, hp]
  rw [if_neg h]
  rfl

theorem ingest_ok (h : ¬ (conn.buf d).length + payload.length > MAX_REASSEMBLY_BYTES)
    (hs : (recordSplitter.peel (conn.buf d ++ payload)).stop = none) :
    conn.ingest tp d payload t =
      ((recordSplitter.peel (conn.buf d ++ payload)).frames.map Prod.fst).foldl
        (processRecord tp d t)
        ((conn.touched t).setBuf d (recordSplitter.peel (conn.buf d ++ payload)).rest) := by
  have hp := parseRecords_of_stop_none hs
  have hbuf := buf_touched conn t d
  unfold touched at hbuf
  unfold ingest
  simp only [hbuf, hp, drop_consumed]
  rw [if_neg h]
  rfl

end Ingest

/-! ## One segment -/

section Step

variable {conn : TrackedConnection} {seg : Segment}

theorem step_of_nil (h : seg.payload = []) : conn.step tp seg = conn := by
  unfold step
  rw [h]
  rfl

theorem step_of_ne_nil (h : seg.payload ≠ []) :
    conn.step tp seg = conn.ingest tp seg.direction seg.payload seg.nowMs := by
  unfold step
  rw [if_neg (by simpa using h)]

/-- Empty segments have no effect. -/
theorem run_of_nil {segs : List Segment} (h : ∀ seg ∈ segs, seg.payload = []) :
    conn.run tp segs = conn := by
  induction segs with
  | nil => rfl
  | cons seg segs ih =>
    rw [run_cons, step_of_nil (h seg (by simp))]
    exact ih fun seg' hseg => h seg' (List.mem_cons_of_mem _ hseg)

theorem framed_of_nil (h : seg.payload = []) : conn.framed seg = [] := if_pos (Or.inl h)

theorem fails_iff :
    conn.fails seg ↔ seg.payload ≠ [] ∧ (conn.overflows seg ∨ (conn.peeled seg).stop ≠ none) := by
  unfold fails peeled
  rw [parseRecords_isOk_iff]

/-- A failing segment processes no record. -/
theorem framed_of_fails (h : conn.fails seg) : conn.framed seg = [] := by
  obtain ⟨hne, hcap | hstop⟩ := fails_iff.mp h
  · exact if_pos (Or.inr hcap)
  · unfold framed
    split_ifs
    · rfl
    · cases hs : (conn.peeled seg).stop with
      | none => exact absurd hs hstop
      | some n => rfl

/-- Any other nonempty segment peels the records off. -/
theorem framed_of_not_fails (hne : seg.payload ≠ []) (h : ¬ conn.fails seg) :
    conn.framed seg = (conn.peeled seg).frames := by
  rw [fails_iff] at h
  push Not at h
  obtain ⟨hcap, hstop⟩ := h hne
  unfold framed
  rw [if_neg (by simp [hne, hcap]), hstop]

/-- A failing segment sets the error, and keeps or clears the buffer of its direction. -/
theorem step_of_fails (tp : TlsParser) (h : conn.fails seg) :
    ∃ text bytes, (bytes = conn.buf seg.direction ∨ bytes = []) ∧
      conn.step tp seg = (conn.errored seg.nowMs text).setBuf seg.direction bytes := by
  obtain ⟨hne, hfail⟩ := fails_iff.mp h
  rw [step_of_ne_nil hne]
  by_cases hcap : conn.overflows seg
  · have hset : ∀ text, (conn.errored seg.nowMs text).setBuf seg.direction
        (conn.buf seg.direction) = conn.errored seg.nowMs text := fun text => by
      rw [← buf_errored conn seg.nowMs text, setBuf_buf]
    exact ⟨_, _, Or.inl rfl, by rw [ingest_overflow hcap, hset]⟩
  · obtain ⟨n, hn⟩ := Option.ne_none_iff_exists'.mp (hfail.resolve_left hcap)
    exact ⟨_, _, Or.inr rfl, ingest_oversized hcap hn⟩

/-- Any other nonempty segment keeps the remainder and processes the records. -/
theorem step_of_not_fails (hne : seg.payload ≠ []) (h : ¬ conn.fails seg) :
    conn.step tp seg =
      ((conn.framed seg).map Prod.fst).foldl (processRecord tp seg.direction seg.nowMs)
        ((conn.touched seg.nowMs).setBuf seg.direction (conn.peeled seg).rest) := by
  rw [framed_of_not_fails hne h, step_of_ne_nil hne]
  rw [fails_iff] at h
  push Not at h
  obtain ⟨hcap, hstop⟩ := h hne
  exact ingest_ok hcap hstop

end Step

/-! ## The record loop over several records -/

section Fold

variable (d : Direction) (t : UInt64)

theorem foldl_processRecord_core (rs : List TlsRecord) (conn : TrackedConnection) :
    (rs.foldl (processRecord tp d t) conn).core = rs.foldl (processRecord tp d 0) conn.core :=
  (List.foldl_hom core fun c r => (processRecord_core d t c r).symm).symm

@[simp] theorem foldl_processRecord_buf (d' : Direction) (rs : List TlsRecord)
    (conn : TrackedConnection) : (rs.foldl (processRecord tp d t) conn).buf d' = conn.buf d' := by
  induction rs generalizing conn with
  | nil => rfl
  | cons r rs ih => rw [List.foldl_cons, ih, processRecord_buf]

end Fold

section Step

variable {conn : TrackedConnection} {seg : Segment}

theorem midway_append (rs rs' : List TlsRecord) :
    conn.midway tp seg (rs ++ rs') =
      rs'.foldl (processRecord tp seg.direction seg.nowMs) (conn.midway tp seg rs) :=
  List.foldl_append

/-- What a segment that does not fail does to the core. -/
theorem step_core (h : ¬ conn.fails seg) :
    (conn.step tp seg).core =
      ((conn.framed seg).map Prod.fst).foldl (processRecord tp seg.direction 0) conn.core := by
  by_cases hne : seg.payload = []
  · rw [step_of_nil hne, framed_of_nil hne]
    rfl
  · rw [step_of_not_fails hne h, foldl_processRecord_core, core_setBuf, core_touched]

/-- What a nonempty segment that does not fail does to the buffers. -/
theorem step_buf (hne : seg.payload ≠ []) (h : ¬ conn.fails seg) (d : Direction) :
    (conn.step tp seg).buf d =
      if d = seg.direction then (conn.peeled seg).rest else conn.buf d := by
  rw [step_of_not_fails hne h, foldl_processRecord_buf, buf_setBuf, buf_touched]

/-- A segment leaves the buffer of the other direction alone. -/
theorem step_buf_of_ne (tp : TlsParser) {d : Direction} (hd : d ≠ seg.direction) :
    (conn.step tp seg).buf d = conn.buf d := by
  by_cases hne : seg.payload = []
  · rw [step_of_nil hne]
  by_cases hf : conn.fails seg
  · obtain ⟨text, bytes, -, hstep⟩ := step_of_fails tp hf
    rw [hstep, buf_setBuf, if_neg hd, buf_errored]
  · rw [step_buf hne hf, if_neg hd]

/-- The slices of the processed records and the new buffer make up the old buffer and the payload. -/
theorem framed_flatten (tp : TlsParser) (hne : seg.payload ≠ []) (h : ¬ conn.fails seg) :
    ((conn.framed seg).map Prod.snd).flatten ++ (conn.step tp seg).buf seg.direction =
      conn.buf seg.direction ++ seg.payload := by
  rw [framed_of_not_fails hne h, step_buf hne h, if_pos rfl]
  exact recordSplitter.peel_flatten _

end Step

/-! ## Records that arrive whole -/

theorem peel_encode (r : WireRecord) :
    recordSplitter.peel r.encode = ⟨[(r.toTlsRecord, r.encode)], [], none⟩ := by
  refine peel_of_cut ?_
  simpa using r.cut_encode []

section Sent

variable {conn : TrackedConnection} {x : Sent}

theorem peeled_segment (h : conn.buf x.direction = []) :
    conn.peeled x.segment = ⟨[(x.record.toTlsRecord, x.record.encode)], [], none⟩ := by
  show recordSplitter.peel (conn.buf x.direction ++ x.record.encode) = _
  rw [h, List.nil_append, peel_encode]

theorem not_fails_segment (h : conn.buf x.direction = []) : ¬ conn.fails x.segment := by
  have hle := x.record.payload_le
  have hlen := x.record.encode_length
  have hmax : MAX_RECORD_PAYLOAD = 16384 := rfl
  have hcap : MAX_REASSEMBLY_BYTES = 131072 := rfl
  have hhdr : RECORD_HEADER_LEN = 5 := rfl
  rw [fails_iff, peeled_segment h]
  rintro ⟨-, hover | hstop⟩
  · have hover' : (conn.buf x.direction).length + x.record.encode.length >
        MAX_REASSEMBLY_BYTES := hover
    rw [h, List.length_nil] at hover'
    omega
  · exact hstop rfl

theorem framed_segment (h : conn.buf x.direction = []) :
    conn.framed x.segment = [(x.record.toTlsRecord, x.record.encode)] := by
  rw [framed_of_not_fails x.record.encode_ne_nil (not_fails_segment h), peeled_segment h]

/-- A record that arrives whole, at an empty buffer, is processed at once. -/
theorem step_segment (tp : TlsParser) (h : conn.buf x.direction = []) :
    conn.step tp x.segment =
      processRecord tp x.direction x.nowMs (conn.touched x.nowMs) x.record.toTlsRecord := by
  have hbuf : (conn.touched x.nowMs).setBuf x.direction [] = conn.touched x.nowMs := by
    rw [← h, ← buf_touched conn x.nowMs, setBuf_buf]
  rw [step_of_not_fails x.record.encode_ne_nil (not_fails_segment h), framed_segment h,
    peeled_segment h]
  show processRecord tp x.direction x.nowMs ((conn.touched x.nowMs).setBuf x.direction []) _ = _
  rw [hbuf]

/-- Records that arrive whole leave empty buffers empty. -/
theorem buf_run_segments (xs : List Sent) (h : ∀ d, conn.buf d = []) (d : Direction) :
    (conn.run tp (xs.map Sent.segment)).buf d = [] := by
  induction xs generalizing conn with
  | nil => exact h d
  | cons x xs ih =>
    refine ih fun d' => ?_
    rw [step_segment tp (h x.direction), processRecord_buf, buf_touched]
    exact h d'

/-- Records that arrive whole are processed as they come. -/
theorem processed_segments (xs : List Sent) (h : ∀ d, conn.buf d = []) :
    processed tp conn (xs.map Sent.segment) =
      xs.map fun x => (x.direction, x.record.toTlsRecord, x.record.encode) := by
  induction xs generalizing conn with
  | nil => rfl
  | cons x xs ih =>
    have hstep : ∀ d, (conn.step tp x.segment).buf d = [] := buf_run_segments [x] h
    rw [List.map_cons, processed, framed_segment (h x.direction), ih hstep]
    rfl

end Sent

/-! ## Histories -/

/-- The record loop of one segment keeps a fact that every record keeps, in the states it goes
through. -/
theorem foldl_history {tp : TlsParser}
    {P : List (Direction × TlsRecord × Bytes) → TrackedConnection → Prop}
    {ok : TrackedConnection → Prop}
    (record : ∀ l conn d t r bytes, recordCut bytes = .frame r bytes.length → ok conn → P l conn →
      P (l ++ [(d, r, bytes)]) (processRecord tp d t conn r))
    (d : Direction) (t : UInt64) {frames : List (TlsRecord × Bytes)}
    {l : List (Direction × TlsRecord × Bytes)} {conn : TrackedConnection}
    (hcut : ∀ f ∈ frames, recordCut f.2 = .frame f.1 f.2.length)
    (hok : ∀ a f b, frames = a ++ f :: b →
      ok ((a.map Prod.fst).foldl (processRecord tp d t) conn)) (h : P l conn) :
    P (l ++ frames.map (d, ·)) ((frames.map Prod.fst).foldl (processRecord tp d t) conn) := by
  induction frames generalizing l conn with
  | nil => simpa using h
  | cons f frames ih =>
    have hfirst := record l conn d t f.1 f.2 (hcut f (by simp)) (hok [] f frames rfl) h
    have hrest := ih (fun g hg => hcut g (List.mem_cons_of_mem _ hg))
      (fun a g b heq => hok (f :: a) g b (by rw [heq, List.cons_append])) hfirst
    simpa using hrest

/-- The induction rule for a fact about the records processed so far and the state, in a run whose
states before each record are `ok`: it is kept by every record, by a fatal error, by the passage of
time, and does not depend on the buffers. -/
theorem run_history_of (tp : TlsParser)
    {P : List (Direction × TlsRecord × Bytes) → TrackedConnection → Prop}
    {ok : TrackedConnection → Prop}
    (record : ∀ l conn d t r bytes, recordCut bytes = .frame r bytes.length → ok conn → P l conn →
      P (l ++ [(d, r, bytes)]) (processRecord tp d t conn r))
    (error : ∀ l conn t text, P l conn → P l (conn.errored t text))
    (touch : ∀ l conn t, P l conn → P l (conn.touched t))
    (buffer : ∀ l conn d bytes, P l conn → P l (conn.setBuf d bytes)) {segs : List Segment}
    {l : List (Direction × TlsRecord × Bytes)} {conn : TrackedConnection}
    (hok : ∀ pre seg post a f b, segs = pre ++ seg :: post →
      (conn.run tp pre).framed seg = a ++ f :: b →
      ok ((conn.run tp pre).midway tp seg (a.map Prod.fst))) (h : P l conn) :
    P (l ++ processed tp conn segs) (conn.run tp segs) := by
  induction segs generalizing l conn with
  | nil => simpa [processed] using h
  | cons seg segs ih =>
    rw [processed, run_cons, ← List.append_assoc]
    refine ih (fun pre seg' post a f b heq hframed =>
      hok (seg :: pre) seg' post a f b (by rw [heq, List.cons_append]) hframed) ?_
    by_cases hne : seg.payload = []
    · rw [step_of_nil hne, framed_of_nil hne]
      simpa using h
    by_cases hf : conn.fails seg
    · obtain ⟨text, bytes, -, hstep⟩ := step_of_fails tp hf
      rw [hstep, framed_of_fails hf, List.map_nil, List.append_nil]
      exact buffer _ _ _ _ (error _ _ _ _ h)
    · rw [step_of_not_fails hne hf]
      refine foldl_history record _ _ ?_ ?_ (buffer _ _ _ _ (touch _ _ _ h))
      · rw [framed_of_not_fails hne hf]
        exact Cutter.cut_of_mem_frames (S := recordSplitter.toCutter) recordCut_take _
      · exact fun a f b hframed => hok [] seg segs a f b rfl hframed

/-- The induction rule for all runs. -/
theorem run_history (tp : TlsParser)
    {P : List (Direction × TlsRecord × Bytes) → TrackedConnection → Prop}
    (record : ∀ l conn d t r bytes, recordCut bytes = .frame r bytes.length → P l conn →
      P (l ++ [(d, r, bytes)]) (processRecord tp d t conn r))
    (error : ∀ l conn t text, P l conn → P l (conn.errored t text))
    (touch : ∀ l conn t, P l conn → P l (conn.touched t))
    (buffer : ∀ l conn d bytes, P l conn → P l (conn.setBuf d bytes)) (segs : List Segment)
    (l : List (Direction × TlsRecord × Bytes)) (conn : TrackedConnection) (h : P l conn) :
    P (l ++ processed tp conn segs) (conn.run tp segs) := by
  have hrecord : ∀ l conn d t r bytes, recordCut bytes = .frame r bytes.length → True → P l conn →
      P (l ++ [(d, r, bytes)]) (processRecord tp d t conn r) :=
    fun l conn d t r bytes hcut _ hP => record l conn d t r bytes hcut hP
  exact run_history_of tp hrecord error touch buffer (fun _ _ _ _ _ _ _ _ => trivial) h

end TrackedConnection

end SeeHandshake

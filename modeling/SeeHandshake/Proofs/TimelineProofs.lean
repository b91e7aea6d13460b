import SeeHandshake.Parser.Reference
import SeeHandshake.Proofs.SegmentProofs

/-!
# Proofs: the timeline

The timeline shows the eligible records of a connection as they arrived, from the first one on, and
never resumes once it has skipped one.
-/

namespace SeeHandshake

open Lib

variable {tp : TlsParser}

/-! ## Rebuilt bytes -/

theorem recordTypeByte_fromU8 (v : UInt8) : recordTypeByte (TlsRecordType.fromU8 v) = v := by
  unfold TlsRecordType.fromU8
  split <;> rfl

theorem u16OrMax_toNat {n : ℕ} (h : n ≤ MAX_RECORD_PAYLOAD) : (u16OrMax n).toNat = n := by
  have hmax : MAX_RECORD_PAYLOAD = 16384 := rfl
  unfold u16OrMax
  rw [if_pos (by omega), UInt16.toNat_ofNat']
  omega

/-- The bytes rebuilt from a decoded record are the bytes it was cut from. -/
theorem rawRecord_of_cut {bytes : Bytes} {r : TlsRecord}
    (h : recordCut bytes = .frame r bytes.length) : rawRecord r = bytes := by
  obtain ⟨ty, v1, v2, l1, l2, rest, rfl, hmax, hlen, rfl, hn⟩ := recordCut_eq_frame h
  have hrest : rest.length = (u16FromBe l1 l2).toNat := by
    simp only [List.length_cons, RECORD_HEADER_LEN] at hn
    omega
  have hword : u16OrMax rest.length = u16FromBe l1 l2 := by
    apply UInt16.toNat_inj.mp
    rw [u16OrMax_toNat (by omega), hrest]
  unfold rawRecord
  simp only
  rw [recordTypeByte_fromU8, List.take_of_length_le (by omega), hword, u16ToBe_u16FromBe,
    u16ToBe_u16FromBe]
  rfl

theorem payload_of_cut {bytes : Bytes} {r : TlsRecord}
    (h : recordCut bytes = .frame r bytes.length) :
    r.payload.length ≤ MAX_RECORD_PAYLOAD ∧ r.payload.length + RECORD_HEADER_LEN = bytes.length := by
  obtain ⟨ty, v1, v2, l1, l2, rest, rfl, hmax, hlen, rfl, hn⟩ := recordCut_eq_frame h
  simp only [List.length_take]
  omega

/-- A record is parsed back from its own bytes, all of them. -/
theorem parseRecords_of_cut {bytes : Bytes} {r : TlsRecord}
    (h : recordCut bytes = .frame r bytes.length) : parseRecords bytes = .ok ([r], bytes.length) := by
  rw [parseRecords_eq, peel_of_cut h]
  rfl

/-! ## Closed timelines -/

namespace TrackedConnection

variable {conn : TrackedConnection}

theorem not_logs_of_closed (h : conn.Closed) (d : Direction) (r : TlsRecord) :
    ¬ conn.logs d r := by
  unfold logs
  rcases h with h | h
  · simp [h]
  · simp [Nat.not_lt.mpr h]

/-- A closed timeline stays as it is, and closed. -/
theorem Closed.processRecord (h : conn.Closed) (d : Direction) (t : UInt64) (r : TlsRecord) :
    (processRecord tp d t conn r).Closed ∧
      (processRecord tp d t conn r).state.records = conn.state.records := by
  obtain ⟨hrec, -⟩ := processRecord_not_logged tp t (not_logs_of_closed h d r)
  refine ⟨?_, hrec⟩
  unfold Closed
  rw [hrec, processRecord_stopLogging]
  rcases h with h | h
  · exact Or.inl (by rw [h]; rfl)
  · exact Or.inr h

/-- An eligible record that is not logged finds the timeline closed or closes it. -/
theorem closed_of_not_logs {d : Direction} {r : TlsRecord} (he : r.recordType.eligible)
    (h : ¬ conn.logs d r) (t : UInt64) : (SeeHandshake.processRecord tp d t conn r).Closed := by
  obtain ⟨hrec, -⟩ := processRecord_not_logged tp t h
  unfold Closed
  rw [hrec, processRecord_stopLogging]
  by_cases hstop : conn.stopLogging
  · exact Or.inl (by rw [hstop]; rfl)
  by_cases hlen : RECORD_LOG_CAP ≤ conn.state.records.length
  · exact Or.inr hlen
  -- The timeline is open before the record: only an ApplicationData record can close it first.
  have hdata : r.recordType = .applicationData ∧ conn.stopsBefore d := by
    unfold logs at h
    simpa [he, hstop, Nat.not_le.mp hlen] using h
  refine Or.inl ?_
  unfold closes
  rw [hdata.1]
  simp [hdata.2]

/-- What closed timelines keep, whatever happens next. -/
theorem Closed.foldl (tp : TlsParser) (h : conn.Closed) (d : Direction) (t : UInt64) (rs : List TlsRecord) :
    (rs.foldl (SeeHandshake.processRecord tp d t) conn).Closed ∧
      (rs.foldl (SeeHandshake.processRecord tp d t) conn).state.records = conn.state.records := by
  induction rs generalizing conn with
  | nil => exact ⟨h, rfl⟩
  | cons r rs ih =>
    obtain ⟨hc, hr⟩ := h.processRecord d t r
    obtain ⟨hc', hr'⟩ := ih hc
    exact ⟨hc', hr'.trans hr⟩

theorem Closed.run (h : conn.Closed) (segs : List Segment) :
    (conn.run tp segs).Closed ∧ (conn.run tp segs).state.records = conn.state.records := by
  have hrule := run_history tp
    (P := fun _ c => c.Closed ∧ c.state.records = conn.state.records)
    (fun l c d t r bytes _ hc => by
      obtain ⟨hcl, hr⟩ := hc.1.processRecord d t r
      exact ⟨hcl, hr.trans hc.2⟩)
    (fun l c t text hc => hc) (fun l c t hc => hc)
    (fun l c d bytes hc => by cases d <;> exact hc) segs [] conn ⟨h, rfl⟩
  exact hrule

end TrackedConnection

/-! ## The timeline invariant -/

/-- What an event says about the bytes it shows. -/
def RecordEvent.Faithful (e : RecordEvent) : Prop :=
  ∃ r : TlsRecord, parseRecords e.raw = .ok ([r], e.raw.length) ∧ r.recordType = e.outerType ∧
    r.payload.length = e.outerLength.toNat

/-- The timeline of a connection that processed the records `l`. -/
structure TimelineInv (l : List (Direction × TlsRecord × Bytes)) (conn : TrackedConnection) :
    Prop where
  raw : conn.state.records.map RecordEvent.raw =
    (TrackedConnection.eligibleSlices l).take conn.state.records.length
  closed : conn.state.records.length < (TrackedConnection.eligibleSlices l).length → conn.Closed
  cap : conn.state.records.length ≤ RECORD_LOG_CAP
  seq : conn.seqCounter.toNat = conn.state.records.length
  sequence : ∀ i (h : i < conn.state.records.length),
    (conn.state.records[i]).sequence.toNat = i + 1
  faithful : ∀ e ∈ conn.state.records, e.Faithful

namespace TimelineInv

variable {l : List (Direction × TlsRecord × Bytes)} {conn conn' : TrackedConnection}

/-- The invariant reads the timeline, its counter and its flag only. -/
theorem congr (h : TimelineInv l conn) (hr : conn'.state.records = conn.state.records)
    (hs : conn'.seqCounter = conn.seqCounter) (hst : conn'.stopLogging = conn.stopLogging) :
    TimelineInv l conn' := by
  obtain ⟨hraw, hclosed, hcap, hseq, hsequence, hfaithful⟩ := h
  refine ⟨?_, ?_, ?_, ?_, ?_, ?_⟩
  · rw [hr]
    exact hraw
  · unfold TrackedConnection.Closed
    rw [hr, hst]
    exact hclosed
  · rw [hr]
    exact hcap
  · rw [hr, hs]
    exact hseq
  · rw [hr]
    exact hsequence
  · rw [hr]
    exact hfaithful

theorem created (key : ConnectionKey) (t : UInt64) (origin : Origin) :
    TimelineInv [] (TrackedConnection.created key t origin) where
  raw := rfl
  closed := fun h => absurd h (Nat.not_lt_zero _)
  cap := Nat.zero_le _
  seq := rfl
  sequence := fun _ h => absurd h (Nat.not_lt_zero _)
  faithful := fun _ he => absurd he List.not_mem_nil

end TimelineInv

theorem TlsRecord.event_faithful {r : TlsRecord} {bytes : Bytes}
    (h : recordCut bytes = .frame r bytes.length) (d : Direction) (t : UInt64) (seq : UInt32)
    (body : RecordBody) : (r.event d t seq body).Faithful := by
  obtain ⟨hle, -⟩ := payload_of_cut h
  refine ⟨r, ?_, rfl, (u16OrMax_toNat hle).symm⟩
  show parseRecords (rawRecord r) = .ok ([r], (rawRecord r).length)
  rw [rawRecord_of_cut h]
  exact parseRecords_of_cut h

theorem eligibleSlices_concat (l : List (Direction × TlsRecord × Bytes)) (d : Direction)
    (r : TlsRecord) (bytes : Bytes) :
    TrackedConnection.eligibleSlices (l ++ [(d, r, bytes)]) =
      TrackedConnection.eligibleSlices l ++ if r.recordType.eligible then [bytes] else [] := by
  unfold TrackedConnection.eligibleSlices
  cases h : r.recordType.eligible <;> simp [h]

theorem u32SaturatingSucc_toNat {n : UInt32} (h : n.toNat < 4294967295) :
    (u32SaturatingSucc n).toNat = n.toNat + 1 := by
  unfold u32SaturatingSucc
  have hne : n ≠ 4294967295 := by
    rintro rfl
    exact absurd h (by decide)
  rw [if_neg hne, UInt32.toNat_add]
  show (n.toNat + 1) % 4294967296 = n.toNat + 1
  omega

namespace TimelineInv

variable {l : List (Direction × TlsRecord × Bytes)} {conn : TrackedConnection} {r : TlsRecord}
  {bytes : Bytes}

theorem length_le (h : TimelineInv l conn) :
    conn.state.records.length ≤ (TrackedConnection.eligibleSlices l).length := by
  have hlen := congrArg List.length h.raw
  rw [List.length_map, List.length_take] at hlen
  omega

/-- As long as records are logged, everything eligible was logged so far. -/
theorem length_of_logs (h : TimelineInv l conn) {d : Direction} (hlog : conn.logs d r) :
    conn.state.records.length = (TrackedConnection.eligibleSlices l).length := by
  have hopen : ¬ conn.Closed := fun hc => TrackedConnection.not_logs_of_closed hc d r hlog
  have hlt := mt h.closed hopen
  have hle := h.length_le
  omega

theorem processRecord_of_logs (h : TimelineInv l conn)
    (hcut : recordCut bytes = .frame r bytes.length) (d : Direction) (t : UInt64)
    (hlog : conn.logs d r) : TimelineInv (l ++ [(d, r, bytes)]) (processRecord tp d t conn r) := by
  have he : r.recordType.eligible := by
    unfold TrackedConnection.logs at hlog
    simp only [Bool.and_eq_true] at hlog
    exact hlog.1.1.1
  have hopen : ¬ conn.Closed := fun hc => TrackedConnection.not_logs_of_closed hc d r hlog
  have hall := h.length_of_logs hlog
  have hroom : conn.state.records.length < RECORD_LOG_CAP :=
    Nat.not_le.mp fun hc => hopen (Or.inr hc)
  have hcap : RECORD_LOG_CAP = 64 := rfl
  have hslices : TrackedConnection.eligibleSlices (l ++ [(d, r, bytes)]) =
      TrackedConnection.eligibleSlices l ++ [bytes] := by
    rw [eligibleSlices_concat, if_pos he]
  obtain ⟨body, hrec, hseq⟩ := processRecord_logged tp t hlog
  have hsucc : (u32SaturatingSucc conn.seqCounter).toNat = conn.state.records.length + 1 := by
    rw [u32SaturatingSucc_toNat (by have := h.seq; omega), h.seq]
  refine ⟨?_, ?_, ?_, ?_, ?_, ?_⟩
  · rw [hrec, hslices, List.map_append, h.raw, List.length_append, List.take_of_length_le (by omega),
      List.take_of_length_le (by simp [hall])]
    exact congrArg (_ ++ [·]) (rawRecord_of_cut hcut)
  · intro hlt
    rw [hrec, hslices, List.length_append, List.length_append, hall] at hlt
    exact absurd hlt (Nat.lt_irrefl _)
  · rw [hrec, List.length_append, List.length_singleton]
    omega
  · rw [hrec, hseq, hsucc, List.length_append, List.length_singleton]
  · rw [hrec]
    intro i hi
    rw [List.length_append, List.length_singleton] at hi
    rw [List.getElem_append]
    split_ifs with hlt
    · exact h.sequence i hlt
    · have hii : i = conn.state.records.length := by omega
      simp only [hii, Nat.sub_self, List.getElem_cons_zero]
      exact hsucc
  · rw [hrec]
    intro e hmem
    rcases List.mem_append.mp hmem with hmem | hmem
    · exact h.faithful e hmem
    · rw [List.mem_singleton.mp hmem]
      exact TlsRecord.event_faithful hcut d t _ body

theorem processRecord_of_not_logs (h : TimelineInv l conn) (d : Direction) (t : UInt64)
    (hlog : ¬ conn.logs d r) :
    TimelineInv (l ++ [(d, r, bytes)]) (processRecord tp d t conn r) := by
  obtain ⟨hrec, hseq⟩ := processRecord_not_logged tp t hlog
  refine ⟨?_, ?_, ?_, ?_, ?_, ?_⟩
  · rw [hrec, eligibleSlices_concat, List.take_append_of_le_length h.length_le]
    exact h.raw
  · intro hlt
    by_cases he : r.recordType.eligible
    · exact TrackedConnection.closed_of_not_logs he hlog t
    · rw [hrec, eligibleSlices_concat, if_neg he, List.append_nil] at hlt
      rw [processRecord_of_not_eligible _ _ _ he]
      exact h.closed hlt
  · rw [hrec]
    exact h.cap
  · rw [hrec, hseq]
    exact h.seq
  · rw [hrec]
    exact h.sequence
  · rw [hrec]
    exact h.faithful

/-- One record keeps the invariant. -/
theorem processRecord (h : TimelineInv l conn) (hcut : recordCut bytes = .frame r bytes.length)
    (d : Direction) (t : UInt64) :
    TimelineInv (l ++ [(d, r, bytes)]) (processRecord tp d t conn r) := by
  by_cases hlog : conn.logs d r
  · exact h.processRecord_of_logs hcut d t hlog
  · exact h.processRecord_of_not_logs d t hlog

/-- A run keeps the invariant. -/
theorem run (h : TimelineInv l conn) (segs : List Segment) :
    TimelineInv (l ++ TrackedConnection.processed tp conn segs) (conn.run tp segs) := by
  refine TrackedConnection.run_history tp ?_ ?_ ?_ ?_ segs l conn h
  · exact fun l c d t r bytes hcut hc => hc.processRecord hcut d t
  · exact fun l c t text hc => hc.congr rfl rfl rfl
  · exact fun l c t hc => hc.congr rfl rfl rfl
  · exact fun l c d bytes hc => by cases d <;> exact hc.congr rfl rfl rfl

end TimelineInv

/-! ## Timeline fidelity -/

namespace TrackedConnection

variable {conn : TrackedConnection} {seg : Segment}

theorem records_prefix_processRecord (d : Direction) (t : UInt64) (r : TlsRecord) :
    conn.state.records <+: (SeeHandshake.processRecord tp d t conn r).state.records := by
  by_cases hlog : conn.logs d r
  · obtain ⟨body, hrec, -⟩ := processRecord_logged tp t hlog
    rw [hrec]
    exact List.prefix_append ..
  · have hrec := (processRecord_not_logged tp t hlog).1
    exact hrec ▸ List.prefix_refl _

/-- The timeline is append-only. -/
theorem records_prefix_run (segs : List Segment) :
    conn.state.records <+: (conn.run tp segs).state.records :=
  run_history tp (P := fun _ c => conn.state.records <+: c.state.records)
    (fun _ _ d t r _ _ hc => hc.trans (records_prefix_processRecord d t r))
    (fun _ _ _ _ hc => hc) (fun _ _ _ hc => hc)
    (fun _ _ d _ hc => by cases d <;> exact hc) segs [] conn (List.prefix_refl _)

/-- A segment that processes records is not empty and does not fail. -/
theorem of_framed_ne_nil (h : conn.framed seg ≠ []) : seg.payload ≠ [] ∧ ¬ conn.fails seg :=
  ⟨fun hnil => h (framed_of_nil hnil), fun hf => h (framed_of_fails hf)⟩

theorem step_eq_midway (h : conn.framed seg ≠ []) :
    conn.step tp seg = conn.midway tp seg ((conn.framed seg).map Prod.fst) :=
  step_of_not_fails (of_framed_ne_nil h).1 (of_framed_ne_nil h).2

/-- Once an eligible record is not logged, the timeline stays as it is. -/
theorem run_of_not_logged {a b : List (TlsRecord × Bytes)} {r : TlsRecord} {bytes : Bytes}
    (hframed : conn.framed seg = a ++ (r, bytes) :: b) (he : r.recordType.eligible)
    (hskip : (SeeHandshake.processRecord tp seg.direction seg.nowMs
      (conn.midway tp seg (a.map Prod.fst)) r).state.records =
        (conn.midway tp seg (a.map Prod.fst)).state.records) (post : List Segment) :
    (conn.run tp (seg :: post)).state.records =
      (conn.midway tp seg (a.map Prod.fst)).state.records := by
  set c := conn.midway tp seg (a.map Prod.fst) with hc
  have hlog : ¬ c.logs seg.direction r := by
    intro hlog
    obtain ⟨body, hrec, -⟩ := processRecord_logged tp seg.nowMs hlog
    rw [hrec] at hskip
    simpa using congrArg List.length hskip
  have hstep : conn.step tp seg = (b.map Prod.fst).foldl
      (SeeHandshake.processRecord tp seg.direction seg.nowMs)
      (SeeHandshake.processRecord tp seg.direction seg.nowMs c r) := by
    rw [step_eq_midway (by rw [hframed]; simp), hframed, List.map_append, midway_append, ← hc,
      List.map_cons, List.foldl_cons]
  obtain ⟨hcl, hrec⟩ := (closed_of_not_logs he hlog seg.nowMs).foldl tp
    seg.direction seg.nowMs (b.map Prod.fst)
  rw [run_cons, hstep, (hcl.run post).2, hrec, hskip]

end TrackedConnection

/-- Timeline fidelity: along every run of a new connection the timeline is append-only, holds at most
`RECORD_LOG_CAP` events with consecutive sequence numbers, and shows the bytes of the first eligible
records that framing peeled off the streams; once it skips an eligible record it never grows again. -/
theorem timeline_fidelity (tp : TlsParser) (key : ConnectionKey) (t : UInt64) (origin : Origin) :
    let start := TrackedConnection.created key t origin
    (∀ segs seg, (start.run tp segs).state.records <+:
      (start.run tp (segs ++ [seg])).state.records) ∧
    (∀ segs, (start.run tp segs).state.records.length ≤ RECORD_LOG_CAP ∧
      (∀ i (h : i < (start.run tp segs).state.records.length),
        ((start.run tp segs).state.records[i]).sequence.toNat = i + 1) ∧
      (start.run tp segs).state.records.map RecordEvent.raw =
        (TrackedConnection.eligibleSlices (start.processed tp segs)).take
          (start.run tp segs).state.records.length ∧
      ∀ e ∈ (start.run tp segs).state.records, e.Faithful) ∧
    (∀ segs seg, seg.payload ≠ [] → ¬ (start.run tp segs).fails seg →
      (((start.run tp segs).framed seg).map Prod.snd).flatten ++
          (start.run tp (segs ++ [seg])).buf seg.direction =
        (start.run tp segs).buf seg.direction ++ seg.payload) ∧
    (∀ pre seg post a r bytes b, (start.run tp pre).framed seg = a ++ (r, bytes) :: b →
      r.recordType.eligible →
      (processRecord tp seg.direction seg.nowMs
          ((start.run tp pre).midway tp seg (a.map Prod.fst)) r).state.records =
        ((start.run tp pre).midway tp seg (a.map Prod.fst)).state.records →
      (start.run tp (pre ++ seg :: post)).state.records =
        ((start.run tp pre).midway tp seg (a.map Prod.fst)).state.records) := by
  intro start
  refine ⟨fun segs seg => ?_, fun segs => ?_, fun segs seg hne hf => ?_,
    fun pre seg post a r bytes b hframed he hskip => ?_⟩
  · rw [TrackedConnection.run_append]
    exact TrackedConnection.records_prefix_run [seg]
  · have hinv : TimelineInv (start.processed tp segs) (start.run tp segs) :=
      (TimelineInv.created key t origin).run segs
    exact ⟨hinv.cap, hinv.sequence, hinv.raw, hinv.faithful⟩
  · rw [TrackedConnection.run_concat]
    exact TrackedConnection.framed_flatten tp hne hf
  · rw [TrackedConnection.run_append]
    exact TrackedConnection.run_of_not_logged hframed he hskip post

/-- The ApplicationData record that follows a ChangeCipherSpec of both directions is skipped, and so is
the ChangeCipherSpec after it. -/
theorem timeline_fidelity_closed :
    let start := TrackedConnection.created Reference.key 0 .unknown
    let pre := [Sent.of .clientToServer 20 [1], Sent.of .serverToClient 20 [1]].map Sent.segment
    let seg := (Sent.of .serverToClient 23 [7]).segment
    let post := [(Sent.of .clientToServer 20 [1]).segment]
    (start.run Reference.parser (pre ++ seg :: post)).state.records.map RecordEvent.raw =
      [[20, 3, 3, 0, 1, 1], [20, 3, 3, 0, 1, 1]] := by
  intro start pre seg post
  have hbuf : (start.run Reference.parser pre).buf .serverToClient = [] :=
    TrackedConnection.buf_run_segments _ (fun d => by cases d <;> rfl) _
  have hpeeled := TrackedConnection.peeled_segment (x := Sent.of .serverToClient 23 [7]) hbuf
  have hframed := TrackedConnection.framed_segment (x := Sent.of .serverToClient 23 [7]) hbuf
  have hmid : (start.run Reference.parser pre).midway Reference.parser seg [] =
      ((start.run Reference.parser pre).touched 0).setBuf .serverToClient [] := by
    unfold TrackedConnection.midway
    rw [hpeeled]
    rfl
  have hfid := (timeline_fidelity Reference.parser Reference.key 0 .unknown).2.2.2 pre seg post []
    _ _ [] hframed (by decide)
  rw [List.map_nil, hmid] at hfid
  rw [hfid (by decide)]
  decide

end SeeHandshake

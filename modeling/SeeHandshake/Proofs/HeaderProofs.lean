import SeeHandshake.Parser.Reference
import SeeHandshake.Proofs.ReceiverProofs

/-!
# Proofs: complete records before a malformed header

`parseRecords` returns no records when it meets an oversized header, also not the complete ones before
it. Such records survive exactly when the segment that completes the header brings no byte of them.
-/

namespace SeeHandshake

open Lib

variable {tp : TlsParser}

/-! ## Malformed headers -/

/-- A record header that declares more payload than the record layer permits. -/
def MalformedHeader (hdr : Bytes) : Prop :=
  ∃ ty v1 v2 l1 l2, hdr = [ty, v1, v2, l1, l2] ∧ (u16FromBe l1 l2).toNat > MAX_RECORD_PAYLOAD

namespace MalformedHeader

variable {hdr : Bytes}

theorem length (h : MalformedHeader hdr) : hdr.length = 5 := by
  obtain ⟨ty, v1, v2, l1, l2, rfl, -⟩ := h
  rfl

theorem ne_nil (h : MalformedHeader hdr) : hdr ≠ [] := by
  intro hnil
  have hlen := h.length
  rw [hnil] at hlen
  exact absurd hlen (by decide)

/-- The header is refused once it is complete. -/
theorem peel (h : MalformedHeader hdr) : ∃ n, (recordSplitter.peel hdr).stop = some n := by
  obtain ⟨ty, v1, v2, l1, l2, rfl, hlen⟩ := h
  have hcut : recordSplitter.cut [ty, v1, v2, l1, l2] = .bad (u16FromBe l1 l2).toNat := if_pos hlen
  exact ⟨_, by rw [Cutter.peel_bad hcut]⟩

/-- Before that, nothing is decided. -/
theorem peel_take {k : ℕ} (hk : k < 5) (hdr : Bytes) :
    recordSplitter.peel (hdr.take k) = ⟨[], hdr.take k, none⟩ := by
  have hlen : (hdr.take k).length < 5 := by
    rw [List.length_take]
    omega
  refine Cutter.peel_need ?_
  show recordCut (hdr.take k) = .need
  generalize hdr.take k = xs at hlen
  unfold recordCut
  split
  · simp only [List.length_cons] at hlen
    omega
  · rfl

end MalformedHeader

/-! ## Streams -/

theorem length_tagged (segs : List Segment) :
    (Receiver.tagged (segs.map Segment.chunk)).length =
      TrackedConnection.payloadBytes segs := by
  unfold TrackedConnection.payloadBytes
  induction segs with
  | nil => rfl
  | cons seg segs ih =>
    rw [List.map_cons, Receiver.tagged_cons, List.length_append, ih, List.length_map]
    simp [Segment.chunk]

/-- What processing records that arrive whole adds to the list of processed records. -/
def processedOf (recs : List Sent) : List (Direction × TlsRecord × Bytes) :=
  recs.map fun x => (x.direction, x.record.toTlsRecord, x.record.encode)

/-- The chunks of records that arrive whole. -/
def chunksOf (recs : List Sent) : List (Direction × Bytes) := recs.map fun x => x.segment.chunk

theorem length_tagged_chunksOf (recs : List Sent) :
    (Receiver.tagged (chunksOf recs)).length =
      TrackedConnection.processedBytes (processedOf recs) := by
  unfold chunksOf processedOf TrackedConnection.processedBytes
  induction recs with
  | nil => rfl
  | cons x recs ih =>
    rw [List.map_cons, Receiver.tagged_cons, List.length_append, ih, List.length_map,
      List.map_cons, List.map_cons, List.flatten_cons, List.length_append]
    rfl

theorem chunksOf_ne_nil (recs : List Sent) : ∀ c ∈ chunksOf recs, c.2 ≠ [] := by
  intro c hc
  obtain ⟨x, -, rfl⟩ := List.mem_map.mp hc
  exact x.record.encode_ne_nil

theorem chunks_ne_nil {segs : List Segment} (h : ∀ seg ∈ segs, seg.payload ≠ []) :
    ∀ c ∈ segs.map Segment.chunk, c.2 ≠ [] := by
  intro c hc
  obtain ⟨seg, hseg, rfl⟩ := List.mem_map.mp hc
  exact h seg hseg

namespace TrackedConnection

variable {conn : TrackedConnection} {recs : List Sent} {d : Direction} {hdr : Bytes}
  {init : List Segment} {last : Segment}

/-- The receiver refuses the header behind the records. -/
theorem feedAll_header (tp : TlsParser) (recs : List Sent) (d : Direction)
    (hbuf : ∀ d, conn.buf d = []) (hhdr : MalformedHeader hdr) :
    Receiver.feedAll recordSplitter (recordStep tp) (conn.receiver [])
      (chunksOf recs ++ [(d, hdr)]) = none := by
  obtain ⟨n, hn⟩ := hhdr.peel
  have hempty : (conn.receive tp recs).buf d = [] := buf_run_segments recs hbuf d
  rw [Receiver.feedAll_append, chunksOf, feedAll_receive recs hbuf, Option.bind_some,
    Receiver.feedAll_cons]
  unfold Receiver.feed receiver
  simp only [hempty, List.nil_append, hn, Option.bind_none]

/-- The receiver accepts the records and a proper part of the header. -/
theorem feedAll_take (hbuf : ∀ d, conn.buf d = []) {k : ℕ} (hk : k < 5) :
    Receiver.feedAll recordSplitter (recordStep tp) (conn.receiver [])
        (chunksOf recs ++ [(d, hdr.take k)]) =
      some ⟨((conn.receive tp recs).core, processedOf recs),
        Function.update (fun _ => []) d (hdr.take k)⟩ := by
  have hempty : (conn.receive tp recs).buf = fun _ => [] :=
    funext fun d => buf_run_segments recs hbuf d
  have hpeel := MalformedHeader.peel_take hk hdr
  rw [Receiver.feedAll_append, chunksOf, feedAll_receive recs hbuf, Option.bind_some,
    Receiver.feedAll_cons]
  unfold Receiver.feed receiver
  simp only [hempty, List.nil_append, hpeel]
  rfl

/-- A last segment of at most five bytes brings the end of the header. -/
theorem last_of_length_le (hhdr : MalformedHeader hdr) (hne : last.payload ≠ [])
    (hstream : Receiver.tagged ((init ++ [last]).map Segment.chunk) =
      Receiver.tagged (chunksOf recs ++ [(d, hdr)])) (hlen : last.payload.length ≤ 5) :
    last.direction = d ∧ last.payload = hdr.drop (5 - last.payload.length) ∧
      Receiver.tagged (init.map Segment.chunk) =
        Receiver.tagged (chunksOf recs ++ [(d, hdr.take (5 - last.payload.length))]) := by
  set k := 5 - last.payload.length with hk
  have hsplit : Receiver.tagged (chunksOf recs ++ [(d, hdr)]) =
      Receiver.tagged (chunksOf recs ++ [(d, hdr.take k)]) ++ (hdr.drop k).map (d, ·) := by
    simp only [Receiver.tagged_append, Receiver.tagged_cons, Receiver.tagged_nil, List.append_nil,
      List.append_assoc, ← List.map_append, List.take_append_drop]
  have hlast : Receiver.tagged ((init ++ [last]).map Segment.chunk) =
      Receiver.tagged (init.map Segment.chunk) ++ last.payload.map (last.direction, ·) := by
    simp [Segment.chunk]
  rw [hsplit, hlast] at hstream
  have hlens : (last.payload.map (last.direction, ·)).length =
      ((hdr.drop k).map ((d, ·) : UInt8 → Direction × UInt8)).length := by
    rw [List.length_map, List.length_map, List.length_drop, hhdr.length]
    omega
  obtain ⟨hinit, htail⟩ := List.append_inj' hstream hlens
  have hpay : last.payload = hdr.drop k := by
    simpa [List.map_map, Function.comp_def] using congrArg (List.map Prod.snd) htail
  refine ⟨?_, hpay, hinit⟩
  obtain ⟨x, xs, hx⟩ := List.exists_cons_of_ne_nil hne
  rw [← hpay, hx, List.map_cons, List.map_cons] at htail
  exact (Prod.mk.inj (List.cons.inj htail).1).1

/-- When the header is cut off within its five bytes, all records are processed before it. -/
theorem run_before_header (hbuf : ∀ d, conn.buf d = []) {k : ℕ} (hk : k < 5)
    (hhdr : MalformedHeader hdr) (hne : ∀ seg ∈ init, seg.payload ≠ [])
    (hcap : conn.WithinCap tp init)
    (hstream : Receiver.tagged (init.map Segment.chunk) =
      Receiver.tagged (chunksOf recs ++ [(d, hdr.take k)])) :
    (conn.run tp init).core = (conn.receive tp recs).core ∧
      conn.processed tp init = processedOf recs ∧ (conn.run tp init).buf d = hdr.take k := by
  have hfeed : Receiver.feedAll recordSplitter (recordStep tp) (conn.receiver [])
      (init.map Segment.chunk) =
        some ⟨((conn.receive tp recs).core, processedOf recs),
          Function.update (fun _ => []) d (hdr.take k)⟩ := by
    cases k with
    | zero =>
      rw [List.take_zero, Receiver.tagged_append] at hstream
      have hsame : Receiver.tagged (init.map Segment.chunk) = Receiver.tagged (chunksOf recs) := by
        rw [hstream]
        simp
      rw [Receiver.feedAll_congr (chunks_ne_nil hne) (chunksOf_ne_nil recs) hsame, chunksOf,
        feedAll_receive recs hbuf, List.take_zero, Function.update_eq_self]
      have hempty : (conn.receive tp recs).buf = fun _ => [] :=
        funext fun d => buf_run_segments recs hbuf d
      unfold receiver
      rw [hempty]
      rfl
    | succ k =>
      have htake : hdr.take (k + 1) ≠ [] := by
        simp [hhdr.ne_nil]
      rw [Receiver.feedAll_congr (chunks_ne_nil hne) ?_ hstream, feedAll_take hbuf hk]
      intro c hc
      rcases List.mem_append.mp hc with hc | hc
      · exact chunksOf_ne_nil recs c hc
      · rw [List.mem_singleton.mp hc]
        exact htake
  have hrun := feedAll_receiver hne hcap [] (by rw [hfeed]; rfl)
  rw [hfeed] at hrun
  unfold receiver at hrun
  obtain ⟨hstate, hbufs⟩ := Receiver.mk.inj (Option.some.inj hrun)
  obtain ⟨hcore, hlog⟩ := Prod.mk.inj hstate
  refine ⟨hcore.symm, hlog.symm, ?_⟩
  rw [← hbufs, Function.update_self]

/-- The header takes the error exit, whatever part of it is buffered. -/
theorem step_header (tp : TlsParser) (hhdr : MalformedHeader hdr) (conn : TrackedConnection)
    (seg : Segment) (hne : seg.payload ≠ []) (hcap : ¬ conn.overflows seg)
    (hwhole : conn.buf seg.direction ++ seg.payload = hdr) :
    ∃ n, (recordSplitter.peel hdr).stop = some n ∧ conn.fails seg ∧
      (conn.step tp seg).core = conn.core.errored 0 (oversizedRecord n).toString := by
  obtain ⟨n, hn⟩ := hhdr.peel
  have hstop : (conn.peeled seg).stop = some n := by
    unfold peeled
    rw [hwhole, hn]
  refine ⟨n, hn, fails_iff.mpr ⟨hne, Or.inr (by rw [hstop]; exact Option.some_ne_none n)⟩, ?_⟩
  rw [step_of_ne_nil hne, ingest_oversized hcap hstop, core_setBuf]
  rfl

/-- A segmentation that keeps the header to itself processes all records, and fails as if the header
had come alone. -/
theorem processed_of_header_apart (hbuf : ∀ d, conn.buf d = []) (hhdr : MalformedHeader hdr)
    (hne : ∀ seg ∈ init ++ [last], seg.payload ≠ [])
    (hstream : Receiver.tagged ((init ++ [last]).map Segment.chunk) =
      Receiver.tagged (chunksOf recs ++ [(d, hdr)]))
    (hcap : conn.WithinCap tp (init ++ [last])) (hlen : last.payload.length ≤ 5) (t : UInt64) :
    conn.processed tp (init ++ [last]) = processedOf recs ∧
      (conn.run tp (init ++ [last])).core =
        ((conn.receive tp recs).run tp [⟨d, hdr, t⟩]).core := by
  have hlast : last.payload ≠ [] := hne last (by simp)
  obtain ⟨hdir, hpay, hinit⟩ := last_of_length_le hhdr hlast hstream hlen
  have hpos := List.length_pos_iff.mpr hlast
  obtain ⟨hcore, hlog, hrest⟩ := run_before_header hbuf (by omega) hhdr
    (fun seg hseg => hne seg (List.mem_append_left _ hseg)) (AllSteps.of_append hcap) hinit
  have hwhole : (conn.run tp init).buf last.direction ++ last.payload = hdr := by
    rw [hdir, hrest]
    exact (congrArg (_ ++ ·) hpay).trans (List.take_append_drop _ _)
  obtain ⟨n, hn, hfails, hstep⟩ := step_header tp hhdr (conn.run tp init) last hlast
    (hcap init last [] rfl) hwhole
  -- The header alone, at the empty buffers behind the records.
  have hempty : (conn.receive tp recs).buf d = [] := buf_run_segments recs hbuf d
  have hfits : ¬ (conn.receive tp recs).overflows ⟨d, hdr, t⟩ := by
    unfold overflows
    simp only [hempty, hhdr.length]
    decide
  obtain ⟨n', hn', -, hstep'⟩ := step_header tp hhdr (conn.receive tp recs)
    ⟨d, hdr, t⟩ hhdr.ne_nil hfits (by simp only [hempty, List.nil_append])
  have hnn : n = n' := Option.some.inj (hn.symm.trans hn')
  refine ⟨?_, ?_⟩
  · rw [processed_append, hlog]
    simp [processed, framed_of_fails hfails]
  · rw [run_concat, hstep, hcore, hnn, ← hstep']
    rfl

/-- A stream of complete records and a header is five bytes longer than the records. -/
theorem payloadBytes_of_stream (hhdr : MalformedHeader hdr) {segs : List Segment}
    (hstream : Receiver.tagged (segs.map Segment.chunk) =
      Receiver.tagged (chunksOf recs ++ [(d, hdr)])) :
    payloadBytes segs = processedBytes (processedOf recs) + 5 := by
  have htotal := congrArg List.length hstream
  rw [length_tagged, Receiver.tagged_append, List.length_append, length_tagged_chunksOf] at htotal
  simpa only [Receiver.tagged_cons, Receiver.tagged_nil, List.append_nil, List.length_map,
    hhdr.length] using htotal

theorem bufferedBytes_of_empty (hbuf : ∀ d, conn.buf d = []) : conn.bufferedBytes = 0 := by
  unfold bufferedBytes
  rw [hbuf, hbuf]
  rfl

/-- A run that processes all records stays within the cap. -/
theorem withinCap_of_processed (hbuf : ∀ d, conn.buf d = []) (hhdr : MalformedHeader hdr)
    {segs : List Segment} (hne : ∀ seg ∈ segs, seg.payload ≠ [])
    (hstream : Receiver.tagged (segs.map Segment.chunk) =
      Receiver.tagged (chunksOf recs ++ [(d, hdr)]))
    (hall : conn.processed tp segs = processedOf recs) : conn.WithinCap tp segs := by
  rintro a seg b rfl hover
  change (conn.run tp a).overflows seg at hover
  have hseg := hne seg (by simp)
  have hbytes := run_bytes_of_fails (fails_iff.mpr ⟨hseg, Or.inl hover⟩) (b := b)
  have htotal := payloadBytes_of_stream hhdr hstream
  have hsmall := run_buf_lt tp a hbuf seg.direction
  have hmax : RECORD_HEADER_LEN + MAX_RECORD_PAYLOAD = 16389 := rfl
  have hbig : MAX_REASSEMBLY_BYTES = 131072 := rfl
  unfold overflows at hover
  rw [hall, bufferedBytes_of_empty hbuf] at hbytes
  omega

/-- If the last segment is longer than the header, the segments before it bring a part of the
records. -/
theorem tagged_prefix_of_long (hhdr : MalformedHeader hdr)
    (hstream : Receiver.tagged ((init ++ [last]).map Segment.chunk) =
      Receiver.tagged (chunksOf recs ++ [(d, hdr)])) (hlong : 5 < last.payload.length) :
    Receiver.tagged (init.map Segment.chunk) <+: Receiver.tagged (chunksOf recs) := by
  have htotal := payloadBytes_of_stream hhdr hstream
  have hpay : payloadBytes (init ++ [last]) = payloadBytes init + last.payload.length := by
    simp [payloadBytes]
  have hinit : Receiver.tagged (init.map Segment.chunk) <+:
      Receiver.tagged (chunksOf recs ++ [(d, hdr)]) := by
    rw [← hstream, List.map_append, Receiver.tagged_append]
    exact List.prefix_append ..
  have hrecs : Receiver.tagged (chunksOf recs) <+:
      Receiver.tagged (chunksOf recs ++ [(d, hdr)]) := by
    rw [Receiver.tagged_append]
    exact List.prefix_append ..
  refine List.prefix_of_prefix_length_le hinit hrecs ?_
  rw [length_tagged, length_tagged_chunksOf]
  omega

/-- Then the receiver accepts the segments before the last one, and since it refuses the whole stream,
the last one fails. -/
theorem fails_last_of_long (hbuf : ∀ d, conn.buf d = []) (hhdr : MalformedHeader hdr)
    (hne : ∀ seg ∈ init ++ [last], seg.payload ≠ []) (hcap : conn.WithinCap tp init)
    (hstream : Receiver.tagged ((init ++ [last]).map Segment.chunk) =
      Receiver.tagged (chunksOf recs ++ [(d, hdr)])) (hlong : 5 < last.payload.length) :
    (conn.run tp init).fails last := by
  have hlast : last.payload ≠ [] := hne last (by simp)
  have hinitne : ∀ seg ∈ init, seg.payload ≠ [] := fun seg hseg =>
    hne seg (List.mem_append_left _ hseg)
  have haccepts : (Receiver.feedAll recordSplitter (recordStep tp) (conn.receiver [])
      (chunksOf recs)).isSome := by
    rw [chunksOf, feedAll_receive recs hbuf]
    rfl
  have hsome := Receiver.feedAll_isSome_of_initial (chunks_ne_nil hinitne) (chunksOf_ne_nil recs)
    (tagged_prefix_of_long hhdr hstream hlong) haccepts
  have hrun := feedAll_receiver hinitne hcap [] hsome
  by_contra hf
  have hrefused := feedAll_header tp recs d hbuf hhdr
  have hne' : ∀ c ∈ chunksOf recs ++ [(d, hdr)], c.2 ≠ [] := by
    intro c hc
    rcases List.mem_append.mp hc with hc | hc
    · exact chunksOf_ne_nil recs c hc
    · rw [List.mem_singleton.mp hc]
      exact hhdr.ne_nil
  rw [← Receiver.feedAll_congr (chunks_ne_nil hne) hne' hstream, List.map_append,
    Receiver.feedAll_append, hrun, Option.bind_some, List.map_cons, List.map_nil,
    Receiver.feedAll_cons, feed_receiver hlast hf] at hrefused
  simp [Receiver.feedAll] at hrefused

/-- A run that processes all records has only the header, or a part of it, in its last segment. -/
theorem last_length_of_processed (hbuf : ∀ d, conn.buf d = []) (hhdr : MalformedHeader hdr)
    (hne : ∀ seg ∈ init ++ [last], seg.payload ≠ [])
    (hstream : Receiver.tagged ((init ++ [last]).map Segment.chunk) =
      Receiver.tagged (chunksOf recs ++ [(d, hdr)]))
    (hall : conn.processed tp (init ++ [last]) = processedOf recs) :
    last.payload.length ≤ 5 := by
  have hcap := withinCap_of_processed hbuf hhdr hne hstream hall
  by_contra hlong
  have hfails := fails_last_of_long hbuf hhdr hne (AllSteps.of_append hcap) hstream (by omega)
  -- The bytes of a failed segment are not among those of the processed records.
  have hbytes := run_bytes_of_fails hfails (b := [])
  have htotal := payloadBytes_of_stream hhdr hstream
  rw [hall, bufferedBytes_of_empty hbuf] at hbytes
  omega

end TrackedConnection

/-- Records before a malformed header: from a connection with empty buffers, a segmentation of
complete records and an oversized header processes all the records, and ends as if the header had come
in a separate later segment, iff no segment overflows the reassembly buffer and the last segment
brings nothing but the header or the end of it. -/
theorem records_before_header_iff (tp : TlsParser) (conn : TrackedConnection)
    (hbuf : ∀ d, conn.buf d = []) (recs : List Sent) (d : Direction) (hdr : Bytes)
    (hhdr : MalformedHeader hdr) (init : List Segment) (last : Segment)
    (hne : ∀ seg ∈ init ++ [last], seg.payload ≠ [])
    (hstream : Receiver.tagged ((init ++ [last]).map Segment.chunk) =
      Receiver.tagged (chunksOf recs ++ [(d, hdr)])) (t : UInt64) :
    (conn.processed tp (init ++ [last]) = processedOf recs ∧
      (conn.run tp (init ++ [last])).core =
        ((conn.receive tp recs).run tp [⟨d, hdr, t⟩]).core) ↔
      conn.WithinCap tp (init ++ [last]) ∧ last.payload.length ≤ 5 := by
  constructor
  · rintro ⟨hall, -⟩
    exact ⟨TrackedConnection.withinCap_of_processed hbuf hhdr hne hstream hall,
      TrackedConnection.last_length_of_processed hbuf hhdr hne hstream hall⟩
  · rintro ⟨hcap, hlen⟩
    exact TrackedConnection.processed_of_header_apart hbuf hhdr hne hstream hcap hlen t

/-- A ClientHello record, and the oversized header in a segment of its own. -/
theorem records_before_header_apart :
    let conn := TrackedConnection.created Reference.key 0 .unknown
    let x := Sent.of .clientToServer 22 Reference.clientHello13
    let hdr : Segment := ⟨.clientToServer, [22, 3, 3, 0xFF, 0xFF], 0⟩
    conn.processed Reference.parser [x.segment, hdr] = processedOf [x] := by
  intro conn x hdr
  have hhdr : MalformedHeader hdr.payload := ⟨22, 3, 3, 0xFF, 0xFF, rfl, by decide⟩
  exact ((records_before_header_iff Reference.parser conn (fun d => by cases d <;> rfl) [x]
    .clientToServer hdr.payload hhdr [x.segment] hdr (by decide) rfl 0).mpr
      ⟨by decide, by decide⟩).1

/-- The same bytes in one segment: the ClientHello is neither extracted nor logged. -/
theorem record_lost_before_header :
    let conn := TrackedConnection.created Reference.key 0 .unknown
    let x := Sent.of .clientToServer 22 Reference.clientHello13
    let hdr : Bytes := [22, 3, 3, 0xFF, 0xFF]
    let together := conn.run Reference.parser [⟨.clientToServer, x.record.encode ++ hdr, 0⟩]
    let apart := conn.run Reference.parser [x.segment, ⟨.clientToServer, hdr, 0⟩]
    together.state.handshake.cipherSuitesOffered = [] ∧ together.state.records = [] ∧
      apart.state.handshake.cipherSuitesOffered = [.aes128GcmSha256] ∧
      apart.state.records.length = 1 := by
  decide

end SeeHandshake

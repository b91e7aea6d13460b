import SeeHandshake.Proofs.BufferProofs
import SeeHandshake.Proofs.CiphertextProofs
import SeeHandshake.Proofs.FramingProofs

/-!
# Proofs: the two sides of a connection

The timeline shows of each side what that side sent, in order and from the first record on, however its stream
was cut into segments and however the two sides interleave. What a side sent is stated here and is not translated
from the source.
-/

namespace SeeHandshake

open Lib

/-- What an entry of the timeline tells of its record: the bytes, and the message if it was readable. -/
structure ShownRecord where
  raw : Bytes
  message : Option DecodedHandshake
  deriving DecidableEq, Repr

/-- The message of a record that was readable. -/
def RecordBody.message : RecordBody → Option DecodedHandshake
  | .handshake hs => some hs
  | .encryptedHandshake _ _ | .changeCipherSpec => none

def RecordEvent.shown (e : RecordEvent) : ShownRecord := ⟨e.raw, e.body.message⟩

/-- What a timeline shows of one side. -/
def sideOf (d : Direction) (events : List RecordEvent) : List ShownRecord :=
  (events.filter fun e => e.direction = toRecordDirection d).map RecordEvent.shown

/-- The records of one side among those that were processed. -/
def ofSide (d : Direction) (l : List (Direction × TlsRecord × Bytes)) : List TlsRecord :=
  (l.filter fun f => f.1 = d).map fun f => f.2.1

/-- Whether a ChangeCipherSpec is among the records of one side. -/
def hasCcs (rs : List TlsRecord) : Bool := rs.any fun r => r.recordType = .changeCipherSpec

/-- What there is to show of a record, which is readable if it is a handshake record with no ChangeCipherSpec
before it. -/
def TlsRecord.shown (r : TlsRecord) (ccs : Bool) : ShownRecord :=
  ⟨r.encode, if r.recordType = .handshake ∧ ¬ ccs then some (decodeHandshakeBody r.payload) else none⟩

/-- What there is to show of the records of one side, where `ccs` says whether a ChangeCipherSpec came before;
alerts and unknown records are left out. -/
def showable : Bool → List TlsRecord → List ShownRecord
  | _, [] => []
  | ccs, r :: rs =>
    let others := showable (ccs || decide (r.recordType = .changeCipherSpec)) rs
    if r.recordType.eligible then r.shown ccs :: others else others

/-- The bytes that one side brought. -/
def sideBytes (d : Direction) (segs : List Segment) : Bytes :=
  ((segs.filter fun seg => seg.direction = d).map Segment.payload).flatten

@[simp] theorem sideOf_nil (d : Direction) : sideOf d [] = [] := rfl

theorem sideOf_concat (d : Direction) (events : List RecordEvent) (e : RecordEvent) :
    sideOf d (events ++ [e]) = sideOf d events ++ if e.direction = toRecordDirection d then [e.shown] else [] := by
  unfold sideOf
  rw [List.filter_append, List.map_append]
  by_cases hd : e.direction = toRecordDirection d <;> simp [hd]

@[simp] theorem ofSide_nil (d : Direction) : ofSide d [] = [] := rfl

theorem ofSide_append (d : Direction) (l l' : List (Direction × TlsRecord × Bytes)) :
    ofSide d (l ++ l') = ofSide d l ++ ofSide d l' := by
  unfold ofSide
  rw [List.filter_append, List.map_append]

/-- The records of a segment are all of its side. -/
theorem ofSide_frames (d d' : Direction) (frames : List (TlsRecord × Bytes)) :
    ofSide d (frames.map (d', ·)) = if d' = d then frames.map Prod.fst else [] := by
  unfold ofSide
  by_cases hd : d' = d <;> simp [List.filter_map, Function.comp_def, hd]

theorem ofSide_concat (d d' : Direction) (l : List (Direction × TlsRecord × Bytes)) (r : TlsRecord)
    (bytes : Bytes) : ofSide d (l ++ [(d', r, bytes)]) = ofSide d l ++ if d' = d then [r] else [] :=
  (ofSide_append d l _).trans (congrArg _ (ofSide_frames d d' [(r, bytes)]))

theorem hasCcs_append (rs rs' : List TlsRecord) : hasCcs (rs ++ rs') = (hasCcs rs || hasCcs rs') := List.any_append

theorem showable_append (ccs : Bool) (rs rs' : List TlsRecord) :
    showable ccs (rs ++ rs') = showable ccs rs ++ showable (ccs || hasCcs rs) rs' := by
  induction rs generalizing ccs with
  | nil => simp [showable, hasCcs]
  | cons r rs ih =>
    have hcons : hasCcs (r :: rs) = (decide (r.recordType = .changeCipherSpec) || hasCcs rs) := rfl
    rw [List.cons_append, showable, showable, hcons, ih, Bool.or_assoc]
    by_cases hr : r.recordType.eligible
    · simp only [hr, if_true, List.cons_append]
    · simp only [hr, if_false, Bool.false_eq_true]

/-- A record after others is shown if the record loop looks at it. -/
theorem showable_concat (rs : List TlsRecord) (r : TlsRecord) :
    showable false (rs ++ [r]) =
      showable false rs ++ if r.recordType.eligible then [r.shown (hasCcs rs)] else [] := by
  rw [showable_append, Bool.false_or]
  rfl

theorem sideBytes_cons (d : Direction) (seg : Segment) (segs : List Segment) :
    sideBytes d (seg :: segs) = (if seg.direction = d then seg.payload else []) ++ sideBytes d segs := by
  unfold sideBytes
  by_cases hd : seg.direction = d <;> simp [hd]

/-! ## Streams -/

namespace TrackedConnection

variable {tp : TlsParser}

/-- The records that are processed of a side are those of its whole stream, framed at once. -/
theorem ofSide_processed {conn : TrackedConnection} (h : conn.Unframed) {d : Direction} {segs : List Segment}
    (hsize : ∀ seg ∈ segs, seg.direction = d → seg.payload.length ≤ 65535)
    (hstop : (recordSplitter.peel (conn.buf d ++ sideBytes d segs)).stop = none) :
    ofSide d (processed tp conn segs) =
      (recordSplitter.peel (conn.buf d ++ sideBytes d segs)).frames.map Prod.fst := by
  induction segs generalizing conn with
  | nil =>
    have hneed : recordSplitter.peel (conn.buf d ++ []) = ⟨[], conn.buf d ++ [], none⟩ :=
      Cutter.peel_need (by rw [List.append_nil]; exact h d)
    exact (congrArg (fun p => p.frames.map Prod.fst) hneed).symm
  | cons seg segs ih =>
    have hstep : (conn.step tp seg).Unframed := h.step seg
    have hnext := ih hstep (fun seg' hseg' => hsize seg' (List.mem_cons_of_mem _ hseg'))
    rw [processed, ofSide_append, ofSide_frames]
    rw [sideBytes_cons] at hstop ⊢
    by_cases hd : seg.direction = d
    swap
    · -- The segment is of the other side and leaves the buffer alone.
      rw [if_neg hd, List.nil_append] at hstop ⊢
      rw [step_buf_of_ne tp (Ne.symm hd)] at hnext
      rw [if_neg hd, List.nil_append, hnext hstop]
    rw [if_pos hd, ← List.append_assoc] at hstop ⊢
    rw [if_pos hd]
    by_cases hne : seg.payload = []
    · rw [step_of_nil hne] at hnext ⊢
      rw [hne, List.append_nil] at hstop ⊢
      rw [framed_of_nil hne, List.map_nil, List.nil_append, hnext hstop]
    have hpeeled : recordSplitter.peel (conn.buf d ++ seg.payload) = conn.peeled seg := by
      unfold peeled
      rw [hd]
    have hnone : (conn.peeled seg).stop = none := by
      rw [← hpeeled]
      exact Splitter.stop_none_of_append hstop
    have hfits := h.not_overflows (hsize seg List.mem_cons_self hd)
    have hok : ¬ conn.fails seg := by
      rw [fails_iff]
      rintro ⟨-, hover | hbad⟩
      · exact hfits hover
      · exact hbad hnone
    have hbuf : (conn.step tp seg).buf d = (conn.peeled seg).rest := by
      rw [step_buf hne hok, if_pos hd.symm]
    rw [Splitter.peel_append, hpeeled, hnone] at hstop ⊢
    simp only at hstop ⊢
    rw [hbuf] at hnext
    rw [framed_of_not_fails hne hok, hnext hstop, List.map_append]

/-! ## What is shown of a side -/

/-- An encrypted record of the client is counted once the server has sent one. -/
theorem applyEncryptedRecord_fromClient (conn : TrackedConnection) (d : Direction) :
    (applyEncryptedRecord conn d).encryptedRecordsFromClient = conn.encryptedRecordsFromClient ∨
      d = .clientToServer ∧ conn.encryptedRecordsFromServer ≠ 0 ∧
        (applyEncryptedRecord conn d).encryptedRecordsFromClient = conn.encryptedRecordsFromClient + 1 := by
  by_cases h12 : isTls12 conn.state.handshake.tlsVersion
  · exact .inl (flight_eq_iff.mp (applyEncryptedRecord_tls12 h12 d).1).2.1
  cases d with
  | serverToClient => exact .inl (flight_eq_iff.mp (applyEncryptedRecord_server h12).1).2.1
  | clientToServer =>
    by_cases hserver : conn.encryptedRecordsFromServer = 0
    · exact .inl (by rw [applyEncryptedRecord_early h12 hserver])
    · have hpos := UInt32.pos_iff_ne_zero.mpr hserver
      exact .inr ⟨rfl, hserver, (flight_eq_iff.mp (applyEncryptedRecord_client h12 hpos).1).2.1⟩

theorem applyEncryptedRecord_fromServer (conn : TrackedConnection) :
    (applyEncryptedRecord conn .clientToServer).encryptedRecordsFromServer = conn.encryptedRecordsFromServer := by
  by_cases h12 : isTls12 conn.state.handshake.tlsVersion
  · exact (flight_eq_iff.mp (applyEncryptedRecord_tls12 h12 .clientToServer).1).1
  by_cases hserver : conn.encryptedRecordsFromServer = 0
  · rw [applyEncryptedRecord_early h12 hserver]
  · exact (flight_eq_iff.mp (applyEncryptedRecord_client h12 (UInt32.pos_iff_ne_zero.mpr hserver)).1).1

/-- Nothing of the side was processed yet that could close the timeline. -/
structure Unheard (d : Direction) (conn : TrackedConnection) : Prop where
  ccs : conn.ccsSeen d = false
  stopLogging : conn.stopLogging = false
  fromClient : conn.encryptedRecordsFromClient = 0
  fromServer : d = .serverToClient → conn.encryptedRecordsFromServer = 0

namespace Unheard

variable {d : Direction} {conn : TrackedConnection}

theorem bothCcsSeen (h : Unheard d conn) : conn.bothCcsSeen = false := by
  have hccs := h.ccs
  unfold TrackedConnection.bothCcsSeen
  cases d <;> simp_all [ccsSeen]

theorem stopsBefore (h : Unheard d conn) (d' : Direction) : conn.stopsBefore d' = false := by
  unfold TrackedConnection.stopsBefore
  rw [h.bothCcsSeen, Bool.or_false, decide_eq_false_iff_not]
  rcases applyEncryptedRecord_fromClient conn d' with hsame | ⟨-, -, hnext⟩
  · rw [hsame, h.fromClient]
    decide
  · rw [hnext, h.fromClient]
    decide

/-- The first record of a side is logged if the timeline has room for it. -/
theorem logs (h : Unheard d conn) {r : TlsRecord} (he : r.recordType.eligible)
    (hroom : conn.state.records.length < RECORD_LOG_CAP) : conn.logs d r := by
  unfold TrackedConnection.logs
  rw [he, h.stopLogging, h.stopsBefore]
  simpa using hroom

/-- A record of the other side leaves the side unheard. -/
theorem processRecord (h : Unheard d conn) {d' : Direction} (hd : d' ≠ d) (t : UInt64) (r : TlsRecord) :
    Unheard d (SeeHandshake.processRecord tp d' t conn r) := by
  have hflight := processRecord_flight tp d' t conn r
  have hcounts : (SeeHandshake.processRecord tp d' t conn r).encryptedRecordsFromClient = 0 ∧
      (d = .serverToClient →
        (SeeHandshake.processRecord tp d' t conn r).encryptedRecordsFromServer = 0) := by
    split_ifs at hflight with hdata
    · obtain ⟨hserver, hclient, -⟩ := flight_eq_iff.mp hflight
      rw [hclient, hserver]
      rcases applyEncryptedRecord_fromClient conn d' with hsame | ⟨rfl, hpos, -⟩
      · refine ⟨hsame.trans h.fromClient, ?_⟩
        rintro rfl
        cases d' with
        | clientToServer => rw [applyEncryptedRecord_fromServer, h.fromServer rfl]
        | serverToClient => exact absurd rfl hd
      · cases d with
        | clientToServer => exact absurd rfl hd
        | serverToClient => exact absurd (h.fromServer rfl) hpos
    · obtain ⟨hserver, hclient, -⟩ := flight_eq_iff.mp hflight
      rw [hclient, hserver]
      exact ⟨h.fromClient, h.fromServer⟩
  refine ⟨?_, ?_, hcounts.1, hcounts.2⟩
  · rw [processRecord_ccsSeen, h.ccs, decide_eq_false (Ne.symm hd), Bool.and_false]
    rfl
  · rw [processRecord_stopLogging, h.stopLogging, Bool.false_or]
    unfold closes stopsAfter
    rw [h.stopsBefore, h.bothCcsSeen]
    cases r.recordType <;> simp

end Unheard

/-- What the timeline shows of a side whose records `rs` were processed: all of it while the timeline is open,
and its beginning since; the first record unless the timeline is full. -/
structure Retold (d : Direction) (rs : List TlsRecord) (conn : TrackedConnection) : Prop where
  ccs : conn.ccsSeen d = hasCcs rs
  side : sideOf d conn.state.records <+: showable false rs
  all : ¬ conn.Closed → sideOf d conn.state.records = showable false rs
  unheard : showable false rs = [] → Unheard d conn
  first : showable false rs ≠ [] → sideOf d conn.state.records = [] →
    RECORD_LOG_CAP ≤ conn.state.records.length

namespace Retold

variable {d : Direction} {rs : List TlsRecord} {conn : TrackedConnection}

theorem created (d : Direction) (key : ConnectionKey) (t : UInt64) (origin : Origin) :
    Retold d [] (TrackedConnection.created key t origin) where
  ccs := by cases d <;> rfl
  side := List.nil_prefix
  all _ := rfl
  unheard _ := ⟨by cases d <;> rfl, rfl, rfl, fun _ => rfl⟩
  first h := absurd rfl h

/-- The entry of a record that is logged shows what there is to show. -/
theorem shown_event {r : TlsRecord} {bytes : Bytes} (hcut : recordCut bytes = .frame r bytes.length)
    (hccs : conn.ccsSeen d = hasCcs rs) (t : UInt64) (sequence : UInt32) :
    (r.event d t sequence (buildBody r d
      (if r.recordType = .applicationData then applyEncryptedRecord conn d else conn))).shown =
        r.shown (hasCcs rs) := by
  have hbytes : r.encode = bytes := by
    have hwrite := TlsRecord.framing.write_of_cut bytes r bytes.length hcut
    rwa [List.take_length] at hwrite
  have hraw : rawRecord r = r.encode := by rw [rawRecord_of_cut hcut, hbytes]
  unfold RecordEvent.shown TlsRecord.event TlsRecord.shown
  simp only [ShownRecord.mk.injEq]
  refine ⟨hraw, ?_⟩
  unfold buildBody
  cases hr : r.recordType with
  | handshake =>
    rw [← hccs]
    cases hseen : conn.ccsSeen d <;> simp [hseen, RecordBody.message]
  | applicationData | changeCipherSpec | alert | other v => simp [RecordBody.message]

/-- A record of the other side leaves what is shown of the side alone. -/
theorem other (h : Retold d rs conn) {d' : Direction} (hd : d' ≠ d) (t : UInt64) (r : TlsRecord) :
    Retold d rs (SeeHandshake.processRecord tp d' t conn r) := by
  have hside : sideOf d (SeeHandshake.processRecord tp d' t conn r).state.records =
      sideOf d conn.state.records := by
    by_cases hlog : conn.logs d' r
    · have hne : toRecordDirection d' ≠ toRecordDirection d := by
        cases d <;> cases d' <;> simp_all [toRecordDirection]
      rw [processRecord_entry tp hlog t, sideOf_concat]
      exact (congrArg _ (if_neg hne)).trans (List.append_nil _)
    · rw [(processRecord_not_logged tp t hlog).1]
  have hkept : conn.state.records <+: (SeeHandshake.processRecord tp d' t conn r).state.records :=
    records_prefix_processRecord d' t r
  have hlength := hkept.length_le
  refine ⟨?_, ?_, ?_, fun hnil => (h.unheard hnil).processRecord hd t r, ?_⟩
  · rw [processRecord_ccsSeen, h.ccs, decide_eq_false (Ne.symm hd), Bool.and_false, Bool.or_false]
  · rw [hside]
    exact h.side
  · rw [hside]
    exact fun hopen => h.all fun hclosed => hopen (hclosed.processRecord d' t r).1
  · rw [hside]
    exact fun hne hnil => (h.first hne hnil).trans hlength

/-- A record of the side is shown next, as long as the timeline is open. -/
theorem own (h : Retold d rs conn) {r : TlsRecord} {bytes : Bytes} (hcut : recordCut bytes = .frame r bytes.length)
    (t : UInt64) : Retold d (rs ++ [r]) (SeeHandshake.processRecord tp d t conn r) := by
  have hccs : (SeeHandshake.processRecord tp d t conn r).ccsSeen d = hasCcs (rs ++ [r]) := by
    rw [processRecord_ccsSeen, h.ccs, hasCcs_append]
    simp [hasCcs]
  by_cases he : r.recordType.eligible
  swap
  · have hsame : showable false (rs ++ [r]) = showable false rs := by
      rw [showable_concat, if_neg he, List.append_nil]
    rw [processRecord_of_not_eligible _ _ _ he] at hccs ⊢
    refine ⟨hccs, ?_, ?_, ?_, ?_⟩ <;> rw [hsame]
    · exact h.side
    · exact h.all
    · exact h.unheard
    · exact h.first
  have hnext : showable false (rs ++ [r]) = showable false rs ++ [r.shown (hasCcs rs)] := by
    rw [showable_concat, if_pos he]
  have hne : showable false (rs ++ [r]) ≠ [] := by
    rw [hnext]
    exact List.append_ne_nil_of_right_ne_nil _ (List.cons_ne_nil _ _)
  by_cases hlog : conn.logs d r
  · have hopen : ¬ conn.Closed := fun hclosed => not_logs_of_closed hclosed d r hlog
    have hside : sideOf d (SeeHandshake.processRecord tp d t conn r).state.records = showable false (rs ++ [r]) := by
      rw [processRecord_entry tp hlog t, sideOf_concat, h.all hopen, hnext]
      exact congrArg _ ((if_pos rfl).trans (congrArg (fun x => [x]) (shown_event hcut h.ccs t _)))
    refine ⟨hccs, ?_, fun _ => hside, fun hnil => absurd hnil hne, fun _ hnil => ?_⟩
    · rw [hside]
    · rw [hside] at hnil
      exact absurd hnil hne
  · have hsame := (processRecord_not_logged tp t hlog).1
    refine ⟨hccs, ?_, fun hopen => absurd (closed_of_not_logs he hlog t) hopen, fun hnil => absurd hnil hne, ?_⟩
    · rw [hsame, hnext]
      exact h.side.trans (List.prefix_append _ _)
    · rw [hsame]
      intro _ hnil
      by_cases hfirst : showable false rs = []
      · by_contra hroom
        exact hlog ((h.unheard hfirst).logs he (Nat.not_le.mp hroom))
      · exact h.first hfirst hnil

/-- Only the timeline, its flag, the ChangeCipherSpec of the side and the counters are read. -/
theorem congr {conn' : TrackedConnection} (h : Retold d rs conn) (hrecords : conn'.state.records = conn.state.records)
    (hccs : conn'.ccsSeen d = conn.ccsSeen d) (hstop : conn'.stopLogging = conn.stopLogging)
    (hflight : conn'.flight = conn.flight) : Retold d rs conn' := by
  obtain ⟨hserver, hclient, -⟩ := flight_eq_iff.mp hflight
  have hclosed : conn'.Closed ↔ conn.Closed := by
    unfold Closed
    rw [hstop, hrecords]
  refine ⟨hccs.trans h.ccs, ?_, ?_, ?_, ?_⟩
  · rw [hrecords]
    exact h.side
  · rw [hrecords, hclosed]
    exact h.all
  · intro hnil
    have hold := h.unheard hnil
    exact ⟨hccs.trans hold.ccs, hstop.trans hold.stopLogging, hclient.trans hold.fromClient,
      fun hd => hserver.trans (hold.fromServer hd)⟩
  · rw [hrecords]
    exact h.first

/-- Every run retells both sides. -/
theorem run (d : Direction) (key : ConnectionKey) (t : UInt64) (origin : Origin) (segs : List Segment) :
    Retold d (ofSide d (processed tp (.created key t origin) segs))
      ((TrackedConnection.created key t origin).run tp segs) := by
  refine run_history tp (P := fun l conn => Retold d (ofSide d l) conn) ?_ ?_ ?_ ?_ segs []
    (.created key t origin) (.created d key t origin)
  · intro l conn d' t r bytes hcut h
    rw [ofSide_concat]
    by_cases hd : d' = d
    · subst hd
      rw [if_pos rfl]
      exact h.own hcut t
    · rw [if_neg hd, List.append_nil]
      exact h.other hd t r
  · intro l conn t text h
    exact h.congr rfl (ccsSeen_errored conn t text d) rfl rfl
  · intro l conn t h
    exact h.congr rfl (ccsSeen_touched conn t d) rfl rfl
  · intro l conn d' bytes h
    have hccs := ccsSeen_setBuf conn d' d bytes
    cases d' <;> exact h.congr rfl hccs rfl rfl

end Retold

/-- The timeline of a connection tells of a side what that side sent, however it was cut into segments and however
the other side interleaves with it: the first records, and at least one unless the timeline is full. -/
theorem sideOf_run {d : Direction} (key : ConnectionKey) (t : UInt64) (origin : Origin) {segs : List Segment}
    (hsize : ∀ seg ∈ segs, seg.direction = d → seg.payload.length ≤ 65535) {rs : List TlsRecord} {tail : Bytes}
    (hrs : ∀ r ∈ rs, r.Fits) (htail : Incomplete tail)
    (hsent : sideBytes d segs = TlsRecord.framing.writeAll rs ++ tail) :
    let events := ((TrackedConnection.created key t origin).run tp segs).state.records
    sideOf d events <+: showable false rs ∧
      (showable false rs ≠ [] → sideOf d events = [] → RECORD_LOG_CAP ≤ events.length) := by
  have hfresh : (TrackedConnection.created key t origin).buf d = [] := by cases d <;> rfl
  obtain ⟨hframes, -, hstop⟩ := Framing.peel_of_need hrs (recordCut_eq_need_iff.mpr htail) hsent
  have hunframed : (TrackedConnection.created key t origin).Unframed := .created key t origin
  have hprocessed : ofSide d (processed tp (.created key t origin) segs) =
      (recordSplitter.peel ((TrackedConnection.created key t origin).buf d ++ sideBytes d segs)).frames.map Prod.fst :=
    ofSide_processed hunframed hsize (by rw [hfresh]; exact hstop)
  rw [hfresh, List.nil_append] at hprocessed
  have hretold : Retold d (ofSide d (processed tp (.created key t origin) segs)) _ := Retold.run d key t origin segs
  rw [hprocessed.trans hframes] at hretold
  exact ⟨hretold.side, hretold.first⟩

end TrackedConnection

end SeeHandshake

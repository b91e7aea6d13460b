import SeeHandshake.Lib.Framing
import SeeHandshake.Parser.Encode
import SeeHandshake.Proofs.RecordProofs

/-!
# Proofs: `parseRecords` frames exactly and greedily

The record layer as a framing: what `parseRecords` returns is the one way to split the buffer into
complete records and a remainder that starts with none.
-/

namespace SeeHandshake

open Lib

/-- The byte of a record type. -/
def TlsRecordType.code : TlsRecordType → UInt8
  | .changeCipherSpec => 20
  | .alert => 21
  | .handshake => 22
  | .applicationData => 23
  | .other v => v

theorem TlsRecordType.code_fromU8 (v : UInt8) : (TlsRecordType.fromU8 v).code = v := by
  unfold TlsRecordType.fromU8
  split <;> rfl

namespace TlsRecord

/-- The bytes of a record: the type, the version, and the payload behind its length. -/
def encode (r : TlsRecord) : Bytes :=
  r.recordType.code :: (u16ToBe r.legacyVersion ++ vec16 r.payload)

/-- The type is the one of its byte, and the payload fits the record layer. -/
def Fits (r : TlsRecord) : Prop :=
  TlsRecordType.fromU8 r.recordType.code = r.recordType ∧ r.payload.length ≤ MAX_RECORD_PAYLOAD

instance (r : TlsRecord) : Decidable r.Fits := inferInstanceAs (Decidable (_ ∧ _))

/-- A record that fits is what some record on the wire parses to. -/
theorem Fits.exists_wire {r : TlsRecord} (h : r.Fits) :
    ∃ w : WireRecord, w.toTlsRecord = r ∧ w.encode = r.encode := by
  obtain ⟨type, version, payload⟩ := r
  obtain ⟨htype, hpayload⟩ := h
  refine ⟨⟨type.code, version, payload, hpayload⟩, ?_, ?_⟩
  · simp only at htype
    simp only [WireRecord.toTlsRecord, htype]
  · simp only [WireRecord.encode, encode, vec16, List.append_assoc]

/-- The loop of `parseRecords` as a framing. -/
def framing : Framing UInt8 TlsRecord ℕ where
  toCutter := recordSplitter.toCutter
  write := encode
  Fits := Fits
  cut_write := by
    intro r rest h
    obtain ⟨w, rfl, henc⟩ := h.exists_wire
    rw [← henc]
    exact w.cut_encode rest
  fits_of_cut := by
    intro xs r n h
    obtain ⟨ty, v1, v2, l1, l2, rest, -, hmax, -, rfl, -⟩ := recordCut_eq_frame h
    refine ⟨congrArg TlsRecordType.fromU8 (TlsRecordType.code_fromU8 ty), ?_⟩
    simp only [List.length_take]
    omega
  write_of_cut := by
    intro xs r n h
    obtain ⟨ty, v1, v2, l1, l2, rest, rfl, -, hlen, rfl, rfl⟩ := recordCut_eq_frame h
    have htake : (rest.take (u16FromBe l1 l2).toNat).length = (u16FromBe l1 l2).toNat := by
      rw [List.length_take]
      omega
    rw [encode, TlsRecordType.code_fromU8, vec16_of_length htake, u16ToBe_u16FromBe,
      RECORD_HEADER_LEN, Nat.add_comm]
    rfl

end TlsRecord

/-- The length that the header at the front of a byte string declares. -/
def declaredLength : Bytes → Option ℕ
  | _ :: _ :: _ :: l1 :: l2 :: _ => some (u16FromBe l1 l2).toNat
  | _ => none

theorem declaredLength_eq_none_iff : ∀ {xs : Bytes},
    declaredLength xs = none ↔ xs.length < RECORD_HEADER_LEN
  | [] | [_] | [_, _] | [_, _, _] | [_, _, _, _] => by simp [declaredLength, RECORD_HEADER_LEN]
  | _ :: _ :: _ :: _ :: _ :: _ => by simp [declaredLength, RECORD_HEADER_LEN]

/-- The byte string is shorter than a header, or its header declares a permitted payload that is not
complete. -/
def Incomplete (xs : Bytes) : Prop :=
  xs.length < RECORD_HEADER_LEN ∨
    ∃ n, declaredLength xs = some n ∧ n ≤ MAX_RECORD_PAYLOAD ∧ xs.length < RECORD_HEADER_LEN + n

/-- The header of the byte string declares too long a payload. -/
def Oversized (xs : Bytes) (n : ℕ) : Prop := declaredLength xs = some n ∧ MAX_RECORD_PAYLOAD < n

theorem recordCut_eq_need_iff {xs : Bytes} : recordCut xs = .need ↔ Incomplete xs := by
  unfold Incomplete
  rw [← declaredLength_eq_none_iff]
  unfold recordCut declaredLength
  split
  · simp only [reduceCtorEq, false_or, Option.some.injEq, exists_eq_left', List.length_cons,
      RECORD_HEADER_LEN]
    split_ifs with hmax hlen
    · exact iff_of_false (by simp) (by omega)
    · exact iff_of_true rfl (by omega)
    · exact iff_of_false (by simp) (by omega)
  · simp

theorem recordCut_eq_bad_iff {xs : Bytes} {n : ℕ} : recordCut xs = .bad n ↔ Oversized xs n := by
  unfold Oversized recordCut declaredLength
  split
  · simp only [Option.some.injEq]
    split_ifs with hmax hlen
    · rw [Cut.bad.injEq]
      omega
    · exact iff_of_false (by simp) (by omega)
    · exact iff_of_false (by simp) (by omega)
  · simp

theorem stuck_of_incomplete_or_oversized {xs : Bytes} (h : Incomplete xs ∨ ∃ n, Oversized xs n) :
    TlsRecord.framing.Stuck xs := by
  intro r n hcut
  change recordCut xs = _ at hcut
  rcases h with h | ⟨n, h⟩
  · rw [recordCut_eq_need_iff.mpr h] at hcut
    cases hcut
  · rw [recordCut_eq_bad_iff.mpr h] at hcut
    cases hcut

theorem parseRecords_eq_ok_iff {buf : Bytes} {rs : List TlsRecord} {c : ℕ} :
    parseRecords buf = .ok (rs, c) ↔
      c ≤ buf.length ∧ buf.take c = TlsRecord.framing.writeAll rs ∧ (∀ r ∈ rs, r.Fits) ∧
        Incomplete (buf.drop c) := by
  constructor
  · intro h
    have hstop : (recordSplitter.peel buf).stop = none := parseRecords_isOk_iff.mp (by rw [h]; rfl)
    rw [parseRecords_of_stop_none hstop] at h
    obtain ⟨rfl, rfl⟩ := Prod.mk.inj (Except.ok.inj h)
    obtain ⟨hfits, hwrite⟩ := TlsRecord.framing.writeAll_frames buf
    have hcut := recordSplitter.cut_rest buf
    rw [hstop] at hcut
    rw [drop_consumed]
    refine ⟨Nat.sub_le _ _, ?_, hfits, recordCut_eq_need_iff.mp hcut⟩
    have htake := List.take_append_drop (buf.length - (recordSplitter.peel buf).rest.length) buf
    rw [drop_consumed] at htake
    exact List.append_cancel_right (htake.trans hwrite.symm)
  · rintro ⟨hle, htake, hfits, hrest⟩
    have hbuf : buf = TlsRecord.framing.writeAll rs ++ buf.drop c := by
      rw [← htake, List.take_append_drop]
    obtain ⟨hframes, hkept, hstop⟩ :=
      Framing.peel_of_need hfits (recordCut_eq_need_iff.mpr hrest) hbuf
    change (recordSplitter.peel buf).frames.map Prod.fst = rs at hframes
    change (recordSplitter.peel buf).rest = buf.drop c at hkept
    rw [parseRecords_of_stop_none hstop, hframes, hkept, List.length_drop,
      show buf.length - (buf.length - c) = c by omega]

theorem parseRecords_eq_error_iff {buf : Bytes} {e : Error} :
    parseRecords buf = .error e ↔
      ∃ rs rest n, buf = TlsRecord.framing.writeAll rs ++ rest ∧ (∀ r ∈ rs, r.Fits) ∧
        Oversized rest n ∧ e = oversizedRecord n := by
  constructor
  · intro h
    cases hstop : (recordSplitter.peel buf).stop with
    | none =>
      rw [parseRecords_of_stop_none hstop] at h
      cases h
    | some n =>
      rw [parseRecords_of_stop_some hstop] at h
      obtain ⟨hfits, hwrite⟩ := TlsRecord.framing.writeAll_frames buf
      have hcut := recordSplitter.cut_rest buf
      rw [hstop] at hcut
      exact ⟨_, _, n, hwrite.symm, hfits, recordCut_eq_bad_iff.mp hcut, (Except.error.inj h).symm⟩
  · rintro ⟨rs, rest, n, hbuf, hfits, hrest, rfl⟩
    obtain ⟨-, -, hstop⟩ := Framing.peel_of_bad hfits (recordCut_eq_bad_iff.mpr hrest) hbuf
    exact parseRecords_of_stop_some hstop

/-- `parseRecords` returns the records and the length of the one decomposition of the buffer into
complete records and an incomplete one, and fails iff an oversized header comes first. A turn for
each byte is enough. -/
theorem parseRecords_iff (buf : Bytes) :
    (∀ rs c, parseRecords buf = .ok (rs, c) ↔
      c ≤ buf.length ∧ buf.take c = TlsRecord.framing.writeAll rs ∧ (∀ r ∈ rs, r.Fits) ∧
        Incomplete (buf.drop c)) ∧
    (∀ e, parseRecords buf = .error e ↔
      ∃ rs rest n, buf = TlsRecord.framing.writeAll rs ++ rest ∧ (∀ r ∈ rs, r.Fits) ∧
        Oversized rest n ∧ e = oversizedRecord n) ∧
    (∀ rs rs' rest rest', (∀ r ∈ rs, r.Fits) → (∀ r ∈ rs', r.Fits) →
      (Incomplete rest ∨ ∃ n, Oversized rest n) → (Incomplete rest' ∨ ∃ n, Oversized rest' n) →
      buf = TlsRecord.framing.writeAll rs ++ rest → buf = TlsRecord.framing.writeAll rs' ++ rest' →
      rs = rs' ∧ rest = rest') ∧
    (∀ fuel, buf.length ≤ fuel → parseRecordsLoop buf fuel 0 [] = parseRecords buf) := by
  refine ⟨fun rs c => parseRecords_eq_ok_iff, fun e => parseRecords_eq_error_iff, ?_, ?_⟩
  · intro rs rs' rest rest' hrs hrs' hrest hrest' hbuf hbuf'
    exact Framing.writeAll_unique hrs hrs' (stuck_of_incomplete_or_oversized hrest)
      (stuck_of_incomplete_or_oversized hrest') (hbuf.symm.trans hbuf')
  · intro fuel hfuel
    rw [parseRecords, parseRecordsLoop_eq buf fuel 0 [] (Nat.zero_le _) (by omega),
      parseRecordsLoop_eq buf _ 0 [] (Nat.zero_le _) (by omega)]

/-- A ChangeCipherSpec, and a header of 16384 bytes without them. -/
example : parseRecords ([20, 3, 3, 0, 1, 1] ++ [23, 3, 3, 0x40, 0]) =
    .ok ([⟨.changeCipherSpec, 0x0303, [1]⟩], 6) := by decide

end SeeHandshake

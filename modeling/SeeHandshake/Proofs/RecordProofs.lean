import SeeHandshake.Parser.Wire

/-!
# Proofs: record framing

`parseRecords` is the greedy peeling of `recordSplitter`, and a well-formed record at the front of a
buffer is the first record that is peeled off.
-/

namespace SeeHandshake

open Lib

theorem recordCut_eq_frame {xs : Bytes} {r : TlsRecord} {n : ℕ} (h : recordCut xs = .frame r n) :
    ∃ ty v1 v2 l1 l2 rest, xs = ty :: v1 :: v2 :: l1 :: l2 :: rest ∧
      (u16FromBe l1 l2).toNat ≤ MAX_RECORD_PAYLOAD ∧ (u16FromBe l1 l2).toNat ≤ rest.length ∧
      r = ⟨TlsRecordType.fromU8 ty, u16FromBe v1 v2, rest.take (u16FromBe l1 l2).toNat⟩ ∧
      n = RECORD_HEADER_LEN + (u16FromBe l1 l2).toNat := by
  unfold recordCut at h
  split at h
  · rename_i ty v1 v2 l1 l2 rest
    simp only at h
    split_ifs at h with h1 h2
    obtain ⟨rfl, rfl⟩ := Cut.frame.inj h
    exact ⟨ty, v1, v2, l1, l2, rest, rfl, by omega, by omega, rfl, rfl⟩
  · cases h

/-- The header of a complete record is decided by its five bytes and its payload. -/
theorem recordCut_header {ty v1 v2 l1 l2 : UInt8} {rest : Bytes}
    (hmax : (u16FromBe l1 l2).toNat ≤ MAX_RECORD_PAYLOAD)
    (hlen : (u16FromBe l1 l2).toNat ≤ rest.length) :
    recordCut (ty :: v1 :: v2 :: l1 :: l2 :: rest) =
      .frame ⟨TlsRecordType.fromU8 ty, u16FromBe v1 v2, rest.take (u16FromBe l1 l2).toNat⟩
        (RECORD_HEADER_LEN + (u16FromBe l1 l2).toNat) := by
  simp only [recordCut]
  rw [if_neg (by omega), if_neg (by omega)]

/-- A record is decided by its own bytes. -/
theorem recordCut_take (xs : Bytes) (r : TlsRecord) (n : ℕ) (h : recordCut xs = .frame r n) :
    recordCut (xs.take n) = .frame r n := by
  obtain ⟨ty, v1, v2, l1, l2, rest, rfl, hmax, hlen, rfl, rfl⟩ := recordCut_eq_frame h
  have htake : (rest.take (u16FromBe l1 l2).toNat).length = (u16FromBe l1 l2).toNat := by
    rw [List.length_take, Nat.min_eq_left hlen]
  rw [RECORD_HEADER_LEN, Nat.add_comm]
  simp only [List.take_succ_cons]
  rw [recordCut_header hmax (by omega), List.take_of_length_le (by omega), RECORD_HEADER_LEN,
    Nat.add_comm]

/-- A record alone is peeled off, and nothing remains. -/
theorem peel_of_cut {bytes : Bytes} {r : TlsRecord}
    (h : recordCut bytes = .frame r bytes.length) :
    recordSplitter.peel bytes = ⟨[(r, bytes)], [], none⟩ := by
  have hnil : recordSplitter.peel [] = ⟨[], [], none⟩ := Cutter.peel_need rfl
  rw [Cutter.peel_frame (S := recordSplitter.toCutter) h, List.drop_length, List.take_length, hnil]

/-- One turn of the loop of `parseRecords` cuts a record off the bytes from the cursor on. -/
theorem parseRecordsLoop_succ {buf : Bytes} {cursor : ℕ} (hc : cursor ≤ buf.length) (fuel : ℕ)
    (records : List TlsRecord) :
    parseRecordsLoop buf (fuel + 1) cursor records =
      match recordCut (buf.drop cursor) with
      | .need => .ok (records, cursor)
      | .bad n => .error (oversizedRecord n)
      | .frame r n => parseRecordsLoop buf fuel (cursor + n) (records ++ [r]) := by
  have hlen : (buf.drop cursor).length = buf.length - cursor := List.length_drop
  rw [parseRecordsLoop]
  unfold recordCut
  generalize buf.drop cursor = bytes at hlen
  rcases bytes with - | ⟨ty, - | ⟨v1, - | ⟨v2, - | ⟨l1, - | ⟨l2, rest⟩⟩⟩⟩⟩
  · rfl
  · rfl
  · rfl
  · rfl
  · rfl
  · simp only [List.length_cons] at hlen
    simp only
    by_cases hmax : (u16FromBe l1 l2).toNat > MAX_RECORD_PAYLOAD
    · rw [if_pos hmax, if_pos hmax]
    · rw [if_neg hmax, if_neg hmax]
      have hend : cursor + RECORD_HEADER_LEN + (u16FromBe l1 l2).toNat > buf.length ↔
          rest.length < (u16FromBe l1 l2).toNat := by
        simp only [RECORD_HEADER_LEN]
        omega
      by_cases hrest : rest.length < (u16FromBe l1 l2).toNat
      · rw [if_pos (hend.mpr hrest), if_pos hrest]
      · rw [if_neg (mt hend.mp hrest), if_neg hrest, Nat.add_assoc]

/-- `parseRecords` from a cursor on is the peeling of the bytes from there on. -/
theorem parseRecordsLoop_eq (buf : Bytes) : ∀ (fuel cursor : ℕ) (records : List TlsRecord),
    cursor ≤ buf.length → buf.length - cursor ≤ fuel →
    parseRecordsLoop buf fuel cursor records =
      match (recordSplitter.peel (buf.drop cursor)).stop with
      | some n => .error (oversizedRecord n)
      | none => .ok (records ++ (recordSplitter.peel (buf.drop cursor)).frames.map Prod.fst,
          buf.length - (recordSplitter.peel (buf.drop cursor)).rest.length) := by
  intro fuel
  induction fuel with
  | zero =>
    intro cursor records hc hf
    have hnil : buf.drop cursor = [] := List.drop_eq_nil_of_le (by omega)
    rw [hnil, Cutter.peel_need (S := recordSplitter.toCutter) rfl]
    simp only [parseRecordsLoop, List.map_nil, List.append_nil, List.length_nil, Nat.sub_zero]
    rw [show cursor = buf.length by omega]
  | succ fuel ih =>
    intro cursor records hc hf
    have hlen : (buf.drop cursor).length = buf.length - cursor := List.length_drop
    rw [parseRecordsLoop_succ hc]
    cases hcut : recordCut (buf.drop cursor) with
    | need =>
      rw [Cutter.peel_need (S := recordSplitter.toCutter) hcut, hlen]
      simp only [List.map_nil, List.append_nil]
      rw [show buf.length - (buf.length - cursor) = cursor by omega]
    | bad n => rw [Cutter.peel_bad (S := recordSplitter.toCutter) hcut]
    | frame r n =>
      have hb := recordSplitter.frame_bounds _ _ _ hcut
      rw [Cutter.peel_frame (S := recordSplitter.toCutter) hcut, List.drop_drop]
      simp only
      rw [ih (cursor + n) _ (by omega) (by omega)]
      simp only [List.map_cons, List.append_assoc, List.singleton_append]

/-- `parseRecords` peels records off the buffer, and drops them all when it meets a header that
declares an oversized payload. -/
theorem parseRecords_eq (buf : Bytes) :
    parseRecords buf =
      match (recordSplitter.peel buf).stop with
      | some n => .error (oversizedRecord n)
      | none => .ok ((recordSplitter.peel buf).frames.map Prod.fst,
          buf.length - (recordSplitter.peel buf).rest.length) := by
  rw [parseRecords, parseRecordsLoop_eq buf _ 0 [] (Nat.zero_le _) (by omega)]
  simp

theorem parseRecords_of_stop_none {buf : Bytes} (h : (recordSplitter.peel buf).stop = none) :
    parseRecords buf = .ok ((recordSplitter.peel buf).frames.map Prod.fst,
      buf.length - (recordSplitter.peel buf).rest.length) := by
  rw [parseRecords_eq, h]

theorem parseRecords_of_stop_some {buf : Bytes} {n : ℕ}
    (h : (recordSplitter.peel buf).stop = some n) :
    parseRecords buf = .error (oversizedRecord n) := by
  rw [parseRecords_eq, h]

/-- `parseRecords` succeeds iff the peeling meets no oversized header. -/
theorem parseRecords_isOk_iff {buf : Bytes} :
    (parseRecords buf).isOk ↔ (recordSplitter.peel buf).stop = none := by
  rw [parseRecords_eq]
  cases (recordSplitter.peel buf).stop <;> simp [Except.isOk, Except.toBool]

/-- The unconsumed bytes are the remainder of the peeling. -/
theorem drop_consumed (buf : Bytes) :
    buf.drop (buf.length - (recordSplitter.peel buf).rest.length) =
      (recordSplitter.peel buf).rest := by
  have hdrop : ∀ a b : Bytes, (a ++ b).drop ((a ++ b).length - b.length) = b := by simp
  have h := hdrop ((recordSplitter.peel buf).frames.map Prod.snd).flatten
    (recordSplitter.peel buf).rest
  rwa [recordSplitter.peel_flatten buf] at h

/-- Bytes that no record can be cut off are shorter than a header with the longest payload. -/
theorem length_lt_of_need {bytes : Bytes} (h : recordCut bytes = .need) :
    bytes.length < RECORD_HEADER_LEN + MAX_RECORD_PAYLOAD := by
  unfold recordCut at h
  split at h
  · simp only at h
    split_ifs at h with h1 h2
    simp only [List.length_cons, RECORD_HEADER_LEN]
    omega
  · rename_i hne
    rcases bytes with _ | ⟨a, _ | ⟨b, _ | ⟨c, _ | ⟨d, _ | ⟨e, rest⟩⟩⟩⟩⟩
    · simp [RECORD_HEADER_LEN, MAX_RECORD_PAYLOAD]
    · simp [RECORD_HEADER_LEN, MAX_RECORD_PAYLOAD]
    · simp [RECORD_HEADER_LEN, MAX_RECORD_PAYLOAD]
    · simp [RECORD_HEADER_LEN, MAX_RECORD_PAYLOAD]
    · simp [RECORD_HEADER_LEN, MAX_RECORD_PAYLOAD]
    · exact absurd rfl (hne a b c d e rest)

/-- No record can be cut off what peeling leaves. -/
theorem cut_rest_of_stop_none {buf : Bytes} (h : (recordSplitter.peel buf).stop = none) :
    recordCut (recordSplitter.peel buf).rest = .need := by
  have hc := recordSplitter.cut_rest buf
  rwa [h] at hc

/-- What peeling leaves is shorter than a header with the longest payload. -/
theorem rest_length_lt {buf : Bytes} (h : (recordSplitter.peel buf).stop = none) :
    (recordSplitter.peel buf).rest.length < RECORD_HEADER_LEN + MAX_RECORD_PAYLOAD :=
  length_lt_of_need (cut_rest_of_stop_none h)

/-- No record is parsed off bytes that none can be cut off. -/
theorem parseRecords_of_need {bytes : Bytes} (h : recordCut bytes = .need) :
    parseRecords bytes = .ok ([], 0) := by
  have hpeel := Cutter.peel_need (S := recordSplitter.toCutter) h
  rw [parseRecords_of_stop_none (by rw [hpeel]), hpeel]
  simp

end SeeHandshake

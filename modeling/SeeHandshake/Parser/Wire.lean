import SeeHandshake.Lib.Peel
import SeeHandshake.Parser.Record

/-!
# Records on the wire

The record layer as a stream format: `recordSplitter` cuts one record off the front of a byte stream,
and a `WireRecord` is a record that can be sent, whatever its type byte and version.
-/

namespace SeeHandshake

open Lib (Cut Splitter)

/-- The record at the front of a byte string. A header that declares too long a payload is refused
with the declared length. -/
def recordCut : Bytes → Cut TlsRecord ℕ
  | ty :: v1 :: v2 :: l1 :: l2 :: rest =>
    let length := (u16FromBe l1 l2).toNat
    if length > MAX_RECORD_PAYLOAD then .bad length
    else if rest.length < length then .need
    else .frame ⟨TlsRecordType.fromU8 ty, u16FromBe v1 v2, rest.take length⟩
      (RECORD_HEADER_LEN + length)
  | _ => .need

/-- The record layer as a splitter of byte streams. -/
def recordSplitter : Splitter UInt8 TlsRecord ℕ where
  cut := recordCut
  frame_bounds := by
    intro xs r n h
    unfold recordCut at h
    split at h
    · simp only at h
      split_ifs at h with h1 h2
      obtain ⟨-, rfl⟩ := Cut.frame.inj h
      simp only [RECORD_HEADER_LEN, List.length_cons]
      omega
    · cases h
  frame_append := by
    intro xs ys r n h
    unfold recordCut at h
    split at h
    · simp only at h
      split_ifs at h with h1 h2
      simp only [recordCut, List.cons_append, List.length_append]
      rw [if_neg h1, if_neg (by omega), List.take_append_of_le_length (by omega), h]
    · cases h
  bad_append := by
    intro xs ys e h
    unfold recordCut at h
    split at h
    · simp only at h
      split_ifs at h with h1
      simp only [recordCut, List.cons_append]
      rw [if_pos h1, h]
    · cases h

/-- A record as it is sent. -/
structure WireRecord where
  ty : UInt8
  version : UInt16
  payload : Bytes
  /-- The payload fits the record layer. -/
  payload_le : payload.length ≤ MAX_RECORD_PAYLOAD
  deriving DecidableEq

namespace WireRecord

/-- The bytes of a record: the header and the payload. -/
def encode (r : WireRecord) : Bytes :=
  r.ty :: (u16ToBe r.version ++ u16ToBe (UInt16.ofNat r.payload.length) ++ r.payload)

/-- What the record parses to. -/
def toTlsRecord (r : WireRecord) : TlsRecord :=
  ⟨TlsRecordType.fromU8 r.ty, r.version, r.payload⟩

theorem encode_length (r : WireRecord) :
    r.encode.length = RECORD_HEADER_LEN + r.payload.length := by
  simp only [encode, List.length_cons, List.length_append, u16ToBe_length, RECORD_HEADER_LEN]
  omega

theorem encode_ne_nil (r : WireRecord) : r.encode ≠ [] := List.cons_ne_nil _ _

/-- A record at the front of a stream is cut off as it was sent. -/
theorem cut_encode (r : WireRecord) (rest : Bytes) :
    recordCut (r.encode ++ rest) = .frame r.toTlsRecord r.encode.length := by
  have hle := r.payload_le
  have hmax : MAX_RECORD_PAYLOAD = 16384 := rfl
  have hlen : (UInt16.ofNat r.payload.length).toNat = r.payload.length := by
    rw [UInt16.toNat_ofNat']
    omega
  rw [encode_length]
  simp only [encode, u16ToBe, List.cons_append, List.nil_append, recordCut, u16FromBe_u16ToBe,
    List.length_append]
  rw [hlen, if_neg (by omega), if_neg (by omega), List.take_left]
  rfl

end WireRecord

end SeeHandshake

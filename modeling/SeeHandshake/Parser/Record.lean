import SeeHandshake.Bytes
import SeeHandshake.Error

/-!
# TLS record framing

`parser/record.rs`: a record is a five-byte header (type, version, length) followed by at most `2^14`
bytes of payload. `parseRecords` peels the complete records off the front of a buffer.
-/

namespace SeeHandshake

/-- The record type of a record header. -/
inductive TlsRecordType where
  | changeCipherSpec
  | alert
  | handshake
  | applicationData
  | other (v : UInt8)
  deriving DecidableEq, Repr

/-- Decode the one-byte record type. -/
def TlsRecordType.fromU8 (v : UInt8) : TlsRecordType :=
  match v with
  | 20 => .changeCipherSpec
  | 21 => .alert
  | 22 => .handshake
  | 23 => .applicationData
  | v => .other v

/-- A TLS record. The tracker's owned copy of a record has the same three fields. -/
structure TlsRecord where
  recordType : TlsRecordType
  legacyVersion : UInt16
  payload : Bytes
  deriving DecidableEq, Repr

/-- The longest record payload RFC 8446 permits. -/
def MAX_RECORD_PAYLOAD : Nat := 16384

/-- The length of a record header. -/
def RECORD_HEADER_LEN : Nat := 5

/-- The error for a record header that declares `length` payload bytes. -/
def oversizedRecord (length : Nat) : Error :=
  .parse s!"record payload length {length} exceeds maximum {MAX_RECORD_PAYLOAD}"

/-- The `while` loop of `parseRecords` at `cursor`, with the records found so far. Every turn moves
the cursor by at least the header, so a fuel of `buf.length` turns is never exhausted. -/
def parseRecordsLoop (buf : Bytes) : Nat → Nat → List TlsRecord → Except Error (List TlsRecord × Nat)
  | 0, cursor, records => .ok (records, cursor)
  | fuel + 1, cursor, records =>
    match buf.drop cursor with
    | ty :: v1 :: v2 :: l1 :: l2 :: rest =>
      let recordType := TlsRecordType.fromU8 ty
      let legacyVersion := u16FromBe v1 v2
      let length := (u16FromBe l1 l2).toNat
      if length > MAX_RECORD_PAYLOAD then
        .error (oversizedRecord length)
      else
        let recordEnd := cursor + RECORD_HEADER_LEN + length
        if recordEnd > buf.length then
          -- An incomplete record is left for the next call.
          .ok (records, cursor)
        else
          parseRecordsLoop buf fuel recordEnd
            (records ++ [⟨recordType, legacyVersion, rest.take length⟩])
    | _ => .ok (records, cursor)

/-- Parse as many complete records from `buf` as possible. Returns the records and the number of
bytes consumed, or an error if a header declares more than `MAX_RECORD_PAYLOAD` bytes. -/
def parseRecords (buf : Bytes) : Except Error (List TlsRecord × Nat) :=
  parseRecordsLoop buf buf.length 0 []

end SeeHandshake

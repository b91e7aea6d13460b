import SeeHandshake.Lib.Checked
import SeeHandshake.Parser.Handshake
import SeeHandshake.Parser.Record

/-!
# The decoders, line by line

The decoders of `parser/record.rs`, `parser/handshake.rs` and `parser/extensions.rs` as they are
written: every index, slice and addition of the source is one that may panic, on a machine whose `usize`
has `w` bits. The early `return None` of an optional result is `failure`, the early `return Err` of a
fallible one is `throw`.
-/

namespace SeeHandshake.Checked

open Lib Panicking

/-- A byte slice on a machine whose `usize` has `w` bits: it is not longer than `isize::MAX`. -/
structure Slice (w : ℕ) where
  bytes : Bytes
  length_lt : bytes.length < 2 ^ (w - 1)

/-- `xs[i]`. -/
def byteAt (xs : Bytes) (i : ℕ) : Panicking UInt8 := index xs i

/-- `u16::from_be_bytes([xs[i], xs[j]])`. -/
def u16At (xs : Bytes) (i j : ℕ) : Panicking UInt16 := do
  let hi ← byteAt xs i
  let lo ← byteAt xs j
  return u16FromBe hi lo

/-- `xs.chunks_exact(2).map(|c| u16::from_be_bytes([c[0], c[1]])).collect()`. -/
def u16Chunks (xs : Bytes) : Panicking (List UInt16) := (chunksExact2 xs).mapM fun c => u16At c 0 1

variable (w : ℕ)

/-! ## Extensions -/

def readOpaqueU16 (body : Bytes) : OptionT Panicking Bytes := do
  if body.length < 2 then failure
  let len := (← u16At body 0 1).toNat
  if body.length ≠ (← add w 2 len) then failure
  sliceFrom body 2

/-- The body of the loop of `decodeServerName`. -/
def serverNameTurn (s : Bytes × List ServerNameEntry) :
    OptionT Panicking (ForInStep (Bytes × List ServerNameEntry)) := do
  let (cursor, entries) := s
  if cursor.length ≥ 3 then
    let nameType ← byteAt cursor 0
    let nameLen := (← u16At cursor 1 2).toNat
    if cursor.length < (← add w 3 nameLen) then failure
    let name ← slice cursor 3 (← add w 3 nameLen)
    return .yield (← sliceFrom cursor (← add w 3 nameLen), entries ++ [⟨nameType, name⟩])
  else return .done (cursor, entries)

def decodeServerName (body : Bytes) : OptionT Panicking (List ServerNameEntry) := do
  if body.length < 2 then failure
  let listLen := (← u16At body 0 1).toNat
  if body.length < (← add w 2 listLen) then failure
  let cursor ← slice body 2 (← add w 2 listLen)
  let (_, entries) ← loop (serverNameTurn w) (cursor.length + 1) (cursor, [])
  return entries

def decodeSupportedGroups (body : Bytes) : OptionT Panicking (List NamedGroup) := do
  let list ← readOpaqueU16 w body
  if list.length % 2 ≠ 0 then failure
  return (← u16Chunks list).map NamedGroup.fromU16

def decodeSignatureAlgorithms (body : Bytes) : OptionT Panicking (List UInt16) := do
  let list ← readOpaqueU16 w body
  if list.length % 2 ≠ 0 then failure
  return ← u16Chunks list

/-- The body of the loop of `decodeAlpn`. -/
def alpnTurn (s : Bytes × List Bytes) : OptionT Panicking (ForInStep (Bytes × List Bytes)) :=
  match s with
  | ([], out) => return .done ([], out)
  | (len :: rest, out) => do
    let len := len.toNat
    if rest.length < len then failure
    let protocol ← sliceTo rest len
    return .yield (← sliceFrom rest len, out ++ [protocol])

def decodeAlpn (body : Bytes) : OptionT Panicking (List Bytes) := do
  let list ← readOpaqueU16 w body
  let (_, out) ← loop alpnTurn (list.length + 1) (list, [])
  return out

def decodeSupportedVersions (body : Bytes) : OptionT Panicking (List UInt16) := do
  if body.length = 2 then return [← u16At body 0 1]
  if body.isEmpty then failure
  let listLen := (← byteAt body 0).toNat
  if body.length ≠ (← add w 1 listLen) ∨ listLen % 2 ≠ 0 then failure
  return ← u16Chunks (← sliceFrom body 1)

def decodePskKeyExchangeModes (body : Bytes) : OptionT Panicking Bytes := do
  if body.isEmpty then failure
  let len := (← byteAt body 0).toNat
  if body.length ≠ (← add w 1 len) then failure
  sliceFrom body 1

/-- The body of the loop of `parseKeyShareEntries`. -/
def keyShareTurn (s : Bytes × List KeyShareEntry) :
    OptionT Panicking (ForInStep (Bytes × List KeyShareEntry)) := do
  let (cursor, out) := s
  if cursor.length ≥ 4 then
    let groupCode ← u16At cursor 0 1
    let keyLen := (← u16At cursor 2 3).toNat
    if cursor.length < (← add w 4 keyLen) then failure
    let keyExchange ← slice cursor 4 (← add w 4 keyLen)
    return .yield (← sliceFrom cursor (← add w 4 keyLen),
      out ++ [⟨NamedGroup.fromU16 groupCode, groupCode, keyExchange⟩])
  else return .done (cursor, out)

def parseKeyShareEntries (cursor : Bytes) : OptionT Panicking (List KeyShareEntry) := do
  let (cursor, out) ← loop (keyShareTurn w) (cursor.length + 1) (cursor, [])
  if cursor.isEmpty then return out else failure

def decodeKeyShare (body : Bytes) : OptionT Panicking (List KeyShareEntry) := do
  if body.length ≥ 4 then
    let listLen := (← u16At body 0 1).toNat
    if body.length = (← add w 2 listLen) then
      return ← parseKeyShareEntries w (← sliceFrom body 2)
  parseKeyShareEntries w body

/-- The body of the loop of `decodePreSharedKey`. -/
def pskIdentityTurn (s : Bytes × List PskIdentity) :
    OptionT Panicking (ForInStep (Bytes × List PskIdentity)) := do
  let (cursor, identities) := s
  if cursor.length ≥ 2 then
    let idLen := (← u16At cursor 0 1).toNat
    if cursor.length < (← add w (← add w 2 idLen) 4) then failure
    let identity ← slice cursor 2 (← add w 2 idLen)
    let a0 ← byteAt cursor (← add w 2 idLen)
    let a1 ← byteAt cursor (← add w 3 idLen)
    let a2 ← byteAt cursor (← add w 4 idLen)
    let a3 ← byteAt cursor (← add w 5 idLen)
    return .yield (← sliceFrom cursor (← add w (← add w 2 idLen) 4),
      identities ++ [⟨identity, u32FromBe a0 a1 a2 a3⟩])
  else return .done (cursor, identities)

def decodePreSharedKey (body : Bytes) : OptionT Panicking ExtensionBody := do
  if body.length < 2 then failure
  let identitiesLen := (← u16At body 0 1).toNat
  if body.length < (← add w (← add w 2 identitiesLen) 2) then failure
  let identitiesBytes ← slice body 2 (← add w 2 identitiesLen)
  let (_, identities) ←
    loop (pskIdentityTurn w) (identitiesBytes.length + 1) (identitiesBytes, [])
  let bindersStart ← add w 2 identitiesLen
  let bindersLen := (← u16At body bindersStart (← add w bindersStart 1)).toNat
  return .preSharedKey identities bindersLen

def decodeBody (extType : UInt16) (body : Bytes) : OptionT Panicking ExtensionBody :=
  match extType with
  | 0 => .serverName <$> decodeServerName w body
  | 10 => .supportedGroups <$> decodeSupportedGroups w body
  | 13 => .signatureAlgorithms <$> decodeSignatureAlgorithms w body
  | 50 => .signatureAlgorithms <$> decodeSignatureAlgorithms w body
  | 16 => .alpn <$> decodeAlpn w body
  | 41 => decodePreSharedKey w body
  | 42 => return .earlyData
  | 43 => .supportedVersions <$> decodeSupportedVersions w body
  | 44 => .cookie <$> readOpaqueU16 w body
  | 45 => .pskKeyExchangeModes <$> decodePskKeyExchangeModes w body
  | 51 => .keyShare <$> decodeKeyShare w body
  | _ => failure

def decodeExtension (extType : UInt16) (body : Bytes) : Panicking DecodedExtension := do
  let decoded ← (decodeBody w extType body).run
  return { extType, name := extensionName extType, raw := body, body := decoded.getD .opaqueBody }

/-! ## Hellos -/

/-- `n as usize`. -/
def asUsize (n : ℕ) : ℕ := n % 2 ^ w

def stripHandshakeHeader (bytes : Bytes) (expectedType : UInt8) : ExceptT Error Panicking Bytes := do
  if bytes.length < 4 then throw (.parse "handshake header truncated")
  if (← byteAt bytes 0) ≠ expectedType then
    throw (.parse ("unexpected handshake type: " ++ hexByte (← byteAt bytes 0) ++
      " (want " ++ hexByte expectedType ++ ")"))
  let length := asUsize w
    (u32FromBe 0 (← byteAt bytes 1) (← byteAt bytes 2) (← byteAt bytes 3)).toNat
  if bytes.length < (← add w 4 length) then throw (.parse "handshake body truncated")
  slice bytes 4 (← add w 4 length)

def readU8 (cursor : Bytes) : ExceptT Error Panicking (UInt8 × Bytes) :=
  match cursor with
  | [] => throw (.parse "truncated u8")
  | first :: rest => return (first, rest)

def readU16 (cursor : Bytes) : ExceptT Error Panicking (UInt16 × Bytes) := do
  if cursor.length < 2 then throw (.parse "truncated u16")
  let out ← u16At cursor 0 1
  return (out, ← sliceFrom cursor 2)

def readArray32 (cursor : Bytes) : ExceptT Error Panicking (Random × Bytes) := do
  if cursor.length < 32 then throw (.parse "truncated [u8; 32]")
  let out ← copyFromSlice 32 (← sliceTo cursor 32)
  return (out, ← sliceFrom cursor 32)

def readBytes (cursor : Bytes) (n : ℕ) : ExceptT Error Panicking (Bytes × Bytes) := do
  if cursor.length < n then throw (.parse s!"truncated {n}-byte slice")
  let (head, tail) ← splitAt cursor n
  return (head, tail)

/-- The body of the loop of `walkExtensionBodies`. -/
def extensionTurn (s : Bytes × List DecodedExtension) :
    Panicking (ForInStep (Bytes × List DecodedExtension)) := do
  let (cursor, out) := s
  if cursor.length ≥ 4 then
    let extType ← u16At cursor 0 1
    let bodyLen := (← u16At cursor 2 3).toNat
    if cursor.length < (← add w 4 bodyLen) then return .done (cursor, out)
    let body ← slice cursor 4 (← add w 4 bodyLen)
    let extension ← decodeExtension w extType body
    return .yield (← sliceFrom cursor (← add w 4 bodyLen), out ++ [extension])
  else return .done (cursor, out)

def walkExtensionBodies (extBytes : Bytes) : Panicking (List DecodedExtension) := do
  let (_, out) ← loop (extensionTurn w) (extBytes.length + 1) (extBytes, [])
  return out

/-- The extension block at the end of both hellos. -/
def readExtensions (cursor : Bytes) : ExceptT Error Panicking (List DecodedExtension) := do
  if cursor.isEmpty then return []
  let (extLen, cursor) ← readU16 cursor
  let (extBytes, _) ← readBytes cursor extLen.toNat
  walkExtensionBodies w extBytes

def decodeClientHello (bytes : Bytes) : ExceptT Error Panicking DecodedClientHello := do
  let cursor ← stripHandshakeHeader w bytes 1
  let (legacyVersion, cursor) ← readU16 cursor
  let (random, cursor) ← readArray32 cursor
  let (sessionIdLen, cursor) ← readU8 cursor
  let (sessionId, cursor) ← readBytes cursor sessionIdLen.toNat
  let (cipherSuitesLen, cursor) ← readU16 cursor
  if cipherSuitesLen.toNat % 2 ≠ 0 then
    throw (.parse "client hello: odd cipher suites length")
  let (cipherBytes, cursor) ← readBytes cursor cipherSuitesLen.toNat
  let cipherSuites := (← u16Chunks cipherBytes).map knownCipherSuite
  let (compressionLen, cursor) ← readU8 cursor
  let (compressionMethods, cursor) ← readBytes cursor compressionLen.toNat
  let extensions ← readExtensions w cursor
  return { legacyVersion, random, sessionId, cipherSuites, compressionMethods, extensions }

def decodeServerHello (bytes : Bytes) : ExceptT Error Panicking DecodedServerHello := do
  let cursor ← stripHandshakeHeader w bytes 2
  let (legacyVersion, cursor) ← readU16 cursor
  let (random, cursor) ← readArray32 cursor
  let (sessionIdLen, cursor) ← readU8 cursor
  let (sessionIdEcho, cursor) ← readBytes cursor sessionIdLen.toNat
  let (cipherCode, cursor) ← readU16 cursor
  let (compressionMethod, cursor) ← readU8 cursor
  let extensions ← readExtensions w cursor
  return {
    legacyVersion
    random
    sessionIdEcho
    cipherSuite := knownCipherSuite cipherCode
    compressionMethod
    extensions }

def firstKeyShareGroup (bytes : Bytes) : OptionT Panicking NamedGroup := do
  if bytes.length < 4 then failure
  let listLen := (← u16At bytes 0 1).toNat
  if (← add w listLen 2) = bytes.length ∧ bytes.length ≥ 4 then
    return NamedGroup.fromU16 (← u16At bytes 2 3)
  return NamedGroup.fromU16 (← u16At bytes 0 1)

/-! ## Records -/

/-- The body of the loop of `parseRecords`. -/
def recordTurn (buf : Bytes) (s : ℕ × List TlsRecord) :
    ExceptT Error Panicking (ForInStep (ℕ × List TlsRecord)) := do
  let (cursor, records) := s
  if (← sub buf.length cursor) ≥ RECORD_HEADER_LEN then
    let header ← slice buf cursor (← add w cursor RECORD_HEADER_LEN)
    let recordType := TlsRecordType.fromU8 (← byteAt header 0)
    let legacyVersion ← u16At header 1 2
    let length := (← u16At header 3 4).toNat
    if length > MAX_RECORD_PAYLOAD then throw (oversizedRecord length)
    let recordEnd ← add w (← add w cursor RECORD_HEADER_LEN) length
    if recordEnd > buf.length then return .done (cursor, records)
    let payload ← slice buf (← add w cursor RECORD_HEADER_LEN) recordEnd
    return .yield (recordEnd, records ++ [⟨recordType, legacyVersion, payload⟩])
  else return .done (cursor, records)

def parseRecords (buf : Slice w) : ExceptT Error Panicking (List TlsRecord × ℕ) := do
  let (cursor, records) ← loop (recordTurn w buf.bytes) (buf.bytes.length + 1) (0, [])
  return (records, cursor)

end SeeHandshake.Checked

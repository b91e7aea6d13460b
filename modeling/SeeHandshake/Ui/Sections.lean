import SeeHandshake.Parser.Handshake

/-!
# The sections of a record

`ui/sections.rs`: a record is shown as a list of sections, crypto-first. A section is modelled with
its title, its direction hint and the data that its lines render; the styling of the lines and the
explanatory texts are left out.
-/

namespace SeeHandshake

/-- What the lines of a section render. -/
inductive SectionValue where
  | cipherSuitesOffered (suites : List (UInt16 × Option CipherSuite))
  | cipherSuiteChosen (suite : UInt16 × Option CipherSuite)
  | keyShare (entries : List KeyShareEntry) (isClient : Bool)
  /-- The decoded body of an extension, or its raw bytes. -/
  | extension (ext : DecodedExtension)
  | random (random : Random)
  | clientLegacy (legacyVersion : UInt16) (sessionId compressionMethods : Bytes)
  | serverLegacy (legacyVersion : UInt16) (sessionIdEcho : Bytes) (compressionMethod : UInt8)
  /-- A handshake message that is not decoded further. -/
  | message (msgType : UInt8) (raw : Bytes)
  | guess (inferredLabel : String)
  | ciphertext (preview : Bytes)
  | changeCipherSpec
  /-- The record header. -/
  | framing (outerType : TlsRecordType) (outerLength : UInt16) (sequence : UInt32) (header : Bytes)
  deriving DecidableEq, Repr

/-- One navigable section of a record. -/
structure Section where
  title : String
  /-- Whose message this is. -/
  directionHint : String
  value : SectionValue
  deriving DecidableEq, Repr

/-- `{:04x}`: four lower-case hexadecimal digits. -/
def hexWord (v : UInt16) : String :=
  String.ofList [Nat.digitChar (v.toNat / 4096), Nat.digitChar (v.toNat / 256 % 16),
    Nat.digitChar (v.toNat / 16 % 16), Nat.digitChar (v.toNat % 16)]

/-- The name of a handshake message type. -/
def handshakeTypeName (msgType : UInt8) : String :=
  match msgType with
  | 1 => "ClientHello"
  | 2 => "ServerHello"
  | 4 => "NewSessionTicket"
  | 5 => "EndOfEarlyData"
  | 8 => "EncryptedExtensions"
  | 11 => "Certificate"
  | 12 => "ServerKeyExchange"
  | 13 => "CertificateRequest"
  | 14 => "ServerHelloDone"
  | 15 => "CertificateVerify"
  | 16 => "ClientKeyExchange"
  | 20 => "Finished"
  | 22 => "CertificateStatus"
  | 24 => "KeyUpdate"
  | 254 => "MessageHash"
  | _ => "Unknown handshake"

def directionHint : RecordDirection → String
  | .clientToServer => "You sent this"
  | .serverToClient => "The server sent you this"

/-- The record header, as the last section. -/
def framingSection (r : RecordEvent) (dir : String) : Section :=
  ⟨"Record framing", dir,
    .framing r.outerType r.outerLength r.sequence (r.raw.take (min r.raw.length 5))⟩

/-- The section of an extension that has no place of its own. -/
def sectionForExtension (ext : DecodedExtension) (dir : String) : Section :=
  ⟨ext.name ++ " (0x" ++ hexWord ext.extType ++ ")", dir, .extension ext⟩

/-- The extension types that have a place of their own in the order of the sections. -/
def PROMOTED_EXTENSIONS : List UInt16 :=
  [0, 10, 13, 16, 41, 42, 43, 45, 51]

/-- The section of the first extension of a type. -/
def pushExtensionIfPresent (out : List Section) (exts : List DecodedExtension) (dir : String)
    (extType : UInt16) : List Section :=
  match exts.find? fun e => e.extType = extType with
  | some ext => out ++ [sectionForExtension ext dir]
  | none => out

/-- The section of the first `key_share` extension. -/
def pushKeyShareIfPresent (out : List Section) (exts : List DecodedExtension) (dir : String)
    (isClient : Bool) : List Section :=
  match exts.find? fun e => e.extType = 51 with
  | none => out
  | some ext =>
    match ext.body with
    | .keyShare entries =>
      let title :=
        if isClient then
          "key_share — offered by client (" ++ toString entries.length ++ " offer" ++
            (if entries.length = 1 then "" else "s") ++ ")"
        else "key_share — chosen by server"
      out ++ [⟨title, dir, .keyShare entries isClient⟩]
    | _ => out ++ [sectionForExtension ext dir]

/-- The sections of the extensions that have no place of their own, in wire order. -/
def pushRemaining (out : List Section) (exts : List DecodedExtension) (dir : String) :
    List Section :=
  exts.foldl (fun out ext =>
    if ext.extType ∈ PROMOTED_EXTENSIONS then out else out ++ [sectionForExtension ext dir]) out

def cipherSuitesOfferedSection (ch : DecodedClientHello) (dir : String) : Section :=
  ⟨"Cipher suites offered (" ++ toString ch.cipherSuites.length ++ ")", dir,
    .cipherSuitesOffered ch.cipherSuites⟩

def clientLegacySection (ch : DecodedClientHello) (dir : String) : Section :=
  ⟨"Legacy fields (TLS 1.2 compatibility)", dir,
    .clientLegacy ch.legacyVersion ch.sessionId ch.compressionMethods⟩

def serverLegacySection (sh : DecodedServerHello) (dir : String) : Section :=
  ⟨"Legacy fields (TLS 1.2 compatibility)", dir,
    .serverLegacy sh.legacyVersion sh.sessionIdEcho sh.compressionMethod⟩

/-- The sections of a ClientHello. -/
def pushClientHello (out : List Section) (ch : DecodedClientHello) (dir : String) : List Section :=
  let out := out ++ [cipherSuitesOfferedSection ch dir]
  -- The extensions that matter for the cryptography.
  let out := pushKeyShareIfPresent out ch.extensions dir true
  let out := pushExtensionIfPresent out ch.extensions dir 43
  let out := pushExtensionIfPresent out ch.extensions dir 13
  let out := pushExtensionIfPresent out ch.extensions dir 10
  let out := pushExtensionIfPresent out ch.extensions dir 45
  let out := pushExtensionIfPresent out ch.extensions dir 41
  let out := pushExtensionIfPresent out ch.extensions dir 42
  let out := out ++ [⟨"Client random (32 bytes)", dir, .random ch.random⟩]
  -- The metadata in the clear.
  let out := pushExtensionIfPresent out ch.extensions dir 0
  let out := pushExtensionIfPresent out ch.extensions dir 16
  let out := pushRemaining out ch.extensions dir
  out ++ [clientLegacySection ch dir]

/-- The sections of a ServerHello or HelloRetryRequest. -/
def pushServerHello (out : List Section) (sh : DecodedServerHello) (dir : String) : List Section :=
  let out := out ++ [⟨"Cipher suite (chosen)", dir, .cipherSuiteChosen sh.cipherSuite⟩]
  let out := pushKeyShareIfPresent out sh.extensions dir false
  let out := pushExtensionIfPresent out sh.extensions dir 43
  let out := out ++ [⟨"Server random (32 bytes)", dir, .random sh.random⟩]
  let out := pushExtensionIfPresent out sh.extensions dir 41
  let out := pushRemaining out sh.extensions dir
  out ++ [serverLegacySection sh dir]

/-- Break a record into sections. -/
def sectionsFor (r : RecordEvent) : List Section :=
  let dir := directionHint r.direction
  let out :=
    match r.body with
    | .handshake (.clientHello ch) => pushClientHello [] ch dir
    | .handshake (.serverHello sh) => pushServerHello [] sh dir
    | .handshake (.helloRetryRequest sh) => pushServerHello [] sh dir
    | .handshake (.unknown msgType raw) =>
      [⟨handshakeTypeName msgType ++ " (msg_type " ++ hexByte msgType ++ ")", dir,
        .message msgType raw⟩]
    | .encryptedHandshake inferredLabel ciphertextPreview =>
      [⟨"Encrypted flight (inferred)", dir, .guess inferredLabel⟩,
        ⟨"Ciphertext preview", dir, .ciphertext ciphertextPreview⟩]
    | .changeCipherSpec => [⟨"ChangeCipherSpec", dir, .changeCipherSpec⟩]
  out ++ [framingSection r dir]

/-- The header stands last, so a record has a section. -/
theorem sectionsFor_length_pos (r : RecordEvent) : 0 < (sectionsFor r).length := by
  unfold sectionsFor
  rw [List.length_append, List.length_singleton]
  omega

end SeeHandshake

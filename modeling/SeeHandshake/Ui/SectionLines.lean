import SeeHandshake.Lib.Total
import SeeHandshake.Ui.Display
import SeeHandshake.Ui.Widgets
import SeeHandshake.Util

/-!
# The lines of a section

`ui/sections.rs`: what the lines of a section say about the decoded data, and `render_section` of
`ui/panels/right.rs`. The educational copy is a parameter.
-/

namespace SeeHandshake

open Lib Panicking

/-! ## Lines -/

/-- The style of what came off the wire. -/
def wireStyle : Style := Style.ofColor .green

/-- A key, in a column of 16. -/
def keySpan (k : String) : Span Style := styled (alignLeft 16 k.toList) (Style.ofColor .darkGray)

def kvLine (k : String) (v : List Char) : Line Style := Line.ofSpans [keySpan k, Span.raw v]

def kvWireLine (k : String) (v : List Char) : Line Style := Line.ofSpans [keySpan k, styled v wireStyle]

def rawLine (s : List Char) : Line Style := Line.ofText s

def wireLine (s : List Char) : Line Style := Line.ofSpans [styled s wireStyle]

/-- Bold header inside a section body. -/
def headerLine (s : List Char) : Line Style := Line.ofSpans [styled s (Style.ofColor .cyan).addBold]

/-- Bytes as a dump, 16 in a row. -/
def hexLines (bytes : Bytes) : List (Line Style) :=
  if bytes.isEmpty then [Line.ofSpans [styled "(empty)".toList (Style.ofColor .darkGray)]]
  else (lines (hexDump bytes 16)).map wireLine

def sessionIdDisplay (bytes : Bytes) : List Char :=
  if bytes.isEmpty then "(empty)".toList
  else decimal bytes.length ++ " bytes: ".toList ++ hexInline bytes

def outerName : TlsRecordType → String
  | .handshake => "Handshake"
  | .applicationData => "ApplicationData (encrypted)"
  | .changeCipherSpec => "ChangeCipherSpec"
  | .alert => "Alert"
  | .other _ => "Other"

/-- `v.join(", ")`. -/
def joinComma (texts : List (List Char)) : List Char := List.intercalate [',', ' '] texts

/-! ## Key shares -/

/-- A line about a key: wire bytes, or a comment on them. -/
structure KeyShareLine where
  text : List Char
  isBytes : Bool
  deriving DecidableEq, Repr

def KeyShareLine.ofText (s : List Char) : KeyShareLine := ⟨s, false⟩

def KeyShareLine.ofBytes (s : List Char) : KeyShareLine := ⟨s, true⟩

/-- `(n B)`. -/
def byteCount (n : ℕ) : List Char := '(' :: decimal n ++ " B)".toList

/-- `name (n B): ` and the bytes. -/
def namedBytes (name : String) (bytes : Bytes) : KeyShareLine :=
  .ofBytes (name.toList ++ ' ' :: byteCount bytes.length ++ ": ".toList ++ hexInline bytes)

/-- The bytes of a key that has not the form of its group. -/
def rawBytes (bytes : Bytes) : KeyShareLine := .ofBytes ("raw: ".toList ++ hexInline bytes)

/-- A Montgomery u-coordinate of `n` bytes. -/
def montgomeryStructure (format curve : String) (n : ℕ) (bytes : Bytes) : List KeyShareLine :=
  let out := [.ofText format.toList, .ofText curve.toList]
  if bytes.length = n then out ++ [namedBytes "u" bytes]
  else
    out ++ [.ofText ("expected ".toList ++ decimal n ++ " B, got ".toList ++ decimal bytes.length ++
      " B — non-standard encoding".toList), rawBytes bytes]

def x25519Structure (bytes : Bytes) : List KeyShareLine :=
  montgomeryStructure "format: Curve25519 Montgomery u-coordinate, 32 bytes little-endian"
    "curve : y^2 = x^3 + 486662*x^2 + x  over GF(2^255 - 19)" 32 bytes

def x448Structure (bytes : Bytes) : List KeyShareLine :=
  montgomeryStructure "format: Curve448 Montgomery u-coordinate, 56 bytes little-endian"
    "curve : y^2 = x^3 + 156326*x^2 + x  over GF(2^448 - 2^224 - 1)" 56 bytes

/-- SEC1 point encoding: uncompressed or compressed, with coordinates of `coordLen` bytes. -/
def sec1PointStructure (bytes : Bytes) (coordLen : ℕ) (curveDesc : String) :
    Panicking (List KeyShareLine) := do
  let uncompressedLen := 1 + 2 * coordLen
  let compressedLen := 1 + coordLen
  let out : List KeyShareLine :=
    [.ofText ("format: SEC1 point on ".toList ++ curveDesc.toList ++ ", big-endian coordinates".toList)]
  let unrecognized := out ++
    [.ofText ("unrecognized SEC1 prefix; expected 0x04/0x02/0x03 — length ".toList ++
      decimal bytes.length ++ " B".toList), rawBytes bytes]
  match bytes.head? with
  | none => return unrecognized
  | some p =>
    if p = 0x04 ∧ bytes.length = uncompressedLen then do
      let x ← slice bytes 1 (1 + coordLen)
      let y ← sliceFrom bytes (1 + coordLen)
      return out ++
        [.ofText ("encoding: uncompressed (0x04 || X || Y), 1+2*".toList ++ decimal coordLen ++
          " = ".toList ++ decimal uncompressedLen ++ " bytes".toList),
          .ofBytes "prefix: 0x04".toList, namedBytes "X" x, namedBytes "Y" y]
    else if (p = 0x02 ∨ p = 0x03) ∧ bytes.length = compressedLen then do
      let sign := if p = 0x02 then "even" else "odd"
      let x ← sliceFrom bytes 1
      return out ++
        [.ofText ("encoding: compressed (".toList ++ (hexByte p).toList ++ " || X), Y is the ".toList ++
          sign.toList ++ " root of the curve equation".toList), namedBytes "X" x]
    else return unrecognized

/-- Finite-field DH: a big-endian integer of `pBytes` bytes. -/
def ffdheStructure (bytes : Bytes) (pBytes : ℕ) (groupName : String) : List KeyShareLine :=
  let out : List KeyShareLine :=
    [.ofText ("format: ".toList ++ groupName.toList ++ " public value y = g^x mod p, big-endian".toList),
      .ofText ("expected size: ".toList ++ decimal pBytes ++ " B (p is a ".toList ++ decimal (pBytes * 8) ++
        "-bit safe prime)".toList)]
  if bytes.length = pBytes then out ++ [namedBytes "y" bytes]
  else
    out ++ [.ofText ("size mismatch: got ".toList ++ decimal bytes.length ++
      " B — stripped leading zeros?".toList), rawBytes bytes]

/-- The head and the tail of bytes that are too many for a line. -/
def previewHeadTail (bytes : Bytes) (head tail : ℕ) : Panicking (List Char) := do
  if bytes.length ≤ head + tail then return hexInline bytes
  let front ← sliceTo bytes head
  let behind ← sub bytes.length head
  let elided ← sub behind tail
  let start ← sub bytes.length tail
  let back ← sliceFrom bytes start
  return hexInline front ++ " ... (".toList ++ decimal elided ++ " B elided) ... ".toList ++ hexInline back

/-- Post-quantum hybrid: a classical key and behind it one of the post-quantum scheme. -/
def hybridPqStructure (bytes : Bytes) (classicalLen pqLen : ℕ) (classicalName pqName : String) :
    Panicking (List KeyShareLine) := do
  let total := classicalLen + pqLen
  let classicalText := classicalName.toList
  let pqText := pqName.toList
  let out : List KeyShareLine :=
    [.ofText ("format: hybrid = ".toList ++ classicalText ++ " pubkey (".toList ++ decimal classicalLen ++
        " B) || ".toList ++ pqText ++ " encapsulation key (".toList ++ decimal pqLen ++ " B)".toList),
      .ofText ("why hybrid: ".toList ++ classicalText ++ " is safe against classical attackers; ".toList ++
        pqText ++ " is safe against quantum attackers. ".toList ++
        "Both must break for the session to be broken.".toList),
      .ofText ("expected total: ".toList ++ decimal total ++ " B".toList)]
  if bytes.length = total then do
    let (classical, pq) ← splitAt bytes classicalLen
    let preview ← previewHeadTail pq 16 16
    return out ++ [namedBytes classicalName classical,
      .ofBytes (pqText ++ ' ' :: byteCount pq.length ++ ": ".toList ++ preview)]
  else do
    let head ← sliceTo bytes (min bytes.length 48)
    return out ++
      [.ofText ("size mismatch: got ".toList ++ decimal bytes.length ++
        " B — draft version may not match".toList), .ofBytes ("raw head: ".toList ++ hexInline head)]

/-- The key of an entry as the object that its group defines. -/
def keyShareStructure (e : KeyShareEntry) : Panicking (List KeyShareLine) :=
  let bytes := e.keyExchange
  match e.group with
  | .x25519 => return x25519Structure bytes
  | .x448 => return x448Structure bytes
  | .secp256r1 => sec1PointStructure bytes 32 "secp256r1 (NIST P-256)"
  | .secp384r1 => sec1PointStructure bytes 48 "secp384r1 (NIST P-384)"
  | .secp521r1 => sec1PointStructure bytes 66 "secp521r1 (NIST P-521)"
  | .ffdhe2048 => return ffdheStructure bytes 256 "ffdhe2048"
  | .ffdhe3072 => return ffdheStructure bytes 384 "ffdhe3072"
  | .ffdhe4096 => return ffdheStructure bytes 512 "ffdhe4096"
  | .x25519MlKem768 => hybridPqStructure bytes 32 1184 "X25519" "ML-KEM-768"
  | .secP256r1MlKem768 => hybridPqStructure bytes 65 1184 "secp256r1" "ML-KEM-768"
  | .x25519Kyber768Draft00 => hybridPqStructure bytes 32 1184 "X25519" "Kyber768-draft00"
  | .other _ => return [namedBytes "public key" bytes]

/-- The header of a key share. -/
def keyShareHeader (e : KeyShareEntry) (i : ℕ) (isClient : Bool) : List Char :=
  let who := if isClient then "● Offer #".toList ++ decimal (i + 1) ++ ": ".toList else "● Server pick: ".toList
  who ++ e.group.display.toList ++ " (0x".toList ++ (hexWord e.groupCode).toList ++ ")  —  key_len ".toList ++
    decimal e.keyExchange.length ++ " B".toList

/-- The line that a line about a key becomes. -/
def KeyShareLine.render (l : KeyShareLine) : Line Style := if l.isBytes then wireLine l.text else rawLine l.text

/-- The lines of the entry at position `i`. -/
def keyShareEntryLines (isClient : Bool) (i : ℕ) (e : KeyShareEntry) : Panicking (List (Line Style)) := do
  let body ← keyShareStructure e
  return (if i > 0 then [rawLine []] else []) ++ headerLine (keyShareHeader e i isClient) ::
    body.map KeyShareLine.render

/-- The lines of the entries from position `i` on. -/
def keyShareLinesFrom (isClient : Bool) (i : ℕ) : List KeyShareEntry → Panicking (List (Line Style))
  | [] => return []
  | e :: entries => do
    let first ← keyShareEntryLines isClient i e
    let rest ← keyShareLinesFrom isClient (i + 1) entries
    return first ++ rest

def keyShareLines (entries : List KeyShareEntry) (isClient : Bool) : Panicking (List (Line Style)) :=
  keyShareLinesFrom isClient 0 entries

/-! ## Values -/

/-- A code with its name. -/
def suiteLine (suite : UInt16 × Option CipherSuite) : Line Style :=
  let name := (suite.2.map CipherSuite.display).getD "unknown"
  wireLine ("0x".toList ++ (hexWord suite.1).toList ++ "  ".toList ++ name.toList)

def sniLine (e : ServerNameEntry) : Line Style :=
  wireLine ("name_type=".toList ++ (hexByte e.nameType).toList ++ "  name=".toList ++ utf8LossyChars e.name)

def pskModeText (mode : UInt8) : List Char :=
  if mode = 0 then "psk_ke".toList
  else if mode = 1 then "psk_dhe_ke".toList
  else "mode(".toList ++ (hexByte mode).toList ++ ")".toList

def pskIdentityLine (id : PskIdentity) : Line Style :=
  wireLine ("  identity ".toList ++ byteCount id.identity.length ++ " age=0x".toList ++
    hexPadded 8 id.obfuscatedTicketAge.toNat ++ ": ".toList ++ hexInline id.identity)

/-- The lines of an extension. -/
def extensionLines (ext : DecodedExtension) : Panicking (List (Line Style)) :=
  match ext.body with
  | .serverName entries => return entries.map sniLine
  | .supportedVersions versions =>
    return [wireLine ("versions: ".toList ++
      joinComma (versions.map fun v => (TlsVersion.fromU16 v).display.toList))]
  | .signatureAlgorithms codes =>
    return [wireLine ("schemes: ".toList ++ joinComma (codes.map fun c => "0x".toList ++ (hexWord c).toList))]
  | .keyShare entries => keyShareLines entries true
  | .supportedGroups groups =>
    return [wireLine ("groups: ".toList ++ joinComma (groups.map fun g => g.display.toList))]
  | .alpn protos =>
    return [wireLine ("protocols: ".toList ++
      joinComma (protos.map fun p => (AlpnProtocol.fromBytes p).display.toList))]
  | .pskKeyExchangeModes modes =>
    return [wireLine ("modes: ".toList ++ joinComma (modes.map pskModeText))]
  | .cookie bytes =>
    return [wireLine ("cookie ".toList ++ byteCount bytes.length ++ ": ".toList ++ hexInline bytes)]
  | .preSharedKey identities bindersLen =>
    return wireLine ("identities: ".toList ++ decimal identities.length ++ ", binders_len: ".toList ++
      decimal bindersLen ++ " B".toList) :: identities.map pskIdentityLine
  | .earlyData => return [rawLine "(empty body)".toList]
  | .opaqueBody =>
    if ext.raw.isEmpty then return [rawLine "(empty body)".toList]
    else return [wireLine ("raw: ".toList ++ hexInline ext.raw)]

/-- The value lines of a section. -/
def SectionValue.lines : SectionValue → Panicking (List (Line Style))
  | .cipherSuitesOffered suites => return suites.map suiteLine
  | .cipherSuiteChosen suite => return [suiteLine suite]
  | .keyShare entries isClient => keyShareLines entries isClient
  | .extension ext => extensionLines ext
  | .random bytes => return [wireLine (hexInline bytes.1)]
  | .clientLegacy legacyVersion sessionId compressionMethods =>
    return [kvWireLine "legacy_version" ("0x".toList ++ (hexWord legacyVersion).toList),
      kvWireLine "session_id" (sessionIdDisplay sessionId),
      kvWireLine "compression" (hexInline compressionMethods)]
  | .serverLegacy legacyVersion sessionIdEcho compressionMethod =>
    return [kvWireLine "legacy_version" ("0x".toList ++ (hexWord legacyVersion).toList),
      kvWireLine "session_id_echo" (sessionIdDisplay sessionIdEcho),
      kvWireLine "compression" (hexByte compressionMethod).toList]
  | .message msgType raw =>
    return kvWireLine "msg_type" ((hexByte msgType).toList ++ "  ".toList ++ (handshakeTypeName msgType).toList) ::
      hexLines raw
  | .guess inferredLabel => return [kvLine "guess" inferredLabel.toList]
  | .ciphertext preview => return hexLines preview
  | .changeCipherSpec => return [wireLine "1 byte payload: 0x01 (activate negotiated cipher)".toList]
  | .framing outerType outerLength sequence header =>
    return [kvLine "outer type" (outerName outerType).toList,
      kvLine "length" (decimal outerLength.toNat ++ " bytes".toList),
      kvLine "sequence" ('#' :: decimal sequence.toNat),
      kvWireLine "record header" (hexInline header)]

/-! ## Sections -/

/-- A labelled sub-topic. -/
structure EduDetail where
  label : List Char
  body : List Char
  deriving DecidableEq, Repr

/-- The prose of a section: its blurb and its sub-topics. -/
def eduLines (eduShort : List Char) (eduDetails : List EduDetail) : List (Line Style) :=
  Line.ofSpans [rawSpan "    ", styled eduShort { fg := some .darkGray, italic := true }] ::
    eduDetails.map fun detail =>
      Line.ofSpans [rawSpan "    ", styled (detail.label ++ ": ".toList) (Style.ofColor .cyan).addBold,
        styled detail.body (Style.ofColor .white)]

/-- The size of lines: their characters, and one for each line. -/
def linesSize {Style : Type} (ls : List (Line Style)) : ℕ := total (fun line => line.chars.length + 1) ls

/-- The educational copy, constant prose of bounded size. -/
structure EducationalCopy where
  eduShort : Section → List Char
  eduDetails : Section → List EduDetail
  explain : HandshakeStage → List Char
  size_le : ∀ s, linesSize (eduLines (eduShort s) (eduDetails s)) ≤ 4096

/-- `render_section`. -/
def renderSection (copy : EducationalCopy) (s : Section) (isSelected showEducation : Bool) :
    Panicking (List (Line Style)) := do
  let cursor := if isSelected then "▶ " else "  "
  let titleStyle := { (Style.ofColor .cyan).addBold with reversed := isSelected }
  let title : Line Style := Line.ofSpans
    [styled cursor.toList (Style.ofColor .cyan), styled s.title.toList titleStyle, rawSpan "  ",
      styled ("· ".toList ++ s.directionHint.toList) (Style.ofColor .darkGray)]
  let value ← s.value.lines
  let indented := value.map fun vl => Line.ofSpans (rawSpan "    " :: vl.spans)
  let education := if showEducation then eduLines (copy.eduShort s) (copy.eduDetails s) else []
  return title :: (indented ++ education)

end SeeHandshake

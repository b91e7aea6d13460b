import SeeHandshake.Parser.Extensions
import SeeHandshake.Parser.TlsParser

/-!
# Handshake message decoders

`parser/handshake.rs`: the compact summaries of the hello messages, extracted from what `tls_parser`
parsed, and the full decoders, which walk the wire bytes themselves.
-/

namespace SeeHandshake

open Lib (Cut peelLoop)

/-- The random a server sends in a HelloRetryRequest. -/
def HELLO_RETRY_REQUEST_RANDOM : Random :=
  ⟨[0xCF, 0x21, 0xAD, 0x74, 0xE5, 0x9A, 0x61, 0x11, 0xBE, 0x1D, 0x8C, 0x02, 0x1E, 0x65, 0xB8, 0x91,
    0xC2, 0xA2, 0x11, 0x16, 0x7A, 0xBB, 0x8C, 0x5E, 0x07, 0x9E, 0x09, 0xE2, 0xC8, 0xA8, 0x33, 0x9C],
    rfl⟩

/-- The fields extracted from a ClientHello. -/
@[ext]
structure ClientHelloInfo where
  sni : Option String := none
  alpnOffered : List AlpnProtocol := []
  cipherSuites : List CipherSuite := []
  groupsOffered : List NamedGroup := []
  /-- The group of the first key share. -/
  keyShareGroup : Option NamedGroup := none
  /-- The highest offered version. -/
  maxVersion : Option TlsVersion := none
  deriving DecidableEq, Repr

/-- The fields extracted from a ServerHello. -/
structure ServerHelloInfo where
  tlsVersion : Option TlsVersion := none
  cipherSuiteSelected : Option CipherSuite := none
  keyShareGroup : Option NamedGroup := none
  alpnSelected : Option AlpnProtocol := none
  deriving DecidableEq, Repr

/-! ## Summaries -/

/-- The group of the first entry of a `key_share` body, in either of its forms. -/
def firstKeyShareGroup (bytes : Bytes) : Option NamedGroup :=
  match bytes with
  | b0 :: b1 :: b2 :: b3 :: rest =>
    if (u16FromBe b0 b1).toNat + 2 = rest.length + 4 then
      some (NamedGroup.fromU16 (u16FromBe b2 b3))
    else
      some (NamedGroup.fromU16 (u16FromBe b0 b1))
  | _ => none

/-- The preference among versions. -/
def preferredVersionRank : TlsVersion → Nat
  | .tls13 => 5
  | .tls12 => 4
  | .tls11 => 3
  | .tls10 => 2
  | .ssl30 => 1
  | .other _ => 0

/-- `Iterator::max_by_key`: the last of the elements with the greatest key. -/
def maxByKey {α : Type} (key : α → Nat) : List α → Option α
  | [] => none
  | x :: xs => some (xs.foldl (fun best y => if key best ≤ key y then y else best) x)

/-- Record what an extension of a ClientHello says. -/
def applyClientExtension (info : ClientHelloInfo) (ext : TlsExtension) : ClientHelloInfo :=
  match ext with
  | .sni entries =>
    match entries.head? with
    | some (_, name) => { info with sni := some (fromUtf8Lossy name) }
    | none => info
  | .alpn protocols => { info with alpnOffered := protocols.map AlpnProtocol.fromBytes }
  | .ellipticCurves groups => { info with groupsOffered := groups.map NamedGroup.fromU16 }
  | .keyShare bytes => { info with keyShareGroup := firstKeyShareGroup bytes }
  | .supportedVersions versions =>
    { info with maxVersion := maxByKey preferredVersionRank (versions.map TlsVersion.fromU16) }
  | .other => info

/-- Record what an extension of a ServerHello says. -/
def applyServerExtension (info : ServerHelloInfo) (ext : TlsExtension) : ServerHelloInfo :=
  match ext with
  | .keyShare bytes => { info with keyShareGroup := firstKeyShareGroup bytes }
  | .supportedVersions versions =>
    match versions.head? with
    | some v => { info with tlsVersion := some (TlsVersion.fromU16 v) }
    | none => info
  | .alpn protocols => { info with alpnSelected := protocols.head?.map AlpnProtocol.fromBytes }
  | _ => info

section Summaries

variable (tp : TlsParser)

/-- Visit the extensions of a block up to the first one that does not parse. Every turn reads at
least one byte, so a fuel of `remaining.length` turns is never exhausted. -/
def walkExtensionsLoop {ρ : Type} (visit : ρ → TlsExtension → ρ) : Nat → Bytes → ρ → ρ
  | 0, _, info => info
  | fuel + 1, remaining, info =>
    if remaining.isEmpty then info
    else
      match tp.parseTlsExtension remaining with
      | .ok (rest, ext) => walkExtensionsLoop visit fuel rest (visit info ext)
      | .error _ => info

/-- Visit the extensions of a block up to the first one that does not parse. -/
def walkExtensions {ρ : Type} (extBytes : Bytes) (visit : ρ → TlsExtension → ρ) (info : ρ) : ρ :=
  walkExtensionsLoop tp visit extBytes.length extBytes info

/-- The summary of a parsed ClientHello. -/
def extractClientHello (ch : TlsClientHelloContents) : ClientHelloInfo :=
  let info : ClientHelloInfo := { cipherSuites := ch.ciphers.map CipherSuite.fromU16 }
  match ch.ext with
  | some extBytes => walkExtensions tp extBytes applyClientExtension info
  | none => info

/-- The summary of a parsed ServerHello. -/
def extractServerHello (sh : TlsServerHelloContents) : ServerHelloInfo :=
  let info : ServerHelloInfo :=
    { cipherSuiteSelected := some (CipherSuite.fromU16 sh.cipher)
      tlsVersion := some (TlsVersion.fromU16 sh.version) }
  match sh.ext with
  | some extBytes => walkExtensions tp extBytes applyServerExtension info
  | none => info

/-- Parse a handshake message that should be a ClientHello. -/
def parseClientHello (bytes : Bytes) : Except Error ClientHelloInfo :=
  match tp.parseTlsMessageHandshake bytes with
  | .error e => .error (.parse ("client hello: " ++ e))
  | .ok (_, .handshake (.clientHello ch)) => .ok (extractClientHello tp ch)
  | .ok _ => .error (.parse "expected ClientHello handshake message")

/-- Parse a handshake message that should be a ServerHello. -/
def parseServerHello (bytes : Bytes) : Except Error ServerHelloInfo :=
  match tp.parseTlsMessageHandshake bytes with
  | .error e => .error (.parse ("server hello: " ++ e))
  | .ok (_, .handshake (.serverHello sh)) => .ok (extractServerHello tp sh)
  | .ok _ => .error (.parse "expected ServerHello handshake message")

end Summaries

/-! ## Full decoders -/

/-- `{:#04x}`: two lower-case hexadecimal digits behind `0x`. -/
def hexByte (v : UInt8) : String :=
  String.ofList ['0', 'x', Nat.digitChar (v.toNat / 16), Nat.digitChar (v.toNat % 16)]

/-- The message body behind a four-byte handshake header of the expected type. -/
def stripHandshakeHeader (bytes : Bytes) (expectedType : UInt8) : Except Error Bytes :=
  match bytes with
  | ty :: l1 :: l2 :: l3 :: rest =>
    if ty ≠ expectedType then
      .error (.parse
        ("unexpected handshake type: " ++ hexByte ty ++ " (want " ++ hexByte expectedType ++ ")"))
    else
      let length := (u32FromBe 0 l1 l2 l3).toNat
      if rest.length < length then .error (.parse "handshake body truncated")
      else .ok (rest.take length)
  | _ => .error (.parse "handshake header truncated")

/-- Read one byte; every reader returns the value and the advanced cursor. -/
def readU8 (cursor : Bytes) : Except Error (UInt8 × Bytes) :=
  match cursor with
  | first :: rest => .ok (first, rest)
  | [] => .error (.parse "truncated u8")

/-- Read a two-byte number. -/
def readU16 (cursor : Bytes) : Except Error (UInt16 × Bytes) :=
  match cursor with
  | hi :: lo :: rest => .ok (u16FromBe hi lo, rest)
  | _ => .error (.parse "truncated u16")

/-- Read 32 bytes. -/
def readArray32 (cursor : Bytes) : Except Error (Random × Bytes) :=
  if h : cursor.length < 32 then .error (.parse "truncated [u8; 32]")
  else .ok (⟨cursor.take 32, by simp only [List.length_take]; omega⟩, cursor.drop 32)

/-- Read `n` bytes. -/
def readBytes (cursor : Bytes) (n : Nat) : Except Error (Bytes × Bytes) :=
  if cursor.length < n then .error (.parse s!"truncated {n}-byte slice")
  else .ok (cursor.take n, cursor.drop n)

/-- One turn of the loop of `walkExtensionBodies`. -/
def cutExtension : Bytes → Cut DecodedExtension Unit
  | t1 :: t2 :: l1 :: l2 :: rest =>
    let bodyLen := (u16FromBe l1 l2).toNat
    if rest.length < bodyLen then .need
    else .frame (decodeExtension (u16FromBe t1 t2) (rest.take bodyLen)) (4 + bodyLen)
  | _ => .need

/-- Decode the extensions of a block up to the first one that is truncated. -/
def walkExtensionBodies (extBytes : Bytes) : List DecodedExtension :=
  (peelLoop cutExtension (extBytes.length + 1) extBytes).frames.map Prod.fst

/-- A cipher suite code with its name, if it has one. -/
def knownCipherSuite (code : UInt16) : UInt16 × Option CipherSuite :=
  match CipherSuite.fromU16 code with
  | .other _ => (code, none)
  | suite => (code, some suite)

/-- The optional extension block at the end of a hello. -/
def readExtensions (cursor : Bytes) : Except Error (List DecodedExtension) :=
  if cursor.isEmpty then .ok []
  else do
    let (extLen, cursor) ← readU16 cursor
    let (extBytes, _) ← readBytes cursor extLen.toNat
    return walkExtensionBodies extBytes

/-- Fully decode a ClientHello message. -/
def decodeClientHello (bytes : Bytes) : Except Error DecodedClientHello := do
  let cursor ← stripHandshakeHeader bytes 1
  let (legacyVersion, cursor) ← readU16 cursor
  let (random, cursor) ← readArray32 cursor
  let (sessionIdLen, cursor) ← readU8 cursor
  let (sessionId, cursor) ← readBytes cursor sessionIdLen.toNat
  let (cipherSuitesLen, cursor) ← readU16 cursor
  if cipherSuitesLen.toNat % 2 ≠ 0 then
    throw (.parse "client hello: odd cipher suites length")
  let (cipherBytes, cursor) ← readBytes cursor cipherSuitesLen.toNat
  let (compressionLen, cursor) ← readU8 cursor
  let (compressionMethods, cursor) ← readBytes cursor compressionLen.toNat
  let extensions ← readExtensions cursor
  return {
    legacyVersion
    random
    sessionId
    cipherSuites := (u16Chunks cipherBytes).map knownCipherSuite
    compressionMethods
    extensions }

/-- Fully decode a ServerHello or HelloRetryRequest message. -/
def decodeServerHello (bytes : Bytes) : Except Error DecodedServerHello := do
  let cursor ← stripHandshakeHeader bytes 2
  let (legacyVersion, cursor) ← readU16 cursor
  let (random, cursor) ← readArray32 cursor
  let (sessionIdLen, cursor) ← readU8 cursor
  let (sessionIdEcho, cursor) ← readBytes cursor sessionIdLen.toNat
  let (cipherCode, cursor) ← readU16 cursor
  let (compressionMethod, cursor) ← readU8 cursor
  let extensions ← readExtensions cursor
  return {
    legacyVersion
    random
    sessionIdEcho
    cipherSuite := knownCipherSuite cipherCode
    compressionMethod
    extensions }

/-- Whether a ServerHello is a HelloRetryRequest. -/
def isHelloRetryRequest (sh : DecodedServerHello) : Bool :=
  sh.random = HELLO_RETRY_REQUEST_RANDOM

end SeeHandshake

import SeeHandshake.Parser.ExtensionForms

/-!
# Hello messages on the wire

A `WireClientHello` or `WireServerHello` is a hello that can be sent: each of its parts fits its
length field. `Reencodes` writes a decoded hello again, and `BlockWhole` is the condition under which
nothing of a hello is left unread.
-/

namespace SeeHandshake

open Lib

/-! ## Cipher suites -/

/-- The code of a cipher suite. -/
def CipherSuite.code : CipherSuite → UInt16
  | .aes128GcmSha256 => 0x1301
  | .aes256GcmSha384 => 0x1302
  | .chacha20Poly1305Sha256 => 0x1303
  | .aes128CcmSha256 => 0x1304
  | .aes128Ccm8Sha256 => 0x1305
  | .ecdheEcdsaAes128GcmSha256 => 0xc02b
  | .ecdheEcdsaAes256GcmSha384 => 0xc02c
  | .ecdheRsaAes128GcmSha256 => 0xc02f
  | .ecdheRsaAes256GcmSha384 => 0xc030
  | .ecdheEcdsaChacha20Poly1305Sha256 => 0xcca9
  | .ecdheRsaChacha20Poly1305Sha256 => 0xcca8
  | .rsaAes128GcmSha256 => 0x009c
  | .rsaAes256GcmSha384 => 0x009d
  | .other v => v

/-- The suite has a name. -/
def CipherSuite.Named (s : CipherSuite) : Prop := ∀ v, s ≠ .other v

/-- The suite is paired with its name, if it is the code of a named one. -/
def SuiteNamed (suite : UInt16 × Option CipherSuite) : Prop :=
  ∀ s, suite.2 = some s ↔ s.Named ∧ s.code = suite.1

/-! ## Messages -/

/-- The bytes of a handshake message. -/
def handshakeMessage (ty : UInt8) (body : Bytes) : Bytes := ty :: (u24ToBe body.length ++ body)

/-- The bytes of an extension. -/
def WireExtension.encode (e : WireExtension) : Bytes := u16ToBe e.extType ++ vec16 e.body

/-- A decoded extension as it was on the wire. -/
def DecodedExtension.wire (e : DecodedExtension) : WireExtension := ⟨e.extType, e.raw⟩

/-- The bytes of an extension block, which may be left out. -/
def writeExtensions : Option (List WireExtension) → Bytes
  | none => []
  | some exts => vec16 (exts.map WireExtension.encode).flatten

/-- The extensions, and all of them together, have a length. -/
def ExtensionsFit (block : Option (List WireExtension)) : Prop :=
  ∀ exts, block = some exts →
    (∀ e ∈ exts, e.body.length < 65536) ∧ (exts.map WireExtension.encode).flatten.length < 65536

/-- The body of a ClientHello that ends in `tail`. -/
def clientHelloBody (legacyVersion : UInt16) (random : Random) (sessionId : Bytes)
    (cipherSuites : List UInt16) (compressionMethods tail : Bytes) : Bytes :=
  u16ToBe legacyVersion ++ (random.1 ++ (vec8 sessionId ++
    (vec16 (u16List cipherSuites) ++ (vec8 compressionMethods ++ tail))))

/-- The body of a ServerHello that ends in `tail`. -/
def serverHelloBody (legacyVersion : UInt16) (random : Random) (sessionIdEcho : Bytes)
    (cipherSuite : UInt16) (compressionMethod : UInt8) (tail : Bytes) : Bytes :=
  u16ToBe legacyVersion ++ (random.1 ++ (vec8 sessionIdEcho ++
    (u16ToBe cipherSuite ++ (compressionMethod :: tail))))

/-! ## Hellos that can be sent -/

/-- A ClientHello as it is sent. -/
structure WireClientHello where
  legacyVersion : UInt16
  random : Random
  sessionId : Bytes
  cipherSuites : List UInt16
  compressionMethods : Bytes
  /-- The extensions, in an extension block that may be left out. -/
  extensions : Option (List WireExtension)
  sessionId_lt : sessionId.length < 256
  cipherSuites_lt : (u16List cipherSuites).length < 65536
  compressionMethods_lt : compressionMethods.length < 256
  extensions_fit : ExtensionsFit extensions

/-- A ServerHello as it is sent. -/
structure WireServerHello where
  legacyVersion : UInt16
  random : Random
  sessionIdEcho : Bytes
  cipherSuite : UInt16
  compressionMethod : UInt8
  /-- The extensions, in an extension block that may be left out. -/
  extensions : Option (List WireExtension)
  sessionIdEcho_lt : sessionIdEcho.length < 256
  extensions_fit : ExtensionsFit extensions

/-- The bytes of a ClientHello message. -/
def WireClientHello.encode (hello : WireClientHello) : Bytes :=
  handshakeMessage 1 (clientHelloBody hello.legacyVersion hello.random hello.sessionId
    hello.cipherSuites hello.compressionMethods (writeExtensions hello.extensions))

/-- The bytes of a ServerHello message. -/
def WireServerHello.encode (hello : WireServerHello) : Bytes :=
  handshakeMessage 2 (serverHelloBody hello.legacyVersion hello.random hello.sessionIdEcho
    hello.cipherSuite hello.compressionMethod (writeExtensions hello.extensions))

/-- The decoded ClientHello has the fields of the one that was sent. -/
structure WireClientHello.Describes (hello : WireClientHello) (decoded : DecodedClientHello) :
    Prop where
  legacyVersion : decoded.legacyVersion = hello.legacyVersion
  random : decoded.random = hello.random
  sessionId : decoded.sessionId = hello.sessionId
  cipherSuites : decoded.cipherSuites.map Prod.fst = hello.cipherSuites
  suitesNamed : ∀ suite ∈ decoded.cipherSuites, SuiteNamed suite
  compressionMethods : decoded.compressionMethods = hello.compressionMethods
  extensions : decoded.extensions.map DecodedExtension.wire = hello.extensions.getD []

/-- The decoded ServerHello has the fields of the one that was sent. -/
structure WireServerHello.Describes (hello : WireServerHello) (decoded : DecodedServerHello) :
    Prop where
  legacyVersion : decoded.legacyVersion = hello.legacyVersion
  random : decoded.random = hello.random
  sessionIdEcho : decoded.sessionIdEcho = hello.sessionIdEcho
  cipherSuite : decoded.cipherSuite.1 = hello.cipherSuite
  suiteNamed : SuiteNamed decoded.cipherSuite
  compressionMethod : decoded.compressionMethod = hello.compressionMethod
  extensions : decoded.extensions.map DecodedExtension.wire = hello.extensions.getD []

/-! ## Writing a decoded hello again -/

/-- The bytes of a decoded ClientHello with the given extension block. -/
def DecodedClientHello.encode (hello : DecodedClientHello) (block : Option (List WireExtension)) :
    Bytes :=
  handshakeMessage 1 (clientHelloBody hello.legacyVersion hello.random hello.sessionId
    (hello.cipherSuites.map Prod.fst) hello.compressionMethods (writeExtensions block))

/-- The bytes of a decoded ServerHello with the given extension block. -/
def DecodedServerHello.encode (hello : DecodedServerHello) (block : Option (List WireExtension)) :
    Bytes :=
  handshakeMessage 2 (serverHelloBody hello.legacyVersion hello.random hello.sessionIdEcho
    hello.cipherSuite.1 hello.compressionMethod (writeExtensions block))

/-- The message is the decoded hello written again; an empty extension block may be left out. -/
def DecodedClientHello.Reencodes (hello : DecodedClientHello) (message : Bytes) : Prop :=
  hello.encode (some (hello.extensions.map DecodedExtension.wire)) = message ∨
    hello.extensions = [] ∧ hello.encode none = message

@[inherit_doc DecodedClientHello.Reencodes]
def DecodedServerHello.Reencodes (hello : DecodedServerHello) (message : Bytes) : Prop :=
  hello.encode (some (hello.extensions.map DecodedExtension.wire)) = message ∨
    hello.extensions = [] ∧ hello.encode none = message

instance (hello : DecodedClientHello) (message : Bytes) : Decidable (hello.Reencodes message) :=
  inferInstanceAs (Decidable (_ ∨ _))

instance (hello : DecodedServerHello) (message : Bytes) : Decidable (hello.Reencodes message) :=
  inferInstanceAs (Decidable (_ ∨ _))

/-! ## The end of a hello -/

/-- The message that a handshake header declares. -/
def declaredMessage : Bytes → Bytes
  | ty :: l1 :: l2 :: l3 :: rest => ty :: l1 :: l2 :: l3 :: rest.take (u32FromBe 0 l1 l2 l3).toNat
  | bytes => bytes

/-- What stands behind a vector with a one-byte length. -/
def skipVec8 : Bytes → Bytes
  | l :: rest => rest.drop l.toNat
  | [] => []

/-- What stands behind a vector with a two-byte length. -/
def skipVec16 : Bytes → Bytes
  | l1 :: l2 :: rest => rest.drop (u16FromBe l1 l2).toNat
  | _ => []

/-- What stands behind the compression methods of a ClientHello message. -/
def clientHelloTail (bytes : Bytes) : Bytes :=
  skipVec8 (skipVec16 (skipVec8 ((declaredMessage bytes).drop 38)))

/-- What stands behind the compression method of a ServerHello message. -/
def serverHelloTail (bytes : Bytes) : Bytes := (skipVec8 ((declaredMessage bytes).drop 38)).drop 3

/-- There is no extension block, or it ends the message and splits into extensions. -/
def BlockWhole : Bytes → Prop
  | [] => True
  | l1 :: l2 :: block => block.length = (u16FromBe l1 l2).toNat ∧ Whole cutExtension block
  | _ => False

end SeeHandshake

import SeeHandshake.Model.Tls
import SeeHandshake.Parser.Record

/-!
# Per-record timeline events

`model/record.rs`: a `RecordEvent` is a snapshot of one record as observed on the wire, with the
decoded hello messages and extensions it may carry.
-/

namespace SeeHandshake

/-- The direction of a logged record. -/
inductive RecordDirection where
  | clientToServer
  | serverToClient
  deriving DecidableEq, Repr

/-- A 32-byte hello random. -/
abbrev Random := { bytes : Bytes // bytes.length = 32 }

/-- An entry of a `server_name` extension. -/
structure ServerNameEntry where
  /-- The name type, `0` for a host name. -/
  nameType : UInt8
  name : Bytes
  deriving DecidableEq, Repr

/-- An entry of a `key_share` extension. -/
structure KeyShareEntry where
  group : NamedGroup
  groupCode : UInt16
  keyExchange : Bytes
  deriving DecidableEq, Repr

/-- An entry of the identity list of a `pre_shared_key` extension. -/
structure PskIdentity where
  identity : Bytes
  obfuscatedTicketAge : UInt32
  deriving DecidableEq, Repr

/-- A decoded extension body. -/
inductive ExtensionBody where
  | serverName (entries : List ServerNameEntry)
  | supportedVersions (versions : List UInt16)
  | signatureAlgorithms (schemes : List UInt16)
  | keyShare (entries : List KeyShareEntry)
  | supportedGroups (groups : List NamedGroup)
  | alpn (protocols : List Bytes)
  | pskKeyExchangeModes (modes : Bytes)
  | cookie (cookie : Bytes)
  /-- The identities, and the total length of the binders. -/
  | preSharedKey (identities : List PskIdentity) (bindersLen : Nat)
  | earlyData
  /-- A body that is not decoded. -/
  | opaqueBody
  deriving DecidableEq, Repr

/-- A TLS extension. -/
structure DecodedExtension where
  extType : UInt16
  name : String
  /-- The body as it was on the wire. -/
  raw : Bytes
  body : ExtensionBody
  deriving DecidableEq, Repr

/-- A fully decoded ClientHello. -/
structure DecodedClientHello where
  legacyVersion : UInt16
  random : Random
  sessionId : Bytes
  /-- The offered cipher suites: the code and, if it has one, its name. -/
  cipherSuites : List (UInt16 × Option CipherSuite)
  compressionMethods : Bytes
  /-- The extensions in wire order. -/
  extensions : List DecodedExtension
  deriving DecidableEq, Repr

/-- A fully decoded ServerHello or HelloRetryRequest. -/
structure DecodedServerHello where
  legacyVersion : UInt16
  random : Random
  sessionIdEcho : Bytes
  /-- The selected cipher suite: the code and, if it has one, its name. -/
  cipherSuite : UInt16 × Option CipherSuite
  compressionMethod : UInt8
  /-- The extensions in wire order. -/
  extensions : List DecodedExtension
  deriving DecidableEq, Repr

/-- A decoded plaintext handshake message. -/
inductive DecodedHandshake where
  | clientHello (ch : DecodedClientHello)
  | serverHello (sh : DecodedServerHello)
  | helloRetryRequest (sh : DecodedServerHello)
  /-- A message that is not decoded further. -/
  | unknown (msgType : UInt8) (raw : Bytes)
  deriving DecidableEq, Repr

/-- The body of a record event. -/
inductive RecordBody where
  | handshake (hs : DecodedHandshake)
  /-- An encrypted record: the inferred label and the first bytes of the ciphertext. -/
  | encryptedHandshake (inferredLabel : String) (ciphertextPreview : Bytes)
  | changeCipherSpec
  deriving DecidableEq, Repr

/-- A TLS record observed on the wire. -/
structure RecordEvent where
  direction : RecordDirection
  /-- When the record was assembled. -/
  timestampMs : UInt64
  /-- The position in the timeline, counted from one. -/
  sequence : UInt32
  outerType : TlsRecordType
  /-- The length of the payload. -/
  outerLength : UInt16
  /-- The header and the payload. -/
  raw : Bytes
  body : RecordBody
  deriving DecidableEq, Repr

end SeeHandshake

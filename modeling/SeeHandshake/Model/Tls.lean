import SeeHandshake.Bytes

/-!
# TLS enumerations

The numeric identifiers of the wire format (`model/tls.rs`). Codes without a name of their own are
kept in the `other` constructor, so no information is lost.
-/

namespace SeeHandshake

/-- A TLS version. -/
inductive TlsVersion where
  | ssl30
  | tls10
  | tls11
  | tls12
  | tls13
  | other (v : UInt16)
  deriving DecidableEq, Repr

/-- Decode a two-byte version. -/
def TlsVersion.fromU16 (v : UInt16) : TlsVersion :=
  match v with
  | 0x0300 => .ssl30
  | 0x0301 => .tls10
  | 0x0302 => .tls11
  | 0x0303 => .tls12
  | 0x0304 => .tls13
  | v => .other v

/-- A cipher suite. -/
inductive CipherSuite where
  | aes128GcmSha256
  | aes256GcmSha384
  | chacha20Poly1305Sha256
  | aes128CcmSha256
  | aes128Ccm8Sha256
  | ecdheEcdsaAes128GcmSha256
  | ecdheEcdsaAes256GcmSha384
  | ecdheRsaAes128GcmSha256
  | ecdheRsaAes256GcmSha384
  | ecdheEcdsaChacha20Poly1305Sha256
  | ecdheRsaChacha20Poly1305Sha256
  | rsaAes128GcmSha256
  | rsaAes256GcmSha384
  | other (v : UInt16)
  deriving DecidableEq, Repr

/-- Decode a two-byte cipher suite. -/
def CipherSuite.fromU16 (v : UInt16) : CipherSuite :=
  match v with
  | 0x1301 => .aes128GcmSha256
  | 0x1302 => .aes256GcmSha384
  | 0x1303 => .chacha20Poly1305Sha256
  | 0x1304 => .aes128CcmSha256
  | 0x1305 => .aes128Ccm8Sha256
  | 0xc02b => .ecdheEcdsaAes128GcmSha256
  | 0xc02c => .ecdheEcdsaAes256GcmSha384
  | 0xc02f => .ecdheRsaAes128GcmSha256
  | 0xc030 => .ecdheRsaAes256GcmSha384
  | 0xcca9 => .ecdheEcdsaChacha20Poly1305Sha256
  | 0xcca8 => .ecdheRsaChacha20Poly1305Sha256
  | 0x009c => .rsaAes128GcmSha256
  | 0x009d => .rsaAes256GcmSha384
  | v => .other v

/-- A named group: an elliptic curve, a finite field or a hybrid. -/
inductive NamedGroup where
  | secp256r1
  | secp384r1
  | secp521r1
  | x25519
  | x448
  | ffdhe2048
  | ffdhe3072
  | ffdhe4096
  | x25519Kyber768Draft00
  | x25519MlKem768
  | secP256r1MlKem768
  | other (v : UInt16)
  deriving DecidableEq, Repr

/-- Decode a two-byte group. -/
def NamedGroup.fromU16 (v : UInt16) : NamedGroup :=
  match v with
  | 0x0017 => .secp256r1
  | 0x0018 => .secp384r1
  | 0x0019 => .secp521r1
  | 0x001d => .x25519
  | 0x001e => .x448
  | 0x0100 => .ffdhe2048
  | 0x0101 => .ffdhe3072
  | 0x0102 => .ffdhe4096
  | 0x6399 => .x25519Kyber768Draft00
  | 0x11ec => .x25519MlKem768
  | 0x11eb => .secP256r1MlKem768
  | v => .other v

/-- An ALPN protocol name. -/
structure AlpnProtocol where
  /-- The name, with ill-formed UTF-8 replaced. -/
  name : String
  deriving DecidableEq, Repr

/-- Construct a protocol name from its octets. -/
def AlpnProtocol.fromBytes (bytes : Bytes) : AlpnProtocol := ⟨fromUtf8Lossy bytes⟩

end SeeHandshake

import SeeHandshake.Lib.Hex
import SeeHandshake.Model.Connection
import SeeHandshake.Ui.Sections

/-!
# Texts of the data model

The `Display` implementations and the labels of `model/`. Addresses are printed as the Rust standard library
prints them.
-/

namespace SeeHandshake

open Lib

/-- `Unknown(0x1234)`. -/
def unknownCode (v : UInt16) : String := "Unknown(0x" ++ hexWord v ++ ")"

def TlsVersion.display : TlsVersion → String
  | .ssl30 => "SSL 3.0"
  | .tls10 => "TLS 1.0"
  | .tls11 => "TLS 1.1"
  | .tls12 => "TLS 1.2"
  | .tls13 => "TLS 1.3"
  | .other v => unknownCode v

def CipherSuite.display : CipherSuite → String
  | .aes128GcmSha256 => "TLS_AES_128_GCM_SHA256"
  | .aes256GcmSha384 => "TLS_AES_256_GCM_SHA384"
  | .chacha20Poly1305Sha256 => "TLS_CHACHA20_POLY1305_SHA256"
  | .aes128CcmSha256 => "TLS_AES_128_CCM_SHA256"
  | .aes128Ccm8Sha256 => "TLS_AES_128_CCM_8_SHA256"
  | .ecdheEcdsaAes128GcmSha256 => "TLS_ECDHE_ECDSA_WITH_AES_128_GCM_SHA256"
  | .ecdheEcdsaAes256GcmSha384 => "TLS_ECDHE_ECDSA_WITH_AES_256_GCM_SHA384"
  | .ecdheRsaAes128GcmSha256 => "TLS_ECDHE_RSA_WITH_AES_128_GCM_SHA256"
  | .ecdheRsaAes256GcmSha384 => "TLS_ECDHE_RSA_WITH_AES_256_GCM_SHA384"
  | .ecdheEcdsaChacha20Poly1305Sha256 => "TLS_ECDHE_ECDSA_WITH_CHACHA20_POLY1305_SHA256"
  | .ecdheRsaChacha20Poly1305Sha256 => "TLS_ECDHE_RSA_WITH_CHACHA20_POLY1305_SHA256"
  | .rsaAes128GcmSha256 => "TLS_RSA_WITH_AES_128_GCM_SHA256"
  | .rsaAes256GcmSha384 => "TLS_RSA_WITH_AES_256_GCM_SHA384"
  | .other v => unknownCode v

def NamedGroup.display : NamedGroup → String
  | .secp256r1 => "secp256r1"
  | .secp384r1 => "secp384r1"
  | .secp521r1 => "secp521r1"
  | .x25519 => "x25519"
  | .x448 => "x448"
  | .ffdhe2048 => "ffdhe2048"
  | .ffdhe3072 => "ffdhe3072"
  | .ffdhe4096 => "ffdhe4096"
  | .x25519Kyber768Draft00 => "x25519_kyber768_draft00"
  | .x25519MlKem768 => "X25519MLKEM768"
  | .secP256r1MlKem768 => "SecP256r1MLKEM768"
  | .other v => unknownCode v

def AlpnProtocol.display (p : AlpnProtocol) : String := p.name

/-- Short, human-readable label. -/
def HandshakeStage.label : HandshakeStage → String
  | .idle => "Idle"
  | .clientHello => "ClientHello"
  | .serverHello => "ServerHello"
  | .certificate => "Certificate"
  | .serverCertificate => "Server Cert"
  | .serverKeyExchange => "Svr Key Exch"
  | .serverHelloDone => "Svr Hello Done"
  | .clientKeyExchange => "Clt Key Exch"
  | .clientFinished => "Clt Finished"
  | .serverFinished => "Svr Finished"
  | .applicationData => "App Data"
  | .errored => "Errored"

/-- The arrow from source to destination in the timeline. -/
def RecordDirection.arrow : RecordDirection → String
  | .clientToServer => "→"
  | .serverToClient => "←"

/-- One-line label for the timeline row. -/
def DecodedHandshake.label : DecodedHandshake → String
  | .clientHello _ => "ClientHello"
  | .serverHello _ => "ServerHello"
  | .helloRetryRequest _ => "HelloRetryRequest"
  | .unknown msgType _ => handshakeTypeName msgType

/-! ## Addresses -/

/-- `Ipv4Addr::fmt`. -/
def ipv4Display (a b c d : UInt8) : List Char :=
  List.intercalate ['.'] ([a, b, c, d].map fun octet => decimal octet.toNat)

/-- Segments with a colon between them. -/
def fmtSubslice (segments : List UInt16) : List Char :=
  List.intercalate [':'] (segments.map fun segment => Nat.toDigits 16 segment.toNat)

/-- A run of zero segments. -/
structure ZeroSpan where
  start : ℕ := 0
  len : ℕ := 0
  deriving DecidableEq, Repr

/-- The first longest run of zero segments: it, and the run in progress. -/
def zeroSpans (segments : List UInt16) : ZeroSpan × ZeroSpan :=
  segments.zipIdx.foldl (fun (longest, current) (segment, i) =>
    if segment = 0 then
      let current : ZeroSpan := ⟨if current.len = 0 then i else current.start, current.len + 1⟩
      (if current.len > longest.len then current else longest, current)
    else (longest, {})) ({}, {})

/-- `Ipv6Addr::fmt`. -/
def ipv6Display (octets : Bytes) : List Char :=
  match octets with
  | [0, 0, 0, 0, 0, 0, 0, 0, 0, 0, 0xff, 0xff, a, b, c, d] => "::ffff:".toList ++ ipv4Display a b c d
  | _ =>
    let segments := u16Chunks octets
    let zeroes := (zeroSpans segments).1
    if zeroes.len > 1 then
      fmtSubslice (segments.take zeroes.start) ++ [':', ':'] ++
        fmtSubslice (segments.drop (zeroes.start + zeroes.len))
    else fmtSubslice segments

def IpAddr.display : IpAddr → List Char
  | .v4 a b c d => ipv4Display a b c d
  | .v6 octets => ipv6Display octets.1

def ConnectionKey.display (key : ConnectionKey) : List Char :=
  key.clientIp.display ++ [':'] ++ decimal key.clientPort.toNat ++ [' ', '→', ' '] ++
    key.serverIp.display ++ [':'] ++ decimal key.serverPort.toNat

example : ipv6Display [0x20, 1, 0xd, 0xb8, 0, 0, 0, 0, 0, 1, 0, 0, 0, 0, 0, 1] =
    "2001:db8::1:0:0:1".toList := by decide

end SeeHandshake

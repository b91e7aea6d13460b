import SeeHandshake.Bytes

/-!
# The `tls_parser` interface

The third-party crate `tls_parser` is not part of the repository; the model takes its two entry
points as a parameter. Only the variants and fields the repository reads are kept.
-/

namespace SeeHandshake

/-- The contents of a parsed ClientHello. -/
structure TlsClientHelloContents where
  ciphers : List UInt16
  /-- The extension block, without its length, if there is one. -/
  ext : Option Bytes
  deriving DecidableEq, Repr

/-- The contents of a parsed ServerHello. -/
structure TlsServerHelloContents where
  version : UInt16
  cipher : UInt16
  /-- The extension block, without its length, if there is one. -/
  ext : Option Bytes
  deriving DecidableEq, Repr

/-- A parsed handshake message. -/
inductive TlsMessageHandshake where
  | clientHello (ch : TlsClientHelloContents)
  | serverHello (sh : TlsServerHelloContents)
  | certificate
  | serverKeyExchange
  | serverDone
  | clientKeyExchange
  | other
  deriving DecidableEq, Repr

/-- A parsed message. -/
inductive TlsMessage where
  | handshake (hs : TlsMessageHandshake)
  | other
  deriving DecidableEq, Repr

/-- A parsed extension. -/
inductive TlsExtension where
  /-- The name types and names. -/
  | sni (entries : List (UInt8 × Bytes))
  | alpn (protocols : List Bytes)
  | ellipticCurves (groups : List UInt16)
  /-- The body as it was on the wire. -/
  | keyShare (bytes : Bytes)
  | supportedVersions (versions : List UInt16)
  | other
  deriving DecidableEq, Repr

/-- The entry points of `tls_parser`: each returns the unread input and the parsed value, or the
debug text of its error. -/
structure TlsParser where
  parseTlsMessageHandshake : Bytes → Except String (Bytes × TlsMessage)
  parseTlsExtension : Bytes → Except String (Bytes × TlsExtension)

/-- A parser that reads at least one byte of what it parses successfully. -/
structure TlsParser.Consumes (tp : TlsParser) : Prop where
  message : ∀ i rest msg, tp.parseTlsMessageHandshake i = .ok (rest, msg) → rest.length < i.length
  extension : ∀ i rest ext, tp.parseTlsExtension i = .ok (rest, ext) → rest.length < i.length

/-- A complete handshake message: it is parsed off the front of every input that starts with it. -/
structure TlsParser.IsMessage (tp : TlsParser) (bytes : Bytes) (msg : TlsMessage) : Prop where
  ne_nil : bytes ≠ []
  parse : ∀ rest, tp.parseTlsMessageHandshake (bytes ++ rest) = .ok (rest, msg)

/-- A sequence of complete handshake messages, each with the message it parses to. -/
def TlsParser.AreMessages (tp : TlsParser) (ms : List (Bytes × TlsMessage)) : Prop :=
  ∀ m ∈ ms, tp.IsMessage m.1 m.2

/-- The bytes of a sequence of messages. -/
def messageBytes (ms : List (Bytes × TlsMessage)) : Bytes := (ms.map Prod.fst).flatten

end SeeHandshake

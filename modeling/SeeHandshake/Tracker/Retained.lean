import SeeHandshake.Tracker.Errors
import SeeHandshake.Tracker.Ops

/-!
# What is kept of a handshake

Fields that were extracted once, and the plaintext part of a sequence of processed records: per
direction, the Handshake records before its first ChangeCipherSpec.
-/

namespace SeeHandshake

/-- Every field extracted in the first handshake is still extracted in the second one, possibly with
another value. -/
structure HandshakeInfo.Kept (handshake handshake' : HandshakeInfo) : Prop where
  sni : handshake.sni.isSome → handshake'.sni.isSome
  alpnSelected : handshake.alpnSelected.isSome → handshake'.alpnSelected.isSome
  cipherSuiteSelected :
    handshake.cipherSuiteSelected.isSome → handshake'.cipherSuiteSelected.isSome
  keyShareGroup : handshake.keyShareGroup.isSome → handshake'.keyShareGroup.isSome
  tlsVersion : handshake.tlsVersion.isSome → handshake'.tlsVersion.isSome
  certificateSubject : handshake.certificateSubject.isSome → handshake'.certificateSubject.isSome
  certificateIssuer : handshake.certificateIssuer.isSome → handshake'.certificateIssuer.isSome
  error : handshake.error.isSome → handshake'.error.isSome
  alpnOffered : handshake.alpnOffered ≠ [] → handshake'.alpnOffered ≠ []
  cipherSuitesOffered : handshake.cipherSuitesOffered ≠ [] → handshake'.cipherSuitesOffered ≠ []
  groupsOffered : handshake.groupsOffered ≠ [] → handshake'.groupsOffered ≠ []
  origin : handshake'.origin = handshake.origin

/-- The second state is about the same connection, and keeps what was extracted. -/
structure ConnectionState.Kept (state state' : ConnectionState) : Prop where
  key : state'.key = state.key
  firstSeenMs : state'.firstSeenMs = state.firstSeenMs
  handshake : state.handshake.Kept state'.handshake

/-! ## Plaintext -/

/-- Whether a ChangeCipherSpec of the direction is among the processed records. -/
def ccsProcessed (l : List (Direction × TlsRecord × Bytes)) (direction : Direction) : Bool :=
  l.any fun f => f.2.1.recordType = .changeCipherSpec && f.1 = direction

/-- The payloads of the Handshake records of the direction before its first ChangeCipherSpec. -/
def plaintext (l : List (Direction × TlsRecord × Bytes)) (direction : Direction) : List Bytes :=
  (((l.filter fun f => f.1 = direction).takeWhile
    fun f => f.2.1.recordType ≠ .changeCipherSpec).filter
      fun f => f.2.1.recordType = .handshake).map fun f => f.2.1.payload

/-- The contents of a ServerHello. -/
def TlsMessage.serverHello? : TlsMessage → Option TlsServerHelloContents
  | .handshake (.serverHello sh) => some sh
  | _ => none

/-- The ServerHello messages in the plaintext of the server. -/
def mergedServerHellos (tp : TlsParser) (l : List (Direction × TlsRecord × Bytes)) :
    List TlsServerHelloContents :=
  ((plaintext l .serverToClient).flatMap (messagesOf tp)).filterMap TlsMessage.serverHello?

end SeeHandshake

import SeeHandshake.Model.Origin
import SeeHandshake.Model.Tls

/-!
# Handshake state

`model/handshake.rs`: the observable stages of a handshake, and the fields extracted from it.
-/

namespace SeeHandshake

/-- The observable stages of a TLS 1.2 or TLS 1.3 handshake. -/
inductive HandshakeStage where
  | idle
  | clientHello
  | serverHello
  /-- TLS 1.3: the encrypted server flight. -/
  | certificate
  /-- TLS 1.2: the plaintext server certificate. -/
  | serverCertificate
  | serverKeyExchange
  | serverHelloDone
  | clientKeyExchange
  | clientFinished
  | serverFinished
  | applicationData
  /-- The connection saw a fatal condition. -/
  | errored
  deriving DecidableEq, Repr

namespace HandshakeStage

/-- The stages of a TLS 1.3 handshake, in the order of the diagram. -/
def ordered : List HandshakeStage :=
  [clientHello, serverHello, certificate, clientFinished, serverFinished, applicationData]

/-- The stages of a TLS 1.2 handshake, in the order of the diagram. -/
def orderedTls12 : List HandshakeStage :=
  [clientHello, serverHello, serverCertificate, serverKeyExchange, serverHelloDone,
    clientKeyExchange, clientFinished, serverFinished, applicationData]

end HandshakeStage

/-- The fields extracted from a handshake. -/
structure HandshakeInfo where
  stage : HandshakeStage := .idle
  sni : Option String := none
  alpnOffered : List AlpnProtocol := []
  alpnSelected : Option AlpnProtocol := none
  cipherSuitesOffered : List CipherSuite := []
  cipherSuiteSelected : Option CipherSuite := none
  groupsOffered : List NamedGroup := []
  /-- The group of the key share. -/
  keyShareGroup : Option NamedGroup := none
  tlsVersion : Option TlsVersion := none
  certificateSubject : Option String := none
  certificateIssuer : Option String := none
  error : Option String := none
  /-- The owner of the socket. -/
  origin : Option Origin := none
  deriving DecidableEq, Repr

/-- An empty handshake in the idle stage. -/
def HandshakeInfo.new : HandshakeInfo := {}

end SeeHandshake

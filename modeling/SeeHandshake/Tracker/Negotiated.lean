import SeeHandshake.Tracker.Calls

/-!
# Negotiated fields

The fields of a handshake that the hello messages of both sides settle.
-/

namespace SeeHandshake

/-- What the client offered and what the server selected. -/
structure Negotiated where
  sni : Option String
  alpnOffered : List AlpnProtocol
  cipherSuitesOffered : List CipherSuite
  groupsOffered : List NamedGroup
  tlsVersion : Option TlsVersion
  cipherSuiteSelected : Option CipherSuite
  alpnSelected : Option AlpnProtocol
  deriving DecidableEq, Repr

/-- The negotiated fields of a handshake. -/
def HandshakeInfo.negotiated (handshake : HandshakeInfo) : Negotiated where
  sni := handshake.sni
  alpnOffered := handshake.alpnOffered
  cipherSuitesOffered := handshake.cipherSuitesOffered
  groupsOffered := handshake.groupsOffered
  tlsVersion := handshake.tlsVersion
  cipherSuiteSelected := handshake.cipherSuiteSelected
  alpnSelected := handshake.alpnSelected

/-- The negotiated fields, put together from a view that follows the client only and one that follows
the server only. The version of the server goes first. -/
def Negotiated.join (client server : HandshakeInfo) : Negotiated where
  sni := client.sni
  alpnOffered := client.alpnOffered
  cipherSuitesOffered := client.cipherSuitesOffered
  groupsOffered := client.groupsOffered
  tlsVersion := server.tlsVersion.or client.tlsVersion
  cipherSuiteSelected := server.cipherSuiteSelected
  alpnSelected := server.alpnSelected

/-- The payloads that a sequence of calls brings in a direction of a connection, in order. -/
def Call.payloads (key : ConnectionKey) (direction : Direction) (cs : List Call) : List Bytes :=
  (cs.filter fun c => decide (c.key = key ∧ c.direction = direction)).map Call.payload

/-- The negotiated fields that the tracker shows for a key. -/
def ConnectionTracker.negotiated {ρ : Type} (t : ConnectionTracker ρ) (key : ConnectionKey) :
    Option Negotiated :=
  (t.connections.lookup key).map (·.state.handshake.negotiated)

end SeeHandshake

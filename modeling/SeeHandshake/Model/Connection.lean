import Mathlib.Data.List.Lex
import SeeHandshake.Model.Handshake
import SeeHandshake.Model.Record

/-!
# Connections

`model/connection.rs`: connection keys, directions and the per-connection state.
-/

namespace SeeHandshake

/-- The most record events kept per connection. -/
def RECORD_LOG_CAP : Nat := 64

/-- A canonical four-tuple that identifies a TCP flow. -/
structure ConnectionKey where
  clientIp : IpAddr
  clientPort : UInt16
  serverIp : IpAddr
  serverPort : UInt16
  deriving DecidableEq, Repr

/-- The rank of an endpoint in the order of `(IpAddr, u16)` pairs: IPv4 before IPv6, then the octets
of the address, then the port. -/
def SocketAddr.rank (a : SocketAddr) : List ℕ :=
  match a.ip with
  | .v4 o1 o2 o3 o4 => [4, o1.toNat, o2.toNat, o3.toNat, o4.toNat, a.port.toNat]
  | .v6 octets => 6 :: (octets.1.map UInt8.toNat ++ [a.port.toNat])

/-- The ports that TLS servers usually listen on. -/
def TLS_WELL_KNOWN_PORTS : List UInt16 := [443, 8443]

def isTlsServerPort (port : UInt16) : Bool := port ∈ TLS_WELL_KNOWN_PORTS

/-- The key of the flow between two endpoints. A server port makes its endpoint the server; if
neither or both are server ports, the smaller endpoint is the client. -/
def ConnectionKey.canonical (aIp : IpAddr) (aPort : UInt16) (bIp : IpAddr) (bPort : UInt16) :
    ConnectionKey :=
  match isTlsServerPort aPort, isTlsServerPort bPort with
  | false, true => ⟨aIp, aPort, bIp, bPort⟩
  | true, false => ⟨bIp, bPort, aIp, aPort⟩
  | _, _ =>
    if SocketAddr.rank ⟨aIp, aPort⟩ ≤ SocketAddr.rank ⟨bIp, bPort⟩ then ⟨aIp, aPort, bIp, bPort⟩
    else ⟨bIp, bPort, aIp, aPort⟩

/-- The direction of a packet relative to the key of its connection. -/
inductive Direction where
  | clientToServer
  | serverToClient
  deriving DecidableEq, Repr

/-- The state of a connection as the tracker publishes it. -/
structure ConnectionState where
  key : ConnectionKey
  firstSeenMs : UInt64
  lastSeenMs : UInt64
  handshake : HandshakeInfo
  /-- The timeline of records, capped at `RECORD_LOG_CAP`. -/
  records : List RecordEvent
  deriving DecidableEq, Repr

end SeeHandshake

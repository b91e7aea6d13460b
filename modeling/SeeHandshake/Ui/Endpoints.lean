import SeeHandshake.Parser.Wire
import SeeHandshake.Tracker.Runs
import SeeHandshake.Ui.RunLive

/-!
# Conversations between two endpoints

What the tracker thread makes of a conversation whose client is known. The thread does not know it: it
takes the key of the flow from ports and addresses, and the direction of each segment from the key.
-/

namespace SeeHandshake

/-- The opposite direction. -/
def Direction.flip : Direction → Direction
  | .clientToServer => .serverToClient
  | .serverToClient => .clientToServer

/-- The endpoint that the key names as the client. -/
def ConnectionKey.client (key : ConnectionKey) : SocketAddr := ⟨key.clientIp, key.clientPort⟩

/-- The endpoint that the key names as the server. -/
def ConnectionKey.server (key : ConnectionKey) : SocketAddr := ⟨key.serverIp, key.serverPort⟩

/-- A segment captured on its way between two endpoints. -/
def SocketAddr.sends (a b : SocketAddr) (payload : Bytes) : TcpSegment :=
  ⟨a.ip, b.ip, a.port, b.port, payload⟩

/-- The key of the flow between two endpoints. -/
def SocketAddr.flow (a b : SocketAddr) : ConnectionKey := .canonical a.ip a.port b.ip b.port

/-- A server port or the order of the endpoints makes the first of two endpoints the client. -/
def ClientFirst (a b : SocketAddr) : Prop :=
  (¬ isTlsServerPort a.port ∧ isTlsServerPort b.port) ∨
    (isTlsServerPort a.port = isTlsServerPort b.port ∧ a.rank ≤ b.rank)

instance (a b : SocketAddr) : Decidable (ClientFirst a b) :=
  inferInstanceAs (Decidable (_ ∨ _))

/-- A segment of a conversation as it is captured when `a` is the client and `b` the server. -/
def Segment.between (a b : SocketAddr) (seg : Segment) : TcpSegment × UInt64 :=
  match seg.direction with
  | .clientToServer => (⟨a.ip, b.ip, a.port, b.port, seg.payload⟩, seg.nowMs)
  | .serverToClient => (⟨b.ip, a.ip, b.port, a.port, seg.payload⟩, seg.nowMs)

/-- What a new tracker extracts from a conversation between a client `a` and a server `b`, the origin
aside. -/
def extracted {ρ : Type} [OriginResolver ρ] (tp : TlsParser) (timeoutMs : UInt64) (resolver : ρ)
    (a b : SocketAddr) (talk : List Segment) : Option HandshakeInfo :=
  let t := (trackerThread tp (.withStaleTimeout timeoutMs resolver) (talk.map (Segment.between a b))).2
  (t.connections.lookup (a.flow b)).map fun conn => { conn.state.handshake with origin := none }

/-- The client sends a ClientHello in a record of its own, cut into segments in any way, and nothing
else is sent. -/
structure ClientHelloFlight (tp : TlsParser) (ch : TlsClientHelloContents) (talk : List Segment) :
    Prop where
  client : ∀ seg ∈ talk, seg.direction = .clientToServer
  ne_nil : ∀ seg ∈ talk, seg.payload ≠ []
  hello : ∃ r : WireRecord, TlsRecordType.fromU8 r.ty = .handshake ∧
    tp.IsMessage r.payload (.handshake (.clientHello ch)) ∧
    (talk.map Segment.payload).flatten = r.encode

end SeeHandshake

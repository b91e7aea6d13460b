import SeeHandshake.Ui.RunLive

/-!
# Frames

`capture/frame.rs`: an owned link-layer frame, and the TCP segment in it. The headers are sliced by a
library, which is a parameter.
-/

namespace SeeHandshake

/-- An owned copy of a captured link-layer frame. -/
structure Frame where
  /-- Seconds since the Unix epoch. -/
  timestampSecs : UInt64
  timestampUsecs : UInt32
  bytes : Bytes
  deriving DecidableEq, Repr

/-- `std::net::Ipv4Addr`. -/
structure Ipv4Addr where
  a : UInt8
  b : UInt8
  c : UInt8
  d : UInt8
  deriving DecidableEq, Repr

/-- `std::net::Ipv6Addr`. -/
abbrev Ipv6Addr := { bytes : Bytes // bytes.length = 16 }

/-- The network layer of a sliced packet. -/
inductive NetSlice where
  | ipv4 (source destination : Ipv4Addr)
  | ipv6 (source destination : Ipv6Addr)
  | arp
  deriving DecidableEq, Repr

/-- The transport layer of a sliced packet. -/
inductive TransportSlice where
  | tcp (sourcePort destinationPort : UInt16) (payload : Bytes)
  | udp
  | icmpv4
  | icmpv6
  deriving DecidableEq, Repr

/-- A packet as the slicing library returns it. -/
structure SlicedPacket where
  net : Option NetSlice
  transport : Option TransportSlice
  deriving DecidableEq, Repr

/-- `SlicedPacket::from_ethernet`. -/
abbrev FromEthernet := Bytes → Except String SlicedPacket

def Ipv4Addr.toIpAddr (addr : Ipv4Addr) : IpAddr := .v4 addr.a addr.b addr.c addr.d

/-- The source and the destination address, if the packet has an IP header. -/
def NetSlice.addrs : NetSlice → Option (IpAddr × IpAddr)
  | .ipv4 source destination => some (source.toIpAddr, destination.toIpAddr)
  | .ipv6 source destination => some (.v6 source, .v6 destination)
  | .arp => none

/-- The TCP segment of a frame; a frame without one, or with malformed headers, is dropped. -/
def extractTcp (fromEthernet : FromEthernet) (frameBytes : Bytes) : Option TcpSegment := do
  let sliced ← (fromEthernet frameBytes).toOption
  let net ← sliced.net
  let (srcIp, dstIp) ← net.addrs
  match ← sliced.transport with
  | .tcp srcPort dstPort payload => return { srcIp, dstIp, srcPort, dstPort, payload }
  | _ => none

end SeeHandshake

import SeeHandshake.Capture.Frame
import SeeHandshake.Error

/-!
# The capture backend

`capture/live.rs` and `capture/interfaces.rs`: the packet source over libpcap. What libpcap answers is
an input.
-/

namespace SeeHandshake

/-- A device that libpcap reports. -/
structure PcapDevice where
  name : String
  desc : Option String
  deriving DecidableEq, Repr

/-- The answers of libpcap while a capture handle is opened; an error is its displayed text. -/
structure Pcap where
  /-- `Device::lookup`: the default device, if there is one. -/
  lookup : Except String (Option PcapDevice)
  /-- `Capture::from_device`. -/
  fromDevice : String → Except String Unit
  /-- `open` on the configured capture. -/
  activate : String → Except String Unit
  /-- `filter` on the opened capture. -/
  filter : String → String → Except String Unit

/-- An error of libpcap while packets are read. -/
inductive PcapError where
  | timeoutExpired
  | noMorePackets
  | other (msg : String)
  deriving DecidableEq, Repr

/-- A packet, with the time of its header. -/
structure PcapPacket where
  tvSec : ℤ
  tvUsec : ℤ
  data : Bytes
  deriving DecidableEq, Repr

namespace LivePcapSource

/-- Open a capture handle on an interface, with a filter. -/
def openOn (pcap : Pcap) (interface bpf : String) : Except Error Unit := do
  (pcap.fromDevice interface).mapError Error.capture
  (pcap.activate interface).mapError Error.capture
  (pcap.filter interface bpf).mapError fun e => .capture ("BPF \x60" ++ bpf ++ "\x60: " ++ e)

/-- Open a capture handle on the default interface. -/
def openDefault (pcap : Pcap) (bpf : String) : Except Error Unit := do
  match ← pcap.lookup.mapError Error.capture with
  | some device => openOn pcap device.name bpf
  | none => .error (.capture "no default network device found")

/-- The next frame, or none for now. A time that does not fit reads as 0. -/
def nextFrame : Except PcapError PcapPacket → Except Error (Option Frame)
  | .ok pkt => .ok (some {
      timestampSecs := if 0 ≤ pkt.tvSec ∧ pkt.tvSec < 18446744073709551616 then .ofNat pkt.tvSec.toNat else 0
      timestampUsecs := if 0 ≤ pkt.tvUsec ∧ pkt.tvUsec < 4294967296 then .ofNat pkt.tvUsec.toNat else 0
      bytes := pkt.data })
  | .error .timeoutExpired | .error .noMorePackets => .ok none
  | .error (.other msg) => .error (.capture msg)

end LivePcapSource

/-- A network interface. -/
structure Interface where
  name : String
  description : Option String
  deriving DecidableEq, Repr

/-- The network interfaces; an empty description counts as none. -/
def listInterfaces (devices : Except String (List PcapDevice)) : Except Error (List Interface) := do
  let devices ← devices.mapError Error.capture
  return devices.map fun d =>
    { name := d.name
      description := if (d.desc.getD "").isEmpty then none else some (d.desc.getD "") }

end SeeHandshake

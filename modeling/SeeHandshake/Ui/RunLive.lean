import SeeHandshake.Tracker.Ops
import SeeHandshake.Ui.App

/-!
# The tracker thread

`ui/mod.rs`: the tracker thread ingests every captured TCP segment, evicts stale connections, and sends
the user interface what happened.
-/

namespace SeeHandshake

/-- A captured TCP segment. -/
structure TcpSegment where
  srcIp : IpAddr
  dstIp : IpAddr
  srcPort : UInt16
  dstPort : UInt16
  payload : Bytes
  deriving DecidableEq, Repr

namespace TcpSegment

variable (seg : TcpSegment)

def key : ConnectionKey := .canonical seg.srcIp seg.srcPort seg.dstIp seg.dstPort

/-- The direction of the segment: its source is the client of its key, or it is not. -/
def direction : Direction :=
  if (seg.srcIp, seg.srcPort) = (seg.key.clientIp, seg.key.clientPort) then .clientToServer
  else .serverToClient

/-- The call of `ingest` for a segment captured at a time. -/
def call (nowMs : UInt64) : Call where
  key := seg.key
  direction := seg.direction
  endpointA := ⟨seg.srcIp, seg.srcPort⟩
  endpointB := ⟨seg.dstIp, seg.dstPort⟩
  payload := seg.payload
  nowMs := nowMs

end TcpSegment

section

variable {ρ : Type} [OriginResolver ρ] (tp : TlsParser)

/-- A turn of the loop of the tracker thread: the events that are sent, and the tracker. -/
def trackerTurn (t : ConnectionTracker ρ) (seg : TcpSegment) (nowMs : UInt64) :
    List UiEvent × ConnectionTracker ρ :=
  let c := seg.call nowMs
  let (result, t) := t.ingest tp c.key c.direction c.endpointA c.endpointB c.payload c.nowMs
  let updates :=
    match result with
    | .ok (some state) => [UiEvent.handshakeUpdated state]
    | .ok none => []
    | .error _ => []
  let (removed, t) := t.evictStale nowMs
  (updates ++ if removed > 0 then [UiEvent.staleEvicted removed] else [], t)

/-- The tracker thread on a sequence of segments: the events that were sent, and the tracker. -/
def trackerThread (t : ConnectionTracker ρ) :
    List (TcpSegment × UInt64) → List UiEvent × ConnectionTracker ρ
  | [] => ([], t)
  | (seg, nowMs) :: segs =>
    let turn := trackerTurn tp t seg nowMs
    let rest := trackerThread turn.2 segs
    (turn.1 ++ rest.1, rest.2)

end

/-- The event that an operation of the user interface consumes. -/
def AppOp.event? : AppOp → Option UiEvent
  | .handleUiEvent evt => some evt
  | _ => none

theorem AppOp.eq_handleUiEvent {o : AppOp} {evt : UiEvent} (h : o.event? = some evt) : o = .handleUiEvent evt := by
  cases o with
  | handleUiEvent evt' => exact congrArg AppOp.handleUiEvent (Option.some.inj h)
  | _ => cases h

/-- The user interface lists what the tracker tracks, in its current state. -/
def App.Shows {ρ : Type} (app : App) (t : ConnectionTracker ρ) : Prop :=
  ∀ key, (key ∈ app.order ↔ t.Tracks key) ∧
    app.connections.lookup key = (t.connections.lookup key).map TrackedConnection.state

/-- No connection was left without bytes for longer than the timeout, since bytes of it came in
last. -/
def NoneStale (timeoutMs : UInt64) (segs : List (TcpSegment × UInt64)) : Prop :=
  ∀ before seg nowMs after, segs = before ++ (seg, nowMs) :: after → seg.payload ≠ [] →
    (∀ later ∈ after, later.1.key = seg.key → later.1.payload = []) →
    ∀ later ∈ after, later.2.toNat ≤ nowMs.toNat + timeoutMs.toNat

end SeeHandshake

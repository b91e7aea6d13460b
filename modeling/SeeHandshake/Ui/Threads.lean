import SeeHandshake.Cli
import SeeHandshake.Lib.System

/-!
# The threads of the program

`run_live` and `run_event_loop` of `ui/mod.rs`: the capture thread, the tracker thread and the user
interface, the two channels between them, and the shutdown flag. A step of the program is a step of one
thread. What comes from outside (packets, keys, the clock, failures of the terminal) comes with the step,
and what the resolver finds is in its state.
-/

namespace SeeHandshake

/-! ## Keys -/

/-- The keys that the event loop tells apart. -/
inductive KeyCode where
  | char (c : Char)
  | esc
  | left
  | right
  | enter
  | tab
  | up
  | down
  | other
  deriving DecidableEq, Repr

inductive KeyEventKind where
  | press
  | repeated
  | release
  deriving DecidableEq, Repr

/-- An event of the terminal. -/
inductive CtEvent where
  | key (code : KeyCode) (kind : KeyEventKind)
  | other
  deriving DecidableEq, Repr

/-- The operation that a key stands for; `q` quits and is none. -/
def KeyCode.op? : KeyCode → Option AppOp
  | .char c =>
    if c = 'w' then some .clearConnections
    else if c = 'e' then some .toggleEducation
    else if c = 'd' then some .toggleDiagram
    else if c = 'f' then some .toggleMiddleMode
    else none
  | .esc | .left => some .focusLeft
  | .enter | .right => some .focusRight
  | .tab => some .focusCycle
  | .up => some .selectPrev
  | .down => some .selectNext
  | .other => none

/-! ## Threads -/

/-- Where the capture thread is. -/
inductive CaptureThread where
  | unspawned
  /-- Before the capture handle is opened. -/
  | opening
  /-- Before the shutdown flag is checked. -/
  | looping
  /-- In `next_frame`. -/
  | polling
  /-- Before the frame is sent to the tracker thread. -/
  | sending (frame : Frame)
  /-- The thread has ended, and its end of the channel is closed. -/
  | ended
  deriving DecidableEq, Repr

/-- Where the tracker thread is. -/
inductive TrackerThread where
  | unspawned
  /-- Waiting for a frame. -/
  | receiving
  /-- Before the new state of a connection is sent to the user interface. -/
  | updating (state : ConnectionState) (nowMs : UInt64)
  /-- Before stale connections are evicted. -/
  | evicting (nowMs : UInt64)
  /-- Before the number of evicted connections is sent to the user interface. -/
  | reporting (removed : ℕ)
  /-- The thread has ended, and its ends of the channels are closed. -/
  | ended
  /-- A call of the resolver has panicked, and the thread is gone with its ends of the channels. -/
  | panicked
  deriving DecidableEq, Repr

/-- Where the thread of the user interface is. -/
inductive UiThread where
  | spawningCapture
  | spawningTracker
  | enablingRawMode
  | enteringAlternateScreen
  | creatingTerminal
  /-- In the loop that handles pending updates. -/
  | draining
  | drawing
  | polling
  | reading
  | ticking
  /-- After the event loop, with its outcome. -/
  | leaving (outcome : Except Error Unit)
  | joiningCapture (outcome : Except Error Unit)
  | joiningTracker (outcome : Except Error Unit)
  /-- `run_live` has returned, after the event loop. -/
  | returned (result : Except Error Unit)
  /-- `run_live` has returned, with an error before the event loop. -/
  | failed (e : Error)
  deriving DecidableEq, Repr

/-- The outcome of the event loop, as `run_live` returns it. -/
def loopResult (outcome : Except Error Unit) : Except Error Unit :=
  outcome.mapError fun e => .ui ("running the UI event loop: " ++ e.toString)

/-- What `run_live` has returned. -/
def UiThread.result? : UiThread → Option (Except Error Unit)
  | .returned result => some result
  | .failed e => some (.error e)
  | _ => none

/-- The state of the program, with a resolver of type `ρ`. -/
structure Program (ρ : Type) where
  shutdown : Bool := false
  capture : CaptureThread := .unspawned
  /-- The channel of frames. -/
  frames : List Frame := []
  tracking : TrackerThread := .unspawned
  /-- The tracker; that of a thread that panicked, as it was before the last turn. -/
  tracker : ConnectionTracker ρ
  /-- The channel of updates. -/
  events : List UiEvent := []
  ui : UiThread := .spawningCapture
  app : App := .new

/-! ## Steps -/

/-- A step of the capture thread. -/
inductive CaptureAction where
  | openSource (pcap : Pcap)
  | checkShutdown
  | nextFrame (result : Except PcapError PcapPacket)
  | send

/-- A step of the tracker thread. -/
inductive TrackerAction where
  /-- Receive a frame and ingest its segment, at a time. -/
  | recv (nowMs : UInt64)
  /-- Receive a frame and panic over its segment. -/
  | panic
  | evict
  | send
  /-- The channel of frames is empty and closed. -/
  | hangUp
  deriving DecidableEq, Repr

/-- A step of the user interface, with the result of the call that it makes, if it can fail; an error is
its displayed text. -/
inductive UiAction where
  | spawn (result : Except String Unit)
  | setup (result : Except String Unit)
  | tryRecv
  | draw (result : Except String Unit)
  | poll (result : Except String Bool)
  | read (result : Except String CtEvent)
  | tick
  | teardown
  | join
  deriving DecidableEq, Repr

/-- A step of one of the threads. -/
inductive ThreadAction where
  | capture (a : CaptureAction)
  | tracker (a : TrackerAction)
  | ui (a : UiAction)

namespace Program

variable {ρ : Type}

/-- The program before `run_live` has done anything. -/
def init (resolver : ρ) : Program ρ := { tracker := .withResolver resolver }

section

variable [PanickingResolver ρ] (args : Args) (fromEthernet : FromEthernet) (tp : TlsParser)
  (s : Program ρ)

def captureStep (a : CaptureAction) : Option (Program ρ) :=
  match s.capture, a with
  | .opening, .openSource pcap =>
    let source := match args.interface with
      | some name => LivePcapSource.openOn pcap name args.bpf
      | none => LivePcapSource.openDefault pcap args.bpf
    match source with
    | .ok () => some { s with capture := .looping }
    | .error _ => some { s with capture := .ended }
  | .looping, .checkShutdown =>
    some { s with capture := if s.shutdown then .ended else .polling }
  | .polling, .nextFrame result =>
    match LivePcapSource.nextFrame result with
    | .ok (some frame) => some { s with capture := .sending frame }
    | .ok none => some { s with capture := .looping }
    | .error _ => some { s with capture := .ended }
  | .sending frame, .send =>
    if s.tracking = .ended ∨ s.tracking = .panicked then some { s with capture := .ended }
    else some { s with frames := s.frames ++ [frame], capture := .looping }
  | _, _ => none

/-- The tracker thread on a frame that it has received. -/
def ingestFrame (frame : Frame) (nowMs : UInt64) : Program ρ :=
  match extractTcp fromEthernet frame.bytes with
  | none => s
  | some seg =>
    let c := seg.call nowMs
    let (result, tracker) :=
      s.tracker.ingest tp c.key c.direction c.endpointA c.endpointB c.payload c.nowMs
    match result with
    | .ok (some state) => { s with tracker, tracking := .updating state nowMs }
    | .ok none | .error _ => { s with tracker, tracking := .evicting nowMs }

/-- Whether the tracker thread panics on a frame that it receives. -/
def panicsOn (frame : Frame) : Bool :=
  match extractTcp fromEthernet frame.bytes with
  | none => false
  | some seg => s.tracker.ingestPanics seg.key ⟨seg.srcIp, seg.srcPort⟩ ⟨seg.dstIp, seg.dstPort⟩ seg.payload

/-- A panic unwinds the thread, and drops the frames that are left in its channel. -/
def trackerStep (a : TrackerAction) : Option (Program ρ) :=
  match s.tracking, a with
  | .receiving, .recv nowMs =>
    match s.frames with
    | frame :: frames =>
      if s.panicsOn fromEthernet frame then none
      else some ({ s with frames }.ingestFrame fromEthernet tp frame nowMs)
    | [] => none
  | .receiving, .panic =>
    match s.frames with
    | frame :: _ =>
      if s.panicsOn fromEthernet frame then some { s with frames := [], tracking := .panicked } else none
    | [] => none
  | .receiving, .hangUp =>
    if s.frames = [] ∧ s.capture = .ended then some { s with tracking := .ended } else none
  | .updating state nowMs, .send =>
    if s.ui.result?.isSome then some { s with tracking := .ended }
    else some { s with
      events := s.events ++ [.handshakeUpdated state], tracking := .evicting nowMs }
  | .evicting nowMs, .evict =>
    let (removed, tracker) := s.tracker.evictStale nowMs
    some { s with tracker, tracking := if removed > 0 then .reporting removed else .receiving }
  | .reporting removed, .send =>
    if s.ui.result?.isSome then some { s with tracking := .receiving }
    else some { s with
      events := s.events ++ [.staleEvicted removed], tracking := .receiving }
  | _, _ => none

/-- A key that was pressed, but for `q`, changes the user interface; any other event does not. -/
def handleCtEvent (event : CtEvent) : Program ρ :=
  match event with
  | .key code kind =>
    if kind ≠ .press then { s with ui := .draining }
    else if code = .char 'q' then { s with ui := .leaving (.ok ()) }
    else
      match code.op? with
      | some o => { s with app := s.app.op o, ui := .ticking }
      | none => { s with ui := .ticking }
  | .other => { s with ui := .ticking }

def uiStep (a : UiAction) : Option (Program ρ) :=
  match s.ui, a with
  | .spawningCapture, .spawn result =>
    match result with
    | .ok () => some { s with capture := .opening, ui := .spawningTracker }
    | .error e => some { s with
        capture := .ended, ui := .failed (.ui ("failed to spawn capture thread: " ++ e)) }
  | .spawningTracker, .spawn result =>
    match result with
    | .ok () => some { s with tracking := .receiving, ui := .enablingRawMode }
    | .error e => some { s with
        tracking := .ended, ui := .failed (.ui ("failed to spawn tracker thread: " ++ e)) }
  | .enablingRawMode, .setup result =>
    match result with
    | .ok () => some { s with ui := .enteringAlternateScreen }
    | .error e => some { s with ui := .failed (.ui e) }
  | .enteringAlternateScreen, .setup result =>
    match result with
    | .ok () => some { s with ui := .creatingTerminal }
    | .error e => some { s with ui := .failed (.ui e) }
  | .creatingTerminal, .setup result =>
    match result with
    | .ok () => some { s with ui := .draining }
    | .error e => some { s with ui := .failed (.ui e) }
  | .draining, .tryRecv =>
    match s.events with
    | evt :: events => some { s with events, app := s.app.handleUiEvent evt }
    | [] => some { s with ui := .drawing }
  | .drawing, .draw result =>
    match result with
    | .ok () => some { s with ui := .polling }
    | .error e => some { s with ui := .leaving (.error (.ui e)) }
  | .polling, .poll result =>
    match result with
    | .ok true => some { s with ui := .reading }
    | .ok false => some { s with ui := .ticking }
    | .error e => some { s with ui := .leaving (.error (.ui e)) }
  | .reading, .read result =>
    match result with
    | .ok event => some (s.handleCtEvent event)
    | .error e => some { s with ui := .leaving (.error (.ui e)) }
  | .ticking, .tick => some { s with app := s.app.tick, ui := .draining }
  | .leaving outcome, .teardown => some { s with shutdown := true, ui := .joiningCapture outcome }
  | .joiningCapture outcome, .join =>
    if s.capture = .ended then some { s with ui := .joiningTracker outcome } else none
  | .joiningTracker outcome, .join =>
    -- How the thread has ended makes no difference.
    if s.tracking = .ended ∨ s.tracking = .panicked then
      some { s with ui := .returned (loopResult outcome) }
    else none
  | _, _ => none

def step : ThreadAction → Option (Program ρ)
  | .capture a => s.captureStep args a
  | .tracker a => s.trackerStep fromEthernet tp a
  | .ui a => s.uiStep a

end

/-! ## What the threads have in hand -/

/-- The frame that the capture thread is about to send. -/
def heldFrames (s : Program ρ) : List Frame :=
  match s.capture with
  | .sending frame => [frame]
  | _ => []

/-- The events that the tracker thread has yet to send in its turn, and the tracker after the turn. -/
def restOfTurn (s : Program ρ) : List UiEvent × ConnectionTracker ρ :=
  let evict nowMs :=
    let (removed, tracker) := s.tracker.evictStale nowMs
    (if removed > 0 then [UiEvent.staleEvicted removed] else [], tracker)
  match s.tracking with
  | .updating state nowMs => (.handshakeUpdated state :: (evict nowMs).1, (evict nowMs).2)
  | .evicting nowMs => evict nowMs
  | .reporting removed => ([.staleEvicted removed], s.tracker)
  | _ => ([], s.tracker)

end Program

/-! ## What a run takes in -/

namespace ThreadAction

/-- The frame that was captured. -/
def captured? : ThreadAction → Option Frame
  | .capture (.nextFrame result) => (LivePcapSource.nextFrame result).toOption.join
  | _ => none

/-- The time at which a frame was taken in by the tracker thread. -/
def receivedAt? : ThreadAction → Option UInt64
  | .tracker (.recv nowMs) => some nowMs
  | _ => none

/-- The operation of the user interface that is not for an event of the tracker thread. -/
def op? : ThreadAction → Option AppOp
  | .ui (.read (.ok (.key code .press))) => code.op?
  | .ui .tick => some .tick
  | _ => none

end ThreadAction

/-- The segments in frames that were received, each with its time. -/
def segmentsOf (fromEthernet : FromEthernet) (received : List (Frame × UInt64)) :
    List (TcpSegment × UInt64) :=
  received.filterMap fun x => (extractTcp fromEthernet x.1.bytes).map fun seg => (seg, x.2)

end SeeHandshake

import SeeHandshake.Proofs.DisplayProofs
import SeeHandshake.Proofs.HelloProofs
import SeeHandshake.Proofs.SideProofs

/-!
# What was said is what is shown

From the frames on the wire to the rows on the screen: what a side of a connection says, as a sequence of records
and with the hello at its beginning, is what the running program shows of it.
-/

namespace SeeHandshake

open Lib

/-! ## Hellos -/

/-- The hello that a side starts with. -/
inductive WireHello where
  | client (hello : WireClientHello)
  | server (hello : WireServerHello)

/-- The bytes of a hello. -/
def WireHello.encode : WireHello → Bytes
  | .client hello => hello.encode
  | .server hello => hello.encode

/-- A message that was read has the fields of the hello that was sent; the random of a ServerHello tells whether it
is a HelloRetryRequest. -/
def WireHello.Describes : WireHello → DecodedHandshake → Prop
  | .client hello, .clientHello ch => hello.Describes ch
  | .server hello, .serverHello sh => hello.Describes sh ∧ ¬ isHelloRetryRequest sh
  | .server hello, .helloRetryRequest sh => hello.Describes sh ∧ isHelloRetryRequest sh
  | _, _ => False

namespace Program

variable {ρ : Type} [PanickingResolver ρ]

/-- The bytes that a side of a connection brought in a run, in the frames that the tracker thread took in. -/
def sideStream (fromEthernet : FromEthernet) (as : List ThreadAction) (key : ConnectionKey) (d : Direction) : Bytes :=
  sideBytes d (((segments fromEthernet as).filter fun x => x.1.key = key).map TcpSegment.segment)

/-- What is shown of one side of a connection. -/
theorem quiet_sideOf {args : Args} {fromEthernet : FromEthernet} {tp : TlsParser} {resolver : ρ} {s : Program ρ}
    {as : List ThreadAction} (hrun : runs (step args fromEthernet tp) (init resolver) as = some s)
    (hfail : ∀ e, s.ui ≠ .failed e) (hquiet : s.Quiet)
    (hclear : .clearConnections ∉ as.filterMap ThreadAction.op?) (hevicted : s.app.evicted = 0)
    {key : ConnectionKey} {d : Direction}
    (hsize : ∀ x ∈ segments fromEthernet as, x.1.payload.length ≤ 65535) {rs : List TlsRecord} {tail : Bytes}
    (hrs : ∀ r ∈ rs, r.Fits) (htail : Incomplete tail)
    (hsent : sideStream fromEthernet as key d = TlsRecord.framing.writeAll rs ++ tail) {state : ConnectionState}
    (hstate : s.app.connections.lookup key = some state) :
    sideOf d state.records <+: showable false rs ∧
      (showable false rs ≠ [] → sideOf d state.records = [] → RECORD_LOG_CAP ≤ state.records.length) := by
  rcases quiet_own hrun hfail hquiet hclear hevicted key with ⟨hnone, -⟩ | ⟨-, nowMs, origin, hlookup⟩
  · rw [hnone] at hstate
    cases hstate
  · obtain rfl := Option.some.inj (hlookup.symm.trans hstate)
    refine TrackedConnection.sideOf_run key nowMs origin ?_ hrs htail hsent
    intro seg hseg _
    obtain ⟨x, hx, rfl⟩ := List.mem_map.mp hseg
    exact hsize x (List.mem_filter.mp hx).1

/-- A frame from the client of the reference connection. -/
def Reference.clientBytes (payload : Bytes) : Bytes :=
  [2, 0, 0, 0, 0, 1, 2, 0, 0, 0, 0, 2, 8, 0] ++
  0x45 :: 0 :: (u16ToBe (UInt16.ofNat (40 + payload.length)) ++
    [0, 0, 0, 0, 64, 6, 0, 0, 10, 0, 0, 1, 93, 184, 216, 34]) ++
  [0xD4, 0x31, 1, 0xBB, 0, 0, 0, 1, 0, 0, 0, 1, 0x50, 0x18, 1, 0, 0, 0, 0, 0] ++ payload

theorem extensionsFit_none : ExtensionsFit none := by
  intro exts h
  cases h

/-- A ClientHello that offers one cipher suite. -/
def Reference.hello : WireClientHello where
  legacyVersion := 0x0303
  random := ⟨List.replicate 32 7, rfl⟩
  sessionId := []
  cipherSuites := [0x1301]
  compressionMethods := [0]
  extensions := none
  sessionId_lt := by decide
  cipherSuites_lt := by decide
  compressionMethods_lt := by decide
  extensions_fit := extensionsFit_none

def Reference.helloRecord : TlsRecord := ⟨.handshake, 0x0301, Reference.hello.encode⟩

/-- The record of the ClientHello comes in two segments, cut within the random. -/
def Reference.helloRun : List ThreadAction :=
  Reference.talkRun [(Reference.clientBytes (Reference.helloRecord.encode.take 20), 7),
    (Reference.clientBytes (Reference.helloRecord.encode.drop 20), 9)]

theorem Reference.helloRun_quiet : ∃ s, Reference.program Reference.helloRun = some s ∧ (∀ e, s.ui ≠ .failed e) ∧
    s.Quiet ∧ s.app.evicted = 0 ∧ (s.app.connections.lookup Reference.key).isSome := by
  have hstate : (Reference.program Reference.helloRun).map (fun s => (s.ui, s.capture, s.frames, s.tracking, s.events,
      s.app.evicted, (s.app.connections.lookup Reference.key).isSome)) =
        some (.draining, .looping, [], .receiving, [], 0, true) := by rfl
  obtain ⟨s, hs, hquiet⟩ := Option.map_eq_some_iff.mp hstate
  simp only [Prod.mk.injEq] at hquiet
  obtain ⟨hui, hcapture, hframes, htracking, hevents, hevicted, hlisted⟩ := hquiet
  exact ⟨s, hs, by simp [hui], ⟨⟨by simp [hcapture], hframes, .inl htracking⟩, hevents⟩, hevicted, hlisted⟩

/-- What a side said is what is shown of it, in order and from its first record on, however it was cut into
segments, however the other side interleaves with it, and whatever else was captured or pressed: the rows of a
side are the first of its records but for alerts, byte for byte, with the messages up to its ChangeCipherSpec
decoded, and there is one unless the timeline is full. -/
theorem sides_shown (args : Args) (fromEthernet : FromEthernet) (tp : TlsParser) (resolver : ρ)
    (as : List ThreadAction) (s : Program ρ)
    (hrun : runs (step args fromEthernet tp) (init resolver) as = some s) (hfail : ∀ e, s.ui ≠ .failed e)
    (hquiet : s.Quiet) (hclear : .clearConnections ∉ as.filterMap ThreadAction.op?)
    (hevicted : s.app.evicted = 0) (hsize : ∀ x ∈ segments fromEthernet as, x.1.payload.length ≤ 65535)
    (key : ConnectionKey) (d : Direction) (rs : List TlsRecord) (tail : Bytes) (hrs : ∀ r ∈ rs, r.Fits)
    (htail : Incomplete tail)
    (hsent : sideStream fromEthernet as key d = TlsRecord.framing.writeAll rs ++ tail)
    (state : ConnectionState) (hstate : s.app.connections.lookup key = some state) :
    sideOf d state.records <+: showable false rs ∧
      (showable false rs ≠ [] → sideOf d state.records = [] → RECORD_LOG_CAP ≤ state.records.length) :=
  quiet_sideOf hrun hfail hquiet hclear hevicted hsize hrs htail hsent hstate

theorem sides_shown_hello : ∃ s state, Reference.program Reference.helloRun = some s ∧
    s.app.connections.lookup Reference.key = some state ∧
    sideOf .clientToServer state.records <+: showable false [Reference.helloRecord] ∧
    (showable false [Reference.helloRecord] ≠ [] → sideOf .clientToServer state.records = [] →
      RECORD_LOG_CAP ≤ state.records.length) := by
  obtain ⟨s, hs, hfail, hquiet, hevicted, hlisted⟩ := Reference.helloRun_quiet
  obtain ⟨state, hstate⟩ := Option.isSome_iff_exists.mp hlisted
  exact ⟨s, state, hs, hstate, sides_shown {} Reference.fromEthernet Reference.parser _ Reference.helloRun s hs hfail
    hquiet (by decide) hevicted (by decide) Reference.key .clientToServer [Reference.helloRecord] [] (by decide)
    (.inl (by decide)) (by decide) state hstate⟩

end Program

end SeeHandshake

import SeeHandshake.Origin.Kernel
import SeeHandshake.Parser.Reference
import SeeHandshake.Proofs.ThreadProofs
import SeeHandshake.Proofs.TimelineProofs

/-!
# Proofs: what the program shows

A run of the program is the tracker thread on the frames that were captured, and the user interface on
the events that come of them and the keys, in between each other in some order. What is proved of these
two apart holds of the program, whatever the order of the steps.
-/

namespace SeeHandshake

open Lib ConnectionTracker

theorem UiThread.phase_le {ui : UiThread} (h : ∀ e, ui ≠ .failed e) : ui.phase ≤ 5 := by
  cases ui with
  | failed e => exact absurd rfl (h e)
  | _ => simp [UiThread.phase]

/-! ## Updates extend timelines -/

section Extends

variable {ρ : Type} {tp : TlsParser} {t : ConnectionTracker ρ}
  {m : AList fun _ : ConnectionKey => ConnectionState}

/-- A segment appends to the timeline. -/
theorem TrackedConnection.records_isPrefix_ingest (conn : TrackedConnection) (d : Direction)
    {payload : Bytes} (hne : payload ≠ []) (nowMs : UInt64) :
    conn.state.records <+: (conn.ingest tp d payload nowMs).state.records := by
  have hrun := @records_prefix_run tp conn [⟨d, payload, nowMs⟩]
  have hstep : conn.run tp [⟨d, payload, nowMs⟩] = conn.ingest tp d payload nowMs :=
    if_neg (by simpa using hne)
  rwa [hstep] at hrun

/-- Where nothing is removed, the tracker stays as it is. -/
theorem ConnectionTracker.evictStale_of_zero {nowMs : UInt64} (h : (t.evictStale nowMs).1 = 0) :
    (t.evictStale nowMs).2 = t := by
  have hsub : (t.evictStale nowMs).2.connections.entries.Sublist t.connections.entries :=
    List.filter_sublist
  have hlength : t.connections.entries.length ≤ (t.evictStale nowMs).2.connections.entries.length := by
    have hremoved : t.connections.keys.length - (t.evictStale nowMs).2.connections.keys.length = 0 := h
    simp only [AList.keys, List.keys, List.length_map] at hremoved
    omega
  have hentries := AList.ext (hsub.eq_of_length_le hlength)
  show { t with connections := (t.evictStale nowMs).2.connections } = t
  rw [hentries]

/-- Every copy is an earlier state of a connection that is tracked. -/
structure CopiesBehind (t : ConnectionTracker ρ) (m : AList fun _ : ConnectionKey => ConnectionState) :
    Prop where
  behind : ∀ key held, m.lookup key = some held → ∃ conn, t.connections.lookup key = some conn ∧
    held.records <+: conn.state.records
  key_eq : ∀ key conn, t.connections.lookup key = some conn → conn.state.key = key

/-- The update extends the copy that it replaces, if there is one. -/
def UiEvent.ExtendsIn (m : AList fun _ : ConnectionKey => ConnectionState) : UiEvent → Prop
  | .handshakeUpdated state => ∀ held, m.lookup state.key = some held → held.records <+: state.records
  | .staleEvicted _ => True

/-- The events before the first eviction are extending. -/
def ExtendsUntilEviction (m : AList fun _ : ConnectionKey => ConnectionState) (evts : List UiEvent) :
    Prop :=
  ∀ before evt after, evts = before ++ evt :: after → (∀ removed, .staleEvicted removed ∉ before) →
    evt.ExtendsIn (before.foldl UiEvent.apply m)

theorem extendsUntilEviction_nil : ExtendsUntilEviction m [] := by
  intro before evt after heq
  simp at heq

theorem extendsUntilEviction_stale (removed : ℕ) (evts : List UiEvent) :
    ExtendsUntilEviction m (.staleEvicted removed :: evts) := by
  intro before evt after heq hnone
  cases before with
  | nil =>
    obtain ⟨rfl, -⟩ := List.cons.inj heq
    trivial
  | cons evt' before =>
    obtain ⟨rfl, -⟩ := List.cons.inj heq
    exact absurd List.mem_cons_self (hnone removed)

theorem ExtendsUntilEviction.cons {evt : UiEvent} {evts : List UiEvent} (h : evt.ExtendsIn m)
    (hrest : ExtendsUntilEviction (evt.apply m) evts) : ExtendsUntilEviction m (evt :: evts) := by
  intro before evt' after heq hnone
  cases before with
  | nil =>
    obtain ⟨rfl, -⟩ := List.cons.inj heq
    exact h
  | cons evt'' before =>
    obtain ⟨rfl, rfl⟩ := List.cons.inj heq
    exact hrest before evt' after rfl fun removed hmem => hnone removed (List.mem_cons_of_mem _ hmem)

variable [OriginResolver ρ]

/-- The events of a turn. -/
theorem trackerTurn_fst (t : ConnectionTracker ρ) (seg : TcpSegment) (nowMs : UInt64) :
    (trackerTurn tp t seg nowMs).1 =
      (if seg.payload = [] then []
        else [.handshakeUpdated
          ((t.target (seg.call nowMs)).1.ingest tp seg.direction seg.payload nowMs).state]) ++
      let removed := ((t.call tp (seg.call nowMs)).evictStale nowMs).1
      if removed > 0 then [.staleEvicted removed] else [] := by
  have hresult := @ingest_fst ρ _ tp t (seg.call nowMs)
  unfold trackerTurn
  simp only [hresult]
  show _ ++ _ = _ ++ _
  congr 1
  by_cases hempty : seg.payload = []
  · rw [if_pos hempty, if_pos (show (seg.call nowMs).payload = [] from hempty)]
  · rw [if_neg hempty, if_neg (show (seg.call nowMs).payload ≠ [] from hempty)]
    rfl

/-- Where a turn tells of no eviction, nothing was removed. -/
theorem evictStale_zero_of_turn {t : ConnectionTracker ρ} {x : TcpSegment × UInt64}
    (h : ∀ removed, .staleEvicted removed ∉ (trackerTurn tp t x.1 x.2).1) :
    ((t.call tp (x.1.call x.2)).evictStale x.2).1 = 0 := by
  by_contra hpos
  rw [trackerTurn_fst] at h
  simp only [if_pos (Nat.pos_of_ne_zero hpos)] at h
  exact h _ (List.mem_append_right _ (List.mem_singleton_self _))

/-- A segment extends the copy of its connection. -/
theorem CopiesBehind.extendsIn (h : CopiesBehind t m) (c : Call) (hne : c.payload ≠ []) :
    (UiEvent.handshakeUpdated
      ((t.target c).1.ingest tp c.direction c.payload c.nowMs).state).ExtendsIn m := by
  intro held hheld
  have hprefix := @TrackedConnection.records_isPrefix_ingest tp (t.target c).1 c.direction _ hne c.nowMs
  rw [(TrackedConnection.ingest_state _ _ _ _).2.2] at hheld
  cases hlookup : t.connections.lookup c.key with
  | some conn =>
    have htarget : (t.target c).1 = conn := by
      rw [target_fst, hlookup, Option.getD_some]
    rw [htarget, h.key_eq c.key conn hlookup] at hheld
    obtain ⟨conn', hconn', hle⟩ := h.behind c.key held hheld
    rw [hlookup, Option.some.injEq] at hconn'
    rw [htarget] at hprefix ⊢
    exact (hconn' ▸ hle).trans hprefix
  | none =>
    have hkey : (t.target c).1.state.key = c.key := by
      rw [target_fst, hlookup]
      rfl
    rw [hkey] at hheld
    obtain ⟨conn', hconn', -⟩ := h.behind c.key held hheld
    rw [hlookup] at hconn'
    cases hconn'

/-- The connection that a segment works on has the key of the segment. -/
theorem CopiesBehind.target_key (h : CopiesBehind t m) (c : Call) :
    (t.target c).1.state.key = c.key := by
  rw [target_fst]
  cases hlookup : t.connections.lookup c.key with
  | some conn => exact h.key_eq c.key conn hlookup
  | none => rfl

/-- The copies after a segment, as long as nothing is evicted. -/
theorem CopiesBehind.turn (h : CopiesBehind t m) (x : TcpSegment × UInt64)
    (hkept : ((t.call tp (x.1.call x.2)).evictStale x.2).1 = 0) :
    CopiesBehind (trackerTurn tp t x.1 x.2).2 ((trackerTurn tp t x.1 x.2).1.foldl UiEvent.apply m) := by
  have hlookup : ∀ key, (trackerTurn tp t x.1 x.2).2.connections.lookup key =
      (t.call tp (x.1.call x.2)).connections.lookup key := by
    intro key
    rw [trackerTurn_snd, evictStale_of_zero hkept]
  rw [apply_trackerTurn]
  by_cases hempty : x.1.payload = []
  · rw [if_pos hempty]
    rw [call_of_nil (show (x.1.call x.2).payload = [] from hempty)] at hlookup
    constructor
    · intro key held hheld
      rw [hlookup]
      exact h.behind key held hheld
    · intro key conn hconn
      rw [hlookup] at hconn
      exact h.key_eq key conn hconn
  · rw [if_neg hempty]
    have hcall := @lookup_call ρ _ tp t (x.1.call x.2) hempty
    have hkey : ((t.target (x.1.call x.2)).1.ingest tp x.1.direction x.1.payload x.2).state.key =
        x.1.key :=
      (TrackedConnection.ingest_state _ _ _ _).2.2.trans (h.target_key _)
    simp only
    rw [hkey]
    constructor
    · intro key held hheld
      rw [hlookup, hcall]
      by_cases heq : key = x.1.key
      · subst heq
        rw [AList.lookup_insert, Option.some.injEq] at hheld
        exact ⟨_, if_pos rfl, hheld ▸ List.prefix_refl _⟩
      · rw [AList.lookup_insert_ne heq] at hheld
        rw [if_neg (show key ≠ (x.1.call x.2).key from heq)]
        exact h.behind key held hheld
    · intro key conn hconn
      rw [hlookup, hcall] at hconn
      split_ifs at hconn with heq
      · obtain rfl := Option.some.inj hconn
        exact hkey.trans heq.symm
      · exact h.key_eq key conn hconn

theorem extendsUntilEviction_append {evts evts' : List UiEvent} (h : ExtendsUntilEviction m evts)
    (h' : (∀ removed, .staleEvicted removed ∉ evts) →
      ExtendsUntilEviction (evts.foldl UiEvent.apply m) evts') :
    ExtendsUntilEviction m (evts ++ evts') := by
  intro before evt after heq hnone
  rcases List.append_eq_append_iff.mp heq with ⟨c, rfl, hc⟩ | ⟨c, hc, hafter⟩
  · rw [List.foldl_append]
    refine h' (fun removed hmem => hnone removed (List.mem_append_left _ hmem)) c evt after hc ?_
    exact fun removed hmem => hnone removed (List.mem_append_right _ hmem)
  · cases c with
    | nil =>
      rw [List.append_nil] at hc
      subst hc
      rw [List.nil_append] at hafter
      exact h' hnone [] evt after hafter.symm fun _ hmem => absurd hmem List.not_mem_nil
    | cons evt' c =>
      obtain ⟨rfl, -⟩ := List.cons.inj hafter
      exact h before evt c hc hnone

/-- The events of the tracker thread extend the copies that are made of them, until the first
eviction. -/
theorem CopiesBehind.thread (h : CopiesBehind t m) (segs : List (TcpSegment × UInt64)) :
    ExtendsUntilEviction m (trackerThread tp t segs).1 := by
  induction segs generalizing t m with
  | nil => exact extendsUntilEviction_nil
  | cons x segs ih =>
    show ExtendsUntilEviction m ((trackerTurn tp t x.1 x.2).1 ++ (trackerThread tp _ segs).1)
    have hturn := @trackerTurn_fst ρ tp _ t x.1 x.2
    refine extendsUntilEviction_append ?_ fun hnone => ?_
    · have hstale : ∀ (m' : AList fun _ : ConnectionKey => ConnectionState) (removed : ℕ),
          ExtendsUntilEviction m' (if removed > 0 then [.staleEvicted removed] else []) := by
        intro m' removed
        split_ifs
        · exact extendsUntilEviction_stale removed []
        · exact extendsUntilEviction_nil
      rw [hturn]
      by_cases hempty : x.1.payload = []
      · rw [if_pos hempty]
        exact hstale m _
      · rw [if_neg hempty]
        exact .cons (h.extendsIn (x.1.call x.2) hempty) (hstale _ _)
    · exact ih (h.turn x (evictStale_zero_of_turn hnone))

end Extends

/-! ## Any interleaving with keys -/

namespace App

variable {app : App} {m : AList fun _ : ConnectionKey => ConnectionState}

/-- Whatever the user does, what is shown is the latest state that came in, or is not shown. -/
theorem Valid.lookup_ops (h : app.Valid)
    (hm : ∀ key held, app.connections.lookup key = some held → m.lookup key = some held)
    (os : List AppOp) (key : ConnectionKey) (held : ConnectionState)
    (hheld : (app.ops os).connections.lookup key = some held) :
    ((os.filterMap AppOp.event?).foldl UiEvent.apply m).lookup key = some held := by
  induction os generalizing app m with
  | nil => exact hm key held hheld
  | cons o os ih =>
    have hrest := @ih (app.op o)
    cases hevent : o.event? with
    | none =>
      rw [List.filterMap_cons_none hevent]
      refine hrest (h.op o) ?_ hheld
      by_cases hclear : o = .clearConnections
      · subst hclear
        intro key held hnone
        have hempty : (∅ : AList fun _ : ConnectionKey => ConnectionState).lookup key = some held := hnone
        rw [AList.lookup_empty] at hempty
        cases hempty
      · rwa [op_connections hclear hevent]
    | some evt =>
      obtain rfl := AppOp.eq_handleUiEvent hevent
      rw [List.filterMap_cons_some hevent, List.foldl_cons]
      refine hrest (h.op _) ?_ hheld
      intro key held hshown
      have hconns := h.toListed.handleUiEvent_connections evt
      rw [show (app.op (.handleUiEvent evt)).connections = _ from hconns] at hshown
      cases evt with
      | staleEvicted removed => exact hm key held hshown
      | handshakeUpdated state =>
        show (m.insert state.key state).lookup key = some held
        have hshown : (app.connections.insert state.key state).lookup key = some held := hshown
        by_cases hkey : key = state.key
        · subst hkey
          rw [AList.lookup_insert] at hshown ⊢
          exact hshown
        · rw [AList.lookup_insert_ne hkey] at hshown ⊢
          exact hm key held hshown

theorem clampIndices_evicted : app.clampIndices.evicted = app.evicted := by
  unfold clampIndices
  simp only
  split_ifs <;> rfl

theorem advancePastMetadataRow_shown : app.advancePastMetadataRow.evicted = app.evicted ∧
    app.advancePastMetadataRow.order = app.order := by
  unfold advancePastMetadataRow
  split_ifs <;> exact ⟨rfl, rfl⟩

/-- No key changes the counter of evicted connections, and only the one that wipes changes the list. -/
theorem op_shown {o : AppOp} (hevent : o.event? = none) :
    (app.op o).evicted = app.evicted ∧ (o ≠ .clearConnections → (app.op o).order = app.order) := by
  cases o with
  | handleUiEvent evt => cases hevent
  | clearConnections => exact ⟨rfl, fun hne => absurd rfl hne⟩
  | selectPrev =>
    show app.selectPrev.evicted = _ ∧ (_ → app.selectPrev.order = _)
    unfold selectPrev connectionPrev recordPrev sectionPrev
    simp only
    split <;> split_ifs <;> exact ⟨rfl, fun _ => rfl⟩
  | selectNext =>
    show app.selectNext.evicted = _ ∧ (_ → app.selectNext.order = _)
    unfold selectNext connectionNext recordNext sectionNext
    simp only
    split <;> split_ifs <;> exact ⟨rfl, fun _ => rfl⟩
  | focusRight =>
    show app.focusRight.evicted = _ ∧ (_ → app.focusRight.order = _)
    unfold focusRight
    simp only
    split_ifs
    · exact ⟨advancePastMetadataRow_shown.1, fun _ => advancePastMetadataRow_shown.2⟩
    · exact ⟨rfl, fun _ => rfl⟩
  | focusCycle =>
    show app.focusCycle.evicted = _ ∧ (_ → app.focusCycle.order = _)
    unfold focusCycle
    simp only
    split_ifs
    · exact ⟨advancePastMetadataRow_shown.1, fun _ => advancePastMetadataRow_shown.2⟩
    · exact ⟨rfl, fun _ => rfl⟩
  | toggleMiddleMode =>
    show app.toggleMiddleMode.evicted = _ ∧ (_ → app.toggleMiddleMode.order = _)
    unfold toggleMiddleMode
    simp only
    split_ifs
    · split <;> exact ⟨rfl, fun _ => rfl⟩
    · exact ⟨rfl, fun _ => rfl⟩
  | _ => exact ⟨rfl, fun _ => rfl⟩

theorem Listed.handleUiEvent_evicted_eq (h : app.Listed) (evt : UiEvent) :
    (app.handleUiEvent evt).evicted =
      match evt with
      | .handshakeUpdated _ => app.evicted
      | .staleEvicted removed => usizeSaturatingAdd app.evicted removed := by
  cases evt with
  | handshakeUpdated state =>
    rw [handleUiEvent_updated]
    split_ifs
    · exact clampIndices_evicted
    · rfl
  | staleEvicted removed =>
    rw [h.handleUiEvent_evicted]
    split_ifs
    · rfl
    · exact clampIndices_evicted

/-- The counter of evicted connections is 0 as long as no eviction was told. -/
theorem Valid.evicted_pos (h : app.Valid) {os : List AppOp}
    (hpos : 0 < app.evicted ∨ ∃ removed > 0, .handleUiEvent (.staleEvicted removed) ∈ os) :
    0 < (app.ops os).evicted := by
  induction os generalizing app with
  | nil =>
    rcases hpos with hpos | ⟨removed, -, hmem⟩
    · exact hpos
    · exact absurd hmem List.not_mem_nil
  | cons o os ih =>
    refine ih (h.op o) ?_
    cases hevent : o.event? with
    | none =>
      rw [(op_shown hevent).1]
      rcases hpos with hpos | ⟨removed, hlt, hmem⟩
      · exact .inl hpos
      · rcases List.mem_cons.mp hmem with rfl | hmem
        · cases hevent
        · exact .inr ⟨removed, hlt, hmem⟩
    | some evt =>
      obtain rfl := AppOp.eq_handleUiEvent hevent
      rw [show (app.op (.handleUiEvent evt)).evicted = _ from h.toListed.handleUiEvent_evicted_eq evt]
      rcases hpos with hpos | ⟨removed, hlt, hmem⟩
      · left
        cases evt with
        | handshakeUpdated state => exact hpos
        | staleEvicted removed =>
          show 0 < min (app.evicted + removed) _
          omega
      · rcases List.mem_cons.mp hmem with heq | hmem
        · left
          obtain rfl := AppOp.handleUiEvent.inj heq
          show 0 < min (app.evicted + removed) _
          omega
        · exact .inr ⟨removed, hlt, hmem⟩

end App

/-! ## A run of the program -/

/-- Slice an Ethernet frame with an IPv4 header without options and a TCP segment. -/
def Reference.fromEthernet : FromEthernet := fun frame =>
  let ip := frame.drop 14
  let octet i := ip.getD i 0
  if (frame.drop 12).take 3 = [8, 0, 0x45] ∧ octet 9 = 6 then
    let tcp := (ip.take (u16FromBe (octet 2) (octet 3)).toNat).drop 20
    let source : Ipv4Addr := ⟨octet 12, octet 13, octet 14, octet 15⟩
    let destination : Ipv4Addr := ⟨octet 16, octet 17, octet 18, octet 19⟩
    let sourcePort := u16FromBe (tcp.getD 0 0) (tcp.getD 1 0)
    let destinationPort := u16FromBe (tcp.getD 2 0) (tcp.getD 3 0)
    let payload := tcp.drop ((tcp.getD 12 0).toNat / 16 * 4)
    .ok {
      net := some (.ipv4 source destination)
      transport := some (.tcp sourcePort destinationPort payload) }
  else .error "unsupported"

/-- A frame from the client of the reference connection, with a payload of one byte. -/
def Reference.frameBytes : Bytes :=
  [2, 0, 0, 0, 0, 1, 2, 0, 0, 0, 0, 2, 8, 0] ++
  [0x45, 0, 0, 41, 0, 0, 0, 0, 64, 6, 0, 0, 10, 0, 0, 1, 93, 184, 216, 34] ++
  [0xD4, 0x31, 1, 0xBB, 0, 0, 0, 1, 0, 0, 0, 1, 0x50, 0x18, 1, 0, 0, 0, 0, 0] ++ [22]

/-- A frame of another connection. -/
def Reference.otherBytes : Bytes :=
  [2, 0, 0, 0, 0, 1, 2, 0, 0, 0, 0, 2, 8, 0] ++
  [0x45, 0, 0, 41, 0, 0, 0, 0, 64, 6, 0, 0, 10, 0, 0, 1, 93, 184, 216, 34] ++
  [0xD4, 0x32, 1, 0xBB, 0, 0, 0, 1, 0, 0, 0, 1, 0x50, 0x18, 1, 0, 0, 0, 0, 0] ++ [22]

/-- Libpcap opens whatever it is asked for. -/
def Reference.pcap : Pcap where
  lookup := .ok (some ⟨"eth0", none⟩)
  fromDevice _ := .ok ()
  activate _ := .ok ()
  filter _ _ := .ok ()

/-- The program starts and shows a connection, while the next frame comes in. -/
def Reference.startRun : List ThreadAction :=
  [.ui (.spawn (.ok ())), .ui (.spawn (.ok ())), .capture (.openSource Reference.pcap),
    .capture .checkShutdown, .ui (.setup (.ok ())),
    .capture (.nextFrame (.ok ⟨1700000000, 0, Reference.frameBytes⟩)), .capture .send,
    .ui (.setup (.ok ())), .tracker (.recv 1700000000000), .ui (.setup (.ok ())), .tracker .send,
    .capture .checkShutdown, .ui .tryRecv, .tracker .evict, .ui .tryRecv, .ui (.draw (.ok ())),
    .ui (.poll (.ok true)), .ui (.read (.ok (.key .enter .press))), .ui .tick,
    .capture (.nextFrame (.ok ⟨1700000001, 0, Reference.frameBytes⟩)), .capture .send,
    .tracker (.recv 1700000001000), .tracker .send]

/-- The user quits without looking at the last update. -/
def Reference.quitRun : List ThreadAction :=
  Reference.startRun ++ [.ui .tryRecv, .ui .tryRecv, .ui (.draw (.ok ())), .ui (.poll (.ok true)),
    .capture .checkShutdown, .ui (.read (.ok (.key (.char 'q') .press))), .tracker .evict,
    .capture (.nextFrame (.ok ⟨1700000002, 0, Reference.frameBytes⟩)), .ui .teardown, .capture .send,
    .capture .checkShutdown, .ui .join, .tracker (.recv 1700000002000), .tracker .send, .tracker .evict,
    .tracker .hangUp, .ui .join]

/-- The program on the reference connection. -/
def Reference.program (as : List ThreadAction) : Option (Program FixedResolver) :=
  runs (Program.step {} Reference.fromEthernet Reference.parser) (.init (FixedResolver.mk .unknown)) as

/-- The socket of the reference connection belongs to a process with a command line of a letter, and behind it 128
letters that are not ASCII. -/
def Reference.straddlingImage : ProcImage where
  tcp := some (tableText [] [.plain (Reference.clientEndpoint, Reference.serverEndpoint) 1 ⟨99, 1000⟩])
  tcp6 := none
  entries := some [⟨some ['4', '2'], some [⟨some ['s', 'o', 'c', 'k', 'e', 't', ':', '[', '9', '9', ']'],
    ⟨none, some (0x61 :: List.replicate 128 0xE4), none⟩⟩]⟩]

/-- The process is there from the second call on. -/
def Reference.liveResolver : LiveResolver where
  resolver := .new
  moments
    | 0 => ⟨0, ⟨none, none, none⟩, 0⟩
    | n + 1 => ⟨fromMillis (1000 * (n + 1)), Reference.straddlingImage, fromMillis (1000 * (n + 1))⟩

/-- A second connection comes in, and later the user quits. -/
def Reference.panicRun : List ThreadAction :=
  [.ui (.spawn (.ok ())), .ui (.spawn (.ok ())), .ui (.setup (.ok ())), .ui (.setup (.ok ())),
    .ui (.setup (.ok ())), .capture (.openSource Reference.pcap), .capture .checkShutdown,
    .capture (.nextFrame (.ok ⟨1700000000, 0, Reference.frameBytes⟩)), .capture .send, .capture .checkShutdown,
    .capture (.nextFrame (.ok ⟨1700000001, 0, Reference.otherBytes⟩)), .capture .send,
    .tracker (.recv 1700000000000), .tracker .send, .tracker .evict, .capture .checkShutdown, .tracker .panic,
    .capture (.nextFrame (.ok ⟨1700000002, 0, Reference.frameBytes⟩)), .capture .send, .ui .tryRecv, .ui .tryRecv,
    .ui (.draw (.ok ())), .ui (.poll (.ok true)), .ui (.read (.ok (.key (.char 'q') .press))), .ui .teardown,
    .ui .join, .ui .join]

/-- The program with the resolver for Linux. -/
def Reference.liveProgram (as : List ThreadAction) : Option (Program LiveResolver) :=
  runs (Program.step {} Reference.fromEthernet Reference.parser) (.init Reference.liveResolver) as

/-! ## The program -/

/-- An eviction is told only if something was evicted. -/
theorem removed_pos {ρ : Type} [OriginResolver ρ] {tp : TlsParser} {t : ConnectionTracker ρ}
    {segs : List (TcpSegment × UInt64)} {removed : ℕ}
    (h : .staleEvicted removed ∈ (trackerThread tp t segs).1) : 0 < removed := by
  induction segs generalizing t with
  | nil => cases h
  | cons x segs ih =>
    rcases List.mem_append.mp (show _ ∈ (trackerTurn tp t x.1 x.2).1 ++ _ from h) with hturn | hrest
    · rw [trackerTurn_fst] at hturn
      rcases List.mem_append.mp hturn with hupdate | hstale
      · split_ifs at hupdate
        · cases hupdate
        · cases List.mem_singleton.mp hupdate
      · simp only at hstale
        split_ifs at hstale with hpos
        · obtain rfl := UiEvent.staleEvicted.inj (List.mem_singleton.mp hstale)
          exact hpos
        · cases hstale
    · exact ih hrest

/-- Where the counter of evicted connections is 0, no event of the tracker thread that was handled told of
an eviction. -/
theorem App.not_evicted {ρ : Type} [OriginResolver ρ] {tp : TlsParser} {t : ConnectionTracker ρ}
    {segs : List (TcpSegment × UInt64)} {os : List AppOp} {evts : List UiEvent}
    (hthread : (trackerThread tp t segs).1 = os.filterMap AppOp.event? ++ evts)
    (hzero : (App.new.ops os).evicted = 0) (removed : ℕ) :
    .staleEvicted removed ∉ os.filterMap AppOp.event? := by
  intro hmem
  have hpos := removed_pos (show _ ∈ (trackerThread tp t segs).1 from
    hthread ▸ List.mem_append_left _ hmem)
  obtain ⟨o, ho, hevent⟩ := List.mem_filterMap.mp hmem
  obtain rfl := AppOp.eq_handleUiEvent hevent
  have := App.valid_new.evicted_pos (.inr ⟨removed, hpos, ho⟩)
  omega

namespace Program

variable {ρ : Type} [PanickingResolver ρ] {args : Args} {fromEthernet : FromEthernet} {tp : TlsParser}
  {resolver : ρ} {s s' : Program ρ} {as : List ThreadAction}

/-- Nothing is under way from the interface to the tracker. -/
structure CaughtUp (s : Program ρ) : Prop where
  capture : ∀ frame, s.capture ≠ .sending frame
  frames : s.frames = []
  tracking : s.tracking = .receiving ∨ s.tracking = .ended ∨ s.tracking = .panicked

/-- Nothing is under way from the interface to the screen. -/
structure Quiet (s : Program ρ) : Prop extends s.CaughtUp where
  events : s.events = []

/-- What was captured are the frames `processed` that the tracker thread took in, and the frames `lost`, from one on
over which it has panicked. -/
structure Processed (fromEthernet : FromEthernet) (as : List ThreadAction) (s : Program ρ)
    (processed lost : List Frame) : Prop where
  captured_eq : as.filterMap ThreadAction.captured? = processed ++ lost
  length_eq : processed.length = (as.filterMap ThreadAction.receivedAt?).length
  lost_iff : lost = [] ↔ s.tracking ≠ .panicked
  lost_panics : ∀ frame ∈ lost.head?, s.panicsOn fromEthernet frame

/-- The frames that were taken in are the first ones that were captured. -/
theorem Processed.zip_eq {processed lost : List Frame} (h : Processed fromEthernet as s processed lost) :
    (as.filterMap ThreadAction.captured?).zip (as.filterMap ThreadAction.receivedAt?) =
      processed.zip (as.filterMap ThreadAction.receivedAt?) := by
  have happend := @List.zip_append _ _ processed lost (as.filterMap ThreadAction.receivedAt?) [] h.length_eq
  rw [List.append_nil, List.zip_nil_right, List.append_nil] at happend
  rw [h.captured_eq, happend]

/-- Unless the tracker thread has panicked, every frame was taken in. -/
theorem Processed.panicked_iff {processed lost : List Frame} (h : Processed fromEthernet as s processed lost) :
    s.tracking = .panicked ↔
      (as.filterMap ThreadAction.captured?).length ≠ (as.filterMap ThreadAction.receivedAt?).length := by
  rw [h.captured_eq, List.length_append, h.length_eq, ← not_iff_not, not_not, ← Ne, ← h.lost_iff,
    Nat.add_eq_left, List.length_eq_zero_iff]

/-- When nothing is under way to the tracker, it has made what it makes of all that was taken in. -/
theorem caughtUp_run (hrun : runs (step args fromEthernet tp) (init resolver) as = some s)
    (hphase : s.ui.phase ≤ 5) (hcaught : s.CaughtUp) :
    ∃ processed lost, Processed fromEthernet as s processed lost ∧
      ∃ os, s.app = App.new.ops os ∧
        as.filterMap ThreadAction.op? = os.filter (fun o => o.event?.isNone) ∧
        trackerThread tp (.withResolver resolver) (segmentsOf fromEthernet
            ((as.filterMap ThreadAction.captured?).zip (as.filterMap ThreadAction.receivedAt?))) =
          (os.filterMap AppOp.event? ++ s.events, s.tracker) := by
  obtain ⟨received, lost, os, h⟩ := linearized_run hrun hphase
  have hheld := heldFrames_of_none hcaught.capture
  have hrest : s.restOfTurn = ([], s.tracker) := by
    unfold restOfTurn
    rcases hcaught.tracking with htracking | htracking | htracking <;> simp only [htracking]
  have hcaptured := h.captured_eq
  have hevents := h.events_eq
  have htracker := h.tracker_eq
  rw [hcaught.frames, hheld, List.append_nil, List.append_nil] at hcaptured
  rw [hrest, List.append_nil] at hevents
  rw [hrest] at htracker
  have hprocessed : Processed fromEthernet as s (received.map Prod.fst) lost := by
    refine ⟨hcaptured, ?_, h.lost_iff, h.lost_panics⟩
    rw [h.times_eq, List.length_map, List.length_map]
  refine ⟨_, lost, hprocessed, os, h.app_eq, h.pressed_eq, ?_⟩
  rw [hprocessed.zip_eq, h.times_eq, ← @List.zip_of_prod _ _ _ _ received rfl rfl]
  exact Prod.ext hevents htracker

/-- When nothing is under way to the screen, the user interface has handled every event of the tracker thread. -/
theorem quiet_run (hrun : runs (step args fromEthernet tp) (init resolver) as = some s)
    (hphase : s.ui.phase ≤ 5) (hquiet : s.Quiet) :
    ∃ processed lost, Processed fromEthernet as s processed lost ∧
      ∃ os, s.app = App.new.ops os ∧
        as.filterMap ThreadAction.op? = os.filter (fun o => o.event?.isNone) ∧
        trackerThread tp (.withResolver resolver) (segmentsOf fromEthernet
            ((as.filterMap ThreadAction.captured?).zip (as.filterMap ThreadAction.receivedAt?))) =
          (os.filterMap AppOp.event?, s.tracker) := by
  obtain ⟨processed, lost, hprocessed, os, happ, hpressed, hthread⟩ := caughtUp_run hrun hphase hquiet.toCaughtUp
  rw [hquiet.events, List.append_nil] at hthread
  exact ⟨processed, lost, hprocessed, os, happ, hpressed, hthread⟩

/-- The list is wiped only by a key. -/
theorem not_wiped {os : List AppOp} (hpressed : as.filterMap ThreadAction.op? = os.filter (fun o => o.event?.isNone))
    (hclear : .clearConnections ∉ as.filterMap ThreadAction.op?) : .clearConnections ∉ os := by
  rw [hpressed, List.mem_filter] at hclear
  exact fun hmem => hclear ⟨hmem, rfl⟩

/-- Whatever the order of the steps of the three threads, until `run_live` returns with an error before
its event loop: what was captured is what was received, then what was lost, then what is in the channel, then
what the capture thread is about to send, in this order, and frames are lost only from one on over which the
tracker thread has panicked; the events that the tracker thread makes of what was received are those that were
handled, then those in the channel, then those that it is about to send; and the user interface is the one
that the handled events and the keys make, in some order of both. -/
theorem interleaving_linear (args : Args) (fromEthernet : FromEthernet) (tp : TlsParser) (resolver : ρ)
    (as : List ThreadAction) (s : Program ρ)
    (hrun : runs (step args fromEthernet tp) (init resolver) as = some s) (hfail : ∀ e, s.ui ≠ .failed e) :
    ∃ received lost os,
      as.filterMap ThreadAction.captured? = received.map Prod.fst ++ lost ++ s.frames ++ s.heldFrames ∧
      (lost = [] ↔ s.tracking ≠ .panicked) ∧ (∀ frame ∈ lost.head?, s.panicsOn fromEthernet frame) ∧
      as.filterMap ThreadAction.receivedAt? = received.map Prod.snd ∧
      trackerThread tp (.withResolver resolver) (segmentsOf fromEthernet received) =
        (os.filterMap AppOp.event? ++ s.events ++ s.restOfTurn.1, s.restOfTurn.2) ∧
      s.app = App.new.ops os ∧
      as.filterMap ThreadAction.op? = os.filter fun o => o.event?.isNone := by
  obtain ⟨received, lost, os, h⟩ := linearized_run hrun (UiThread.phase_le hfail)
  exact ⟨received, lost, os, h.captured_eq, h.lost_iff, h.lost_panics, h.times_eq,
    Prod.ext h.events_eq h.tracker_eq, h.app_eq, h.pressed_eq⟩

theorem interleaving_linear_start : ∃ s, Reference.program Reference.startRun = some s ∧
    ∃ received lost os,
      Reference.startRun.filterMap ThreadAction.captured? =
        received.map Prod.fst ++ lost ++ s.frames ++ s.heldFrames ∧
      (lost = [] ↔ s.tracking ≠ .panicked) ∧
      (∀ frame ∈ lost.head?, s.panicsOn Reference.fromEthernet frame) ∧
      Reference.startRun.filterMap ThreadAction.receivedAt? = received.map Prod.snd ∧
      trackerThread Reference.parser (.withResolver (FixedResolver.mk .unknown))
          (segmentsOf Reference.fromEthernet received) =
        (os.filterMap AppOp.event? ++ s.events ++ s.restOfTurn.1, s.restOfTurn.2) ∧
      s.app = App.new.ops os ∧
      Reference.startRun.filterMap ThreadAction.op? = os.filter fun o => o.event?.isNone := by
  have hui : (Reference.program Reference.startRun).map Program.ui = some .draining := by rfl
  obtain ⟨s, hs, hdraining⟩ := Option.map_eq_some_iff.mp hui
  exact ⟨s, hs, interleaving_linear {} Reference.fromEthernet Reference.parser _ Reference.startRun s hs
    (by simp [hdraining])⟩

/-- When `run_live` has returned after its event loop, every frame that was captured has been through the
tracker, once and in order, up to one over which its thread has panicked, if it has; and of the events that
came of them only the last ones, which are left in the channel, were not handled. -/
theorem returned_all_processed (args : Args) (fromEthernet : FromEthernet) (tp : TlsParser) (resolver : ρ)
    (as : List ThreadAction) (s : Program ρ) (result : Except Error Unit)
    (hrun : runs (step args fromEthernet tp) (init resolver) as = some s) (hreturn : s.ui = .returned result) :
    ∃ processed lost, Processed fromEthernet as s processed lost ∧
      ∃ os, s.app = App.new.ops os ∧
        as.filterMap ThreadAction.op? = os.filter (fun o => o.event?.isNone) ∧
        trackerThread tp (.withResolver resolver)
            (segmentsOf fromEthernet (processed.zip (as.filterMap ThreadAction.receivedAt?))) =
          (os.filterMap AppOp.event? ++ s.events, s.tracker) := by
  have hphase : s.ui.phase = 5 := by
    rw [hreturn]
    rfl
  have hs := consistent_run hrun (by omega)
  have hcapture := hs.capture_ended (by omega)
  have htracking := hs.tracker_ended hphase
  have hframes : s.frames = [] := by
    rcases htracking with hended | hpanicked
    · exact (hs.hungUp hended).2
    · exact hs.dropped hpanicked
  obtain ⟨processed, lost, hprocessed, os, happ, hpressed, hthread⟩ :=
    caughtUp_run hrun (by omega) ⟨by simp [hcapture], hframes, .inr htracking⟩
  rw [hprocessed.zip_eq] at hthread
  exact ⟨processed, lost, hprocessed, os, happ, hpressed, hthread⟩

theorem returned_all_processed_panicked : ∃ s, Reference.liveProgram Reference.panicRun = some s ∧
    s.tracking = .panicked ∧
    ∃ processed lost, Processed Reference.fromEthernet Reference.panicRun s processed lost ∧
      ∃ os, s.app = App.new.ops os ∧
        Reference.panicRun.filterMap ThreadAction.op? = os.filter (fun o => o.event?.isNone) ∧
        trackerThread Reference.parser (.withResolver Reference.liveResolver)
            (segmentsOf Reference.fromEthernet
              (processed.zip (Reference.panicRun.filterMap ThreadAction.receivedAt?))) =
          (os.filterMap AppOp.event? ++ s.events, s.tracker) := by
  have hend : (Reference.liveProgram Reference.panicRun).map (fun s => (s.ui, s.tracking)) =
      some (.returned (.ok ()), .panicked) := by decide +kernel
  obtain ⟨s, hs, hstate⟩ := Option.map_eq_some_iff.mp hend
  obtain ⟨hreturn, hpanicked⟩ := Prod.mk.inj hstate
  exact ⟨s, hs, hpanicked, returned_all_processed {} Reference.fromEthernet Reference.parser _ Reference.panicRun s
    (.ok ()) hs hreturn⟩

/-- When nothing is under way, the user interface lists what the tracker tracks iff no connection is
stale in what was taken in, whatever the order of the steps that led there, as long as the list was not
wiped. -/
theorem quiet_shows_iff (args : Args) (fromEthernet : FromEthernet) (tp : TlsParser) (resolver : ρ)
    (as : List ThreadAction) (s : Program ρ)
    (hrun : runs (step args fromEthernet tp) (init resolver) as = some s) (hfail : ∀ e, s.ui ≠ .failed e)
    (hquiet : s.Quiet) (hclear : .clearConnections ∉ as.filterMap ThreadAction.op?) :
    s.app.Shows s.tracker ↔
      NoneStale DEFAULT_STALE_TIMEOUT_MS (segmentsOf fromEthernet
        ((as.filterMap ThreadAction.captured?).zip (as.filterMap ThreadAction.receivedAt?))) := by
  obtain ⟨_, _, -, os, happ, hpressed, hthread⟩ := quiet_run hrun (UiThread.phase_le hfail) hquiet
  generalize segmentsOf fromEthernet _ = segs at hthread ⊢
  have hnoclear := not_wiped hpressed hclear
  have hconns := App.valid_new.ops_connections hnoclear
  have hcopies := @Copies.run ρ _ tp DEFAULT_STALE_TIMEOUT_MS resolver segs
  rw [show trackerThread tp (withStaleTimeout DEFAULT_STALE_TIMEOUT_MS resolver) segs = _ from hthread]
    at hcopies
  have hvalid := App.valid_new.ops os
  have hright := hcopies.copies_right_iff
  simp only [hcopies.tracks_iff] at hright
  rw [noneStale_iff, ← hright, happ]
  unfold App.Shows
  simp only [hvalid.mem_order, hconns, hcopies.tracks_iff]
  rfl

theorem quiet_shows_iff_one : ∃ s, Reference.program (Reference.startRun.take 15) = some s ∧
    (s.app.Shows s.tracker ↔
      NoneStale DEFAULT_STALE_TIMEOUT_MS (segmentsOf Reference.fromEthernet
        (((Reference.startRun.take 15).filterMap ThreadAction.captured?).zip
          ((Reference.startRun.take 15).filterMap ThreadAction.receivedAt?)))) := by
  have hstate : (Reference.program (Reference.startRun.take 15)).map
      (fun s => (s.ui, s.capture, s.frames, s.tracking, s.events)) =
        some (.drawing, .polling, [], .receiving, []) := by rfl
  obtain ⟨s, hs, hquiet⟩ := Option.map_eq_some_iff.mp hstate
  simp only [Prod.mk.injEq] at hquiet
  obtain ⟨hui, hcapture, hframes, htracking, hevents⟩ := hquiet
  exact ⟨s, hs, quiet_shows_iff {} Reference.fromEthernet Reference.parser _ _ s hs (by simp [hui])
    ⟨⟨by simp [hcapture], hframes, .inl htracking⟩, hevents⟩ (by decide)⟩

/-- As long as no eviction was told to the user interface, an event that it handles leaves the selected
connection and record, the rows and the modes as they are, whatever the order of the steps, and whatever
was pressed in between. -/
theorem update_keeps_cursor (args : Args) (fromEthernet : FromEthernet) (tp : TlsParser) (resolver : ρ)
    (as : List ThreadAction) (s s' : Program ρ)
    (hrun : runs (step args fromEthernet tp) (init resolver) as = some s)
    (hstep : step args fromEthernet tp s (.ui .tryRecv) = some s') (hselected : s.app.selected.isSome)
    (hevicted : s.app.evicted = 0) :
    s'.app.cursor = s.app.cursor := by
  have hmove := uiStep_cases hstep
  generalize ha : UiAction.tryRecv = a at hmove
  cases hmove <;> cases ha
  case drained => rfl
  case broken e hfails => rcases hfails with ⟨-, ha⟩ | ⟨-, ha⟩ | ⟨-, ha⟩ <;> cases ha
  case handled evt events hui hevents =>
    have hphase : s.ui.phase ≤ 5 := by
      rw [hui]
      decide
    obtain ⟨_, _, os, h⟩ := linearized_run hrun hphase
    have hvalid := App.valid_new.ops os
    have hkeyed : (App.new.ops os).Keyed := by
      refine App.Keyed.ops ?_ App.valid_new os
      intro key state hlookup
      cases hlookup
    rw [h.app_eq] at hselected hevicted ⊢
    refine App.cursor_handleUiEvent hvalid hkeyed hselected ?_
    -- The event comes after the ones that were handled, and none of these was an eviction.
    have hthread := h.events_eq
    rw [hevents, List.append_assoc, List.cons_append] at hthread
    have hnone := App.not_evicted hthread hevicted
    have hfresh : CopiesBehind (ConnectionTracker.withResolver resolver) ∅ := by
      constructor <;>
      · intro key x hlookup
        cases hlookup
    have hext := @CopiesBehind.thread ρ tp _ _ _ hfresh _ _ evt _ hthread hnone
    cases evt with
    | staleEvicted removed => trivial
    | handshakeUpdated state =>
      intro held hheld
      refine hext held (App.valid_new.lookup_ops ?_ os _ held hheld)
      intro key held' hnew
      cases hnew

theorem update_keeps_cursor_second : ∃ s s', Reference.program Reference.startRun = some s ∧
    s.step {} Reference.fromEthernet Reference.parser (.ui .tryRecv) = some s' ∧
    s.events ≠ [] ∧ s'.app.cursor = s.app.cursor := by
  have hstate : (Reference.program Reference.startRun).map
      (fun s => (s.app.selected.isSome, s.app.evicted, s.events.length)) = some (true, 0, 1) := by rfl
  obtain ⟨s, hs, hshown⟩ := Option.map_eq_some_iff.mp hstate
  simp only [Prod.mk.injEq] at hshown
  obtain ⟨hselected, hevicted, hevents⟩ := hshown
  have hnext : ((Reference.program Reference.startRun).bind fun s =>
      s.step {} Reference.fromEthernet Reference.parser (.ui .tryRecv)).isSome = true := by rfl
  rw [hs, Option.bind_some] at hnext
  obtain ⟨s', hs'⟩ := Option.isSome_iff_exists.mp hnext
  refine ⟨s, s', hs, hs', ?_, ?_⟩
  · exact List.ne_nil_of_length_pos (by omega)
  · exact update_keeps_cursor {} Reference.fromEthernet Reference.parser _ Reference.startRun s s' hs hs'
      hselected hevicted

end Program

end SeeHandshake

import Mathlib.Data.UInt
import SeeHandshake.Proofs.LiveProofs
import SeeHandshake.Proofs.MessageProofs
import SeeHandshake.Proofs.SegmentationProofs
import SeeHandshake.Ui.Endpoints

/-!
# Proofs: who is taken for the client

The tracker thread follows a conversation in the right direction iff ports and addresses happen to make
the sender of the ClientHello the client of the key. Otherwise it follows the whole conversation with
both directions exchanged, and passes over both hellos.
-/

namespace SeeHandshake

variable {tp : TlsParser}

/-! ## The key of a flow -/

section Key

variable {a b : SocketAddr}

theorem SocketAddr.rank_injective : Function.Injective SocketAddr.rank := by
  rintro ⟨ipA, portA⟩ ⟨ipB, portB⟩ h
  cases ipA with
  | v4 o1 o2 o3 o4 =>
    cases ipB with
    | v4 p1 p2 p3 p4 =>
      simp only [SocketAddr.rank, List.cons.injEq, UInt8.toNat_inj, UInt16.toNat_inj] at h
      obtain ⟨-, rfl, rfl, rfl, rfl, rfl, -⟩ := h
      rfl
    | v6 octets => exact absurd (List.cons.inj h).1 (by decide)
  | v6 octets =>
    cases ipB with
    | v4 p1 p2 p3 p4 => exact absurd (List.cons.inj h).1 (by decide)
    | v6 octets' =>
      obtain ⟨hoctets, hport⟩ := List.append_inj' (List.cons.inj h).2 rfl
      have hbytes := (List.map_injective_iff.mpr fun _ _ => UInt8.toNat_inj.mp) hoctets
      have hportEq : portA = portB := UInt16.toNat_inj.mp (List.cons.inj hport).1
      rw [Subtype.ext hbytes, hportEq]

/-- Of two endpoints, exactly one comes first. -/
theorem clientFirst_comm (h : a ≠ b) : ClientFirst b a ↔ ¬ ClientFirst a b := by
  have hrank : a.rank ≠ b.rank := fun heq => h (SocketAddr.rank_injective heq)
  have horder : b.rank ≤ a.rank ↔ ¬ a.rank ≤ b.rank := by
    rw [not_le]
    exact ⟨fun hle => lt_of_le_of_ne hle hrank.symm, le_of_lt⟩
  unfold ClientFirst
  cases isTlsServerPort a.port <;> cases isTlsServerPort b.port <;> simp [horder]

theorem SocketAddr.flow_eq (a b : SocketAddr) :
    a.flow b = if ClientFirst a b then ⟨a.ip, a.port, b.ip, b.port⟩
      else ⟨b.ip, b.port, a.ip, a.port⟩ := by
  by_cases hfirst : ClientFirst a b
  · rw [if_pos hfirst]
    revert hfirst
    unfold flow ConnectionKey.canonical ClientFirst
    cases isTlsServerPort a.port <;> cases isTlsServerPort b.port <;> simp +contextual
  · rw [if_neg hfirst]
    revert hfirst
    unfold flow ConnectionKey.canonical ClientFirst
    cases isTlsServerPort a.port <;> cases isTlsServerPort b.port <;> simp +contextual

/-- Both directions of a flow have the same key. -/
theorem SocketAddr.flow_comm (h : a ≠ b) : b.flow a = a.flow b := by
  have hcomm := clientFirst_comm h
  rw [flow_eq, flow_eq]
  by_cases hfirst : ClientFirst a b
  · rw [if_pos hfirst, if_neg fun hback => hcomm.mp hback hfirst]
  · rw [if_neg hfirst, if_pos (hcomm.mpr hfirst)]

/-- The key names the endpoint that comes first as the client. -/
theorem SocketAddr.client_flow (a b : SocketAddr) :
    (a.flow b).client = if ClientFirst a b then a else b := by
  rw [flow_eq]
  split_ifs <;> rfl

theorem client_flow_eq_iff (h : a ≠ b) : (a.flow b).client = a ↔ ClientFirst a b := by
  rw [SocketAddr.client_flow]
  by_cases hfirst : ClientFirst a b
  · rw [if_pos hfirst]
    exact iff_of_true rfl hfirst
  · rw [if_neg hfirst]
    exact iff_of_false h.symm hfirst

end Key

/-! ## What a flow extracts does not depend on its key and origin -/

section Message

variable (d : Direction) (origin : Option Origin)

theorem applyHandshakeMessage_origin (handshake : HandshakeInfo) (msg : TlsMessage) :
    applyHandshakeMessage tp d { handshake with origin := origin } msg =
      { applyHandshakeMessage tp d handshake msg with origin := origin } := by
  unfold applyHandshakeMessage
  cases msg with
  | other => rfl
  | handshake hs =>
    cases hs with
    | certificate =>
      cases d with
      | clientToServer => rfl
      | serverToClient =>
        simp only
        split_ifs <;> rfl
    | clientHello ch => cases d <;> rfl
    | serverHello sh => cases d <;> rfl
    | serverKeyExchange => rfl
    | serverDone => rfl
    | clientKeyExchange => cases d <;> rfl
    | other => cases d <;> rfl

theorem applyHandshakeRecord_origin (handshake : HandshakeInfo) (payload : Bytes) :
    applyHandshakeRecord tp { handshake with origin := origin } payload d =
      { applyHandshakeRecord tp handshake payload d with origin := origin } := by
  rw [applyHandshakeRecord_eq_foldl, applyHandshakeRecord_eq_foldl]
  exact List.foldl_hom (fun hs : HandshakeInfo => { hs with origin := origin })
    fun hs msg => applyHandshakeMessage_origin d origin hs msg

theorem applyCcs_origin (handshake : HandshakeInfo) :
    applyCcs { handshake with origin := origin } d =
      { applyCcs handshake d with origin := origin } := by
  unfold applyCcs
  cases d with
  | clientToServer =>
    simp only
    split_ifs <;> rfl
  | serverToClient =>
    simp only
    split_ifs <;> rfl

end Message

namespace TrackedConnection

/-- The connection under another key and with another origin. -/
def relabel (key : ConnectionKey) (origin : Option Origin) (conn : TrackedConnection) :
    TrackedConnection :=
  { conn with state.key := key, state.handshake.origin := origin }

section Relabel

variable (key : ConnectionKey) (origin : Option Origin) (conn : TrackedConnection) (d : Direction)

theorem buf_relabel : (conn.relabel key origin).buf d = conn.buf d := by
  cases d <;> rfl

theorem ccsSeen_relabel : (conn.relabel key origin).ccsSeen d = conn.ccsSeen d := by
  cases d <;> rfl

theorem setBuf_relabel (bytes : Bytes) :
    (conn.relabel key origin).setBuf d bytes = (conn.setBuf d bytes).relabel key origin := by
  cases d <;> rfl

theorem pushRecordEvent_relabel (record : TlsRecord) (nowMs : UInt64) :
    pushRecordEvent (conn.relabel key origin) record d nowMs =
      (pushRecordEvent conn record d nowMs).relabel key origin := by
  unfold pushRecordEvent
  by_cases hclosed : conn.stopLogging || conn.state.records.length ≥ RECORD_LOG_CAP
  · rw [if_pos hclosed, if_pos (by exact hclosed)]
  · rw [if_neg hclosed, if_neg (by exact hclosed)]
    cases d <;> rfl

theorem applyEncryptedRecord_relabel :
    applyEncryptedRecord (conn.relabel key origin) d =
      (applyEncryptedRecord conn d).relabel key origin := by
  have hversion : (conn.relabel key origin).state.handshake.tlsVersion =
      conn.state.handshake.tlsVersion := rfl
  have hcount : (conn.relabel key origin).encryptedRecordsFromServer =
      conn.encryptedRecordsFromServer := rfl
  have hmarker : (conn.relabel key origin).sawClientFinishedMarker =
      conn.sawClientFinishedMarker := rfl
  have hsubject : (conn.relabel key origin).state.handshake.certificateSubject =
      conn.state.handshake.certificateSubject := rfl
  unfold applyEncryptedRecord
  rw [hversion, hcount, hmarker]
  by_cases h12 : isTls12 conn.state.handshake.tlsVersion
  · rw [if_pos h12, if_pos h12]
    rfl
  rw [if_neg h12, if_neg h12]
  by_cases hserver : d = .serverToClient
  · rw [if_pos hserver, if_pos hserver]
    simp only [hsubject]
    split_ifs <;> rfl
  rw [if_neg hserver, if_neg hserver]
  split_ifs <;> rfl

theorem processRecord_relabel (nowMs : UInt64) (record : TlsRecord) :
    processRecord tp d nowMs (conn.relabel key origin) record =
      (processRecord tp d nowMs conn record).relabel key origin := by
  cases hr : record.recordType with
  | handshake =>
    rw [processRecord_handshake _ _ _ hr, processRecord_handshake _ _ _ hr, ccsSeen_relabel]
    by_cases hccs : conn.ccsSeen d
    · rw [if_pos hccs, if_pos hccs, pushRecordEvent_relabel]
      rfl
    · rw [if_neg hccs, if_neg hccs, ← pushRecordEvent_relabel]
      congr 1
      have happly := @applyHandshakeRecord_origin tp d origin conn.state.handshake record.payload
      show ({ conn.relabel key origin with
        state.handshake := applyHandshakeRecord tp { conn.state.handshake with origin := origin }
          record.payload d } : TrackedConnection) = _
      rw [happly]
      rfl
  | applicationData =>
    rw [processRecord_applicationData _ _ _ hr, processRecord_applicationData _ _ _ hr,
      ← pushRecordEvent_relabel]
    have hstops : (conn.relabel key origin).stopsBefore d = conn.stopsBefore d := by
      unfold stopsBefore
      rw [applyEncryptedRecord_relabel]
      rfl
    rw [applyEncryptedRecord_relabel, hstops]
    rfl
  | changeCipherSpec =>
    rw [processRecord_changeCipherSpec _ _ _ hr, processRecord_changeCipherSpec _ _ _ hr,
      ← pushRecordEvent_relabel]
    congr 1
    have happly := applyCcs_origin d origin conn.state.handshake
    show ({ conn.relabel key origin with
      state.handshake := applyCcs { conn.state.handshake with origin := origin } d } :
        TrackedConnection).setCcsSeen d = _
    rw [happly]
    cases d <;> rfl
  | alert =>
    rw [processRecord_of_not_eligible _ _ _ (by simp [hr]),
      processRecord_of_not_eligible _ _ _ (by simp [hr])]
  | other v =>
    rw [processRecord_of_not_eligible _ _ _ (by simp [hr]),
      processRecord_of_not_eligible _ _ _ (by simp [hr])]

theorem ingest_relabel (payload : Bytes) (nowMs : UInt64) :
    (conn.relabel key origin).ingest tp d payload nowMs =
      (conn.ingest tp d payload nowMs).relabel key origin := by
  have hbuf := buf_relabel key origin conn d
  by_cases hcap : (conn.buf d).length + payload.length > MAX_REASSEMBLY_BYTES
  · rw [ingest_overflow hcap, ingest_overflow (by rwa [hbuf])]
    rfl
  have hcap' : ¬ ((conn.relabel key origin).buf d).length + payload.length >
      MAX_REASSEMBLY_BYTES := by rwa [hbuf]
  cases hs : (recordSplitter.peel (conn.buf d ++ payload)).stop with
  | some n =>
    rw [ingest_oversized hcap hs, ingest_oversized hcap' (by rwa [hbuf])]
    exact setBuf_relabel key origin (conn.errored nowMs (oversizedRecord n).toString) d []
  | none =>
    rw [ingest_ok hcap hs, ingest_ok hcap' (by rwa [hbuf]), hbuf]
    rw [show (conn.relabel key origin).touched nowMs = (conn.touched nowMs).relabel key origin
      from rfl, setBuf_relabel]
    exact List.foldl_hom (relabel key origin)
      fun conn record => processRecord_relabel key origin conn d nowMs record

theorem run_relabel (segs : List Segment) :
    (conn.relabel key origin).run tp segs = (conn.run tp segs).relabel key origin := by
  refine List.foldl_hom (relabel key origin) fun conn seg => ?_
  by_cases hempty : seg.payload = []
  · rw [step_of_nil hempty, step_of_nil hempty]
  · rw [step_of_ne_nil hempty, step_of_ne_nil hempty, ingest_relabel]

end Relabel

end TrackedConnection

/-! ## The thread on one flow -/

section Thread

variable {ρ : Type} [OriginResolver ρ]

/-- A captured segment as the tracker sees it. -/
def TcpSegment.segment (x : TcpSegment × UInt64) : Segment := ⟨x.1.direction, x.1.payload, x.2⟩

/-- A tracked flow runs through its segments, and is not evicted as long as they come in. -/
theorem lookup_trackerThread_of_some (tp : TlsParser) {t : ConnectionTracker ρ} {key : ConnectionKey}
    {conn : TrackedConnection} {xs : List (TcpSegment × UInt64)}
    (hxs : ∀ x ∈ xs, TcpSegment.Touches key x) (h : t.connections.lookup key = some conn) :
    (trackerThread tp t xs).2.connections.lookup key =
      some (conn.run tp (xs.map TcpSegment.segment)) := by
  induction xs generalizing t conn with
  | nil => exact h
  | cons x xs ih =>
    have htouch := hxs x (List.mem_cons_self ..)
    refine ih (fun y hy => hxs y (List.mem_cons_of_mem _ hy)) ?_
    have htarget : (t.target (x.1.call x.2)).1 = conn := by
      have hlookup : t.connections.lookup (x.1.call x.2).key = some conn := by
        rw [show (x.1.call x.2).key = key from htouch.1, h]
      rw [ConnectionTracker.target_of_some hlookup]
    rw [lookup_trackerTurn, if_pos htouch, htarget]
    exact congrArg some (@TrackedConnection.step_of_ne_nil tp conn (TcpSegment.segment x)
      htouch.2).symm

/-- A new flow runs through its segments. -/
theorem lookup_trackerThread_of_none (tp : TlsParser) {t : ConnectionTracker ρ} {key : ConnectionKey}
    {x : TcpSegment × UInt64} {xs : List (TcpSegment × UInt64)}
    (hxs : ∀ y ∈ x :: xs, TcpSegment.Touches key y) (h : t.connections.lookup key = none) :
    ∃ origin, (trackerThread tp t (x :: xs)).2.connections.lookup key =
      some ((TrackedConnection.created key x.2 origin).run tp
        ((x :: xs).map TcpSegment.segment)) := by
  have htouch := hxs x (List.mem_cons_self ..)
  have hkey : (x.1.call x.2).key = key := htouch.1
  have hlookup : t.connections.lookup (x.1.call x.2).key = none := by rw [hkey, h]
  have htarget := ConnectionTracker.target_of_none hlookup
  rw [hkey] at htarget
  have hturn : (trackerTurn tp t x.1 x.2).2.connections.lookup key =
      some ((t.target (x.1.call x.2)).1.step tp (TcpSegment.segment x)) := by
    rw [lookup_trackerTurn, if_pos htouch]
    exact congrArg some (@TrackedConnection.step_of_ne_nil tp _ (TcpSegment.segment x) htouch.2).symm
  rw [htarget] at hturn
  have hrest := lookup_trackerThread_of_some tp (fun y hy => hxs y (List.mem_cons_of_mem x hy)) hturn
  exact ⟨_, hrest⟩

/-! ## A conversation as the tracker sees it -/

/-- A segment of a conversation as the tracker sees it: in its direction if the client comes first,
and in the opposite one otherwise. -/
def Segment.seen (first : Bool) (seg : Segment) : Segment :=
  if first then seg else { seg with direction := seg.direction.flip }

variable {a b : SocketAddr}

theorem between_of_client {seg : Segment} (hd : seg.direction = .clientToServer) :
    seg.between a b = (⟨a.ip, b.ip, a.port, b.port, seg.payload⟩, seg.nowMs) := by
  unfold Segment.between
  rw [hd]

theorem between_of_server {seg : Segment} (hd : seg.direction = .serverToClient) :
    seg.between a b = (⟨b.ip, a.ip, b.port, a.port, seg.payload⟩, seg.nowMs) := by
  unfold Segment.between
  rw [hd]

/-- All segments of a conversation belong to its flow. -/
theorem between_touches (h : a ≠ b) {seg : Segment} (hne : seg.payload ≠ []) :
    TcpSegment.Touches (a.flow b) (seg.between a b) := by
  cases hd : seg.direction with
  | clientToServer =>
    rw [between_of_client hd]
    exact ⟨rfl, hne⟩
  | serverToClient =>
    rw [between_of_server hd]
    exact ⟨SocketAddr.flow_comm h, hne⟩

/-- A segment goes from the client to the server iff the key names its source as the client. -/
theorem TcpSegment.direction_eq (seg : TcpSegment) :
    seg.direction = if seg.key.client = ⟨seg.srcIp, seg.srcPort⟩ then .clientToServer
      else .serverToClient := by
  unfold TcpSegment.direction ConnectionKey.client
  simp only [Prod.mk.injEq, SocketAddr.mk.injEq, eq_comm]

/-- The tracker sees the direction of the conversation iff the client comes first. -/
theorem segment_between (h : a ≠ b) (seg : Segment) :
    TcpSegment.segment (seg.between a b) = seg.seen (ClientFirst a b) := by
  cases hd : seg.direction with
  | clientToServer =>
    have hdir : (seg.between a b).1.direction =
        if ClientFirst a b then .clientToServer else .serverToClient := by
      rw [between_of_client hd, TcpSegment.direction_eq]
      show (if (a.flow b).client = a then _ else _) = _
      simp only [client_flow_eq_iff h]
    unfold TcpSegment.segment Segment.seen
    rw [hdir, between_of_client hd, hd]
    by_cases hfirst : ClientFirst a b
    · simp only [hfirst, if_true, decide_true, ← hd]
    · simp only [hfirst, if_false, decide_false, Direction.flip, Bool.false_eq_true]
  | serverToClient =>
    have hdir : (seg.between a b).1.direction =
        if ClientFirst a b then .serverToClient else .clientToServer := by
      rw [between_of_server hd, TcpSegment.direction_eq]
      show (if (b.flow a).client = b then _ else _) = _
      simp only [client_flow_eq_iff h.symm, clientFirst_comm h, ite_not]
    unfold TcpSegment.segment Segment.seen
    rw [hdir, between_of_server hd, hd]
    by_cases hfirst : ClientFirst a b
    · simp only [hfirst, if_true, decide_true, ← hd]
    · simp only [hfirst, if_false, decide_false, Direction.flip, Bool.false_eq_true]

/-- What is extracted is settled by the directions in which the tracker sees the segments, whatever
the key. -/
theorem extracted_eq (timeoutMs : UInt64) (resolver : ρ) (h : a ≠ b) {talk : List Segment}
    (hne : ∀ seg ∈ talk, seg.payload ≠ []) (key : ConnectionKey) :
    extracted tp timeoutMs resolver a b talk = talk.head?.map fun seg =>
      { ((TrackedConnection.created key seg.nowMs .unknown).run tp
        (talk.map (Segment.seen (ClientFirst a b)))).state.handshake with origin := none } := by
  cases talk with
  | nil => rfl
  | cons seg talk =>
    have htouch : ∀ x ∈ (seg :: talk).map (Segment.between a b),
        TcpSegment.Touches (a.flow b) x := by
      intro x hx
      obtain ⟨seg', hmem, rfl⟩ := List.mem_map.mp hx
      exact between_touches h (hne seg' hmem)
    have hfresh : (ConnectionTracker.withStaleTimeout timeoutMs resolver).connections.lookup
        (a.flow b) = none := rfl
    obtain ⟨origin, hlookup⟩ : ∃ origin, (trackerThread tp (.withStaleTimeout timeoutMs resolver)
        ((seg :: talk).map (Segment.between a b))).2.connections.lookup (a.flow b) =
          some ((TrackedConnection.created (a.flow b) (seg.between a b).2 origin).run tp
            (((seg :: talk).map (Segment.between a b)).map TcpSegment.segment)) :=
      lookup_trackerThread_of_none tp htouch hfresh
    have htime : (seg.between a b).2 = seg.nowMs := by
      unfold Segment.between
      cases seg.direction <;> rfl
    have hseen : ((seg :: talk).map (Segment.between a b)).map TcpSegment.segment =
        (seg :: talk).map (Segment.seen (ClientFirst a b)) := by
      rw [List.map_map]
      exact List.map_congr_left fun seg' _ => segment_between h seg'
    have hlabel : TrackedConnection.created (a.flow b) seg.nowMs origin =
        (TrackedConnection.created key seg.nowMs .unknown).relabel (a.flow b) (some origin) := rfl
    unfold extracted
    simp only
    rw [hlookup, hseen, htime, hlabel, TrackedConnection.run_relabel]
    rfl

end Thread

/-! ## The ClientHello -/

namespace TrackedConnection

/-- Segments of one direction that make up a clean payload have the effect of the payload. -/
theorem run_of_clean {d : Direction} {conn : TrackedConnection} {segs : List Segment}
    (hdir : ∀ seg ∈ segs, seg.direction = d) (hne : ∀ seg ∈ segs, seg.payload ≠ [])
    (hclean : conn.Clean d (segs.map Segment.payload).flatten) (hsegs : segs ≠ []) (t : UInt64) :
    (conn.run tp segs).untimed =
      (conn.ingest tp d (segs.map Segment.payload).flatten t).untimed := by
  induction segs generalizing conn with
  | nil => exact absurd rfl hsegs
  | cons seg segs ih =>
    obtain ⟨hd, hdir⟩ := List.forall_mem_cons.mp hdir
    obtain ⟨hp, hne⟩ := List.forall_mem_cons.mp hne
    rw [List.map_cons, List.flatten_cons] at hclean ⊢
    rw [run_cons, step_of_ne_nil hp, hd]
    by_cases hlast : segs = []
    · subst hlast
      rw [run_nil, List.map_nil, List.flatten_nil, List.append_nil]
      exact ingest_untimed_congr rfl seg.payload seg.nowMs t
    · have hrest := (clean_append tp hclean seg.nowMs).2
      rw [ih hdir hne hrest hlast]
      exact ingest_append hclean t seg.nowMs t

/-- A record that arrives in any number of segments has the effect of the record. -/
theorem run_encode {d : Direction} {conn : TrackedConnection} {segs : List Segment} {r : WireRecord}
    (hdir : ∀ seg ∈ segs, seg.direction = d) (hne : ∀ seg ∈ segs, seg.payload ≠ [])
    (hbytes : (segs.map Segment.payload).flatten = r.encode) (hbuf : conn.buf d = []) :
    (conn.run tp segs).state.handshake =
      (processRecord tp d 0 conn r.toTlsRecord).state.handshake := by
  have hsegs : segs ≠ [] := by
    rintro rfl
    exact r.encode_ne_nil hbytes.symm
  have hfails := @not_fails_segment conn ⟨d, r, 0⟩ hbuf
  have hclean : conn.Clean d (segs.map Segment.payload).flatten := by
    unfold fails at hfails
    push Not at hfails
    obtain ⟨hcap, hok⟩ := hfails r.encode_ne_nil
    rw [hbytes]
    exact ⟨not_lt.mp hcap, hok⟩
  have hrun := @run_of_clean tp d conn segs hdir hne hclean hsegs 0
  have hstep : conn.ingest tp d r.encode 0 = _ :=
    (step_of_ne_nil r.encode_ne_nil).symm.trans (@step_segment conn ⟨d, r, 0⟩ tp hbuf)
  have hcore : (processRecord tp d 0 (conn.touched 0) r.toTlsRecord).core =
      (processRecord tp d 0 conn r.toTlsRecord).core := by
    rw [processRecord_core, processRecord_core, core_touched]
  rw [hbytes, hstep] at hrun
  have hwhole := congrArg (fun c : TrackedConnection => c.state.handshake) hrun
  have huntouched := congrArg (fun c : TrackedConnection => c.state.handshake) hcore
  exact hwhole.trans huntouched

end TrackedConnection

section Hello

variable {ch : TlsClientHelloContents} {talk : List Segment}

/-- The ClientHello is merged if the tracker sees it come from the client, and passed over if not. -/
theorem ClientHelloFlight.run_seen (h : ClientHelloFlight tp ch talk) (first : Bool)
    (key : ConnectionKey) (t : UInt64) :
    ((TrackedConnection.created key t .unknown).run tp (talk.map (Segment.seen first))).state.handshake =
      if first then
        mergeClientHello (TrackedConnection.created key t .unknown).state.handshake
          (extractClientHello tp ch)
      else (TrackedConnection.created key t .unknown).state.handshake := by
  obtain ⟨r, htype, hmsg, hbytes⟩ := h.hello
  set d : Direction := if first then .clientToServer else .serverToClient with hd
  have hdir : ∀ seg ∈ talk.map (Segment.seen first), seg.direction = d := by
    intro seg hseg
    obtain ⟨seg', hmem, rfl⟩ := List.mem_map.mp hseg
    have hclient := h.client seg' hmem
    cases first with
    | true => exact hclient
    | false =>
      show seg'.direction.flip = .serverToClient
      rw [hclient]
      rfl
  have hpayload : ∀ seg : Segment, (seg.seen first).payload = seg.payload := by
    intro seg
    cases first <;> rfl
  have hne : ∀ seg ∈ talk.map (Segment.seen first), seg.payload ≠ [] := by
    intro seg hseg
    obtain ⟨seg', hmem, rfl⟩ := List.mem_map.mp hseg
    rw [hpayload]
    exact h.ne_nil seg' hmem
  have hbytes' : ((talk.map (Segment.seen first)).map Segment.payload).flatten = r.encode := by
    rw [List.map_map, ← hbytes]
    exact congrArg List.flatten (List.map_congr_left fun seg _ => hpayload seg)
  have hbuf : (TrackedConnection.created key t .unknown).buf d = [] := by
    cases d <;> rfl
  have hccs : ¬ (TrackedConnection.created key t .unknown).ccsSeen d := by
    cases d <;> exact Bool.false_ne_true
  have hmessages : tp.AreMessages [(r.payload, .handshake (.clientHello ch))] := by
    intro m hm
    rw [List.mem_singleton.mp hm]
    exact hmsg
  have happly := applyHandshakeRecord_messages d hmessages
    (TrackedConnection.created key t .unknown).state.handshake
  have hone : messageBytes [(r.payload, TlsMessage.handshake (.clientHello ch))] = r.payload := by
    simp [messageBytes]
  rw [hone] at happly
  rw [TrackedConnection.run_encode hdir hne hbytes' hbuf, processRecord_handshakeInfo,
    show r.toTlsRecord.recordType = .handshake from htype]
  simp only
  rw [if_neg hccs, show r.toTlsRecord.payload = r.payload from rfl, happly, hd]
  cases first <;> rfl

end Hello

/-! ## The law -/

section Law

variable {ρ : Type} [OriginResolver ρ] {ch : TlsClientHelloContents} {talk : List Segment}
  {a b a' b' : SocketAddr}

theorem ClientHelloFlight.exists_cons (h : ClientHelloFlight tp ch talk) :
    ∃ seg rest, talk = seg :: rest := by
  obtain ⟨r, -, -, hbytes⟩ := h.hello
  cases talk with
  | nil => exact absurd hbytes.symm r.encode_ne_nil
  | cons seg rest => exact ⟨seg, rest, rfl⟩

/-- What is extracted from a ClientHello. -/
theorem ClientHelloFlight.extracted_eq (h : ClientHelloFlight tp ch talk) (timeoutMs : UInt64)
    (resolver : ρ) (hne : a ≠ b) :
    extracted tp timeoutMs resolver a b talk =
      some (if ClientFirst a b then mergeClientHello .new (extractClientHello tp ch) else .new) := by
  obtain ⟨seg, rest, hcons⟩ := h.exists_cons
  rw [SeeHandshake.extracted_eq timeoutMs resolver hne h.ne_nil (a.flow b), hcons, List.head?_cons,
    Option.map_some, ← hcons, h.run_seen]
  by_cases hfirst : ClientFirst a b
  · simp only [hfirst, decide_true, if_true]
    rfl
  · simp only [hfirst, decide_false, if_false, Bool.false_eq_true]
    rfl

/-- The stage and the server name tell whether the ClientHello was merged. -/
theorem ClientHelloFlight.reaches_iff (h : ClientHelloFlight tp ch talk) (timeoutMs : UInt64)
    (resolver : ρ) (hne : a ≠ b) :
    (∃ info, extracted tp timeoutMs resolver a b talk = some info ∧ info.stage = .clientHello ∧
      info.sni = (extractClientHello tp ch).sni) ↔ ClientFirst a b := by
  rw [h.extracted_eq timeoutMs resolver hne]
  by_cases hfirst : ClientFirst a b
  · rw [if_pos hfirst]
    exact iff_of_true ⟨_, rfl, rfl, Option.or_none⟩ hfirst
  · rw [if_neg hfirst]
    refine iff_of_false ?_ hfirst
    rintro ⟨info, hinfo, hstage, -⟩
    obtain rfl := Option.some.inj hinfo
    exact absurd hstage (by decide)

/-- Two choices of endpoints extract the same from every conversation iff the client comes first in
both or in none. -/
theorem ClientHelloFlight.extracted_eq_iff (h : ClientHelloFlight tp ch talk) (timeoutMs : UInt64)
    (resolver : ρ) (hne : a ≠ b) (hne' : a' ≠ b') :
    (∀ talk : List Segment, (∀ seg ∈ talk, seg.payload ≠ []) →
      extracted tp timeoutMs resolver a b talk = extracted tp timeoutMs resolver a' b' talk) ↔
      (ClientFirst a b ↔ ClientFirst a' b') := by
  constructor
  · intro hsame
    rw [← h.reaches_iff timeoutMs resolver hne, ← h.reaches_iff timeoutMs resolver hne',
      hsame talk h.ne_nil]
  · intro hiff talk hpayload
    have hdecide : decide (ClientFirst a b) = decide (ClientFirst a' b') := decide_eq_decide.mpr hiff
    rw [SeeHandshake.extracted_eq timeoutMs resolver hne hpayload (a.flow b),
      SeeHandshake.extracted_eq timeoutMs resolver hne' hpayload (a.flow b), hdecide]

/-- Ports and addresses decide what is extracted. For a client `a` that opens a conversation with a
ClientHello to `b`: the key names `a` as the client, and the stage and the server name of the ClientHello
are extracted, iff a server port or the order of the endpoints makes `a` the client; and for any other two
endpoints the same is extracted from every conversation iff the same holds of both. -/
theorem extraction_iff_clientFirst (tp : TlsParser) (timeoutMs : UInt64) (resolver : ρ)
    (a b : SocketAddr) (hne : a ≠ b) (ch : TlsClientHelloContents) (talk : List Segment)
    (h : ClientHelloFlight tp ch talk) :
    ((a.flow b).client = a ↔ ClientFirst a b) ∧
    ((∃ info, extracted tp timeoutMs resolver a b talk = some info ∧ info.stage = .clientHello ∧
      info.sni = (extractClientHello tp ch).sni) ↔ ClientFirst a b) ∧
    ∀ a' b' : SocketAddr, a' ≠ b' →
      ((∀ talk : List Segment, (∀ seg ∈ talk, seg.payload ≠ []) →
        extracted tp timeoutMs resolver a b talk = extracted tp timeoutMs resolver a' b' talk) ↔
        (ClientFirst a b ↔ ClientFirst a' b')) :=
  ⟨client_flow_eq_iff hne, h.reaches_iff timeoutMs resolver hne,
    fun _ _ hne' => h.extracted_eq_iff timeoutMs resolver hne hne'⟩

end Law

/-- A ClientHello in two segments. -/
def Reference.helloTalk : List Segment :=
  let r := Reference.record 22 Reference.clientHello13
  [⟨.clientToServer, r.take 20, 0⟩, ⟨.clientToServer, r.drop 20, 1⟩]

theorem Reference.helloTalk_flight :
    ClientHelloFlight Reference.parser Reference.clientHello13Contents Reference.helloTalk where
  client := by decide
  ne_nil := by decide
  hello := ⟨⟨22, 0x0303, Reference.clientHello13, by decide⟩, rfl, Reference.clientHello13_isMessage,
    by decide⟩

theorem extraction_iff_clientFirst_https :
    let a := Reference.clientEndpoint
    let b := Reference.serverEndpoint
    let resolver := FixedResolver.mk .unknown
    (a.flow b).client = a ∧
      ∃ info, extracted Reference.parser 0 resolver a b Reference.helloTalk = some info ∧
        info.stage = .clientHello ∧
        info.sni = (extractClientHello Reference.parser Reference.clientHello13Contents).sni := by
  intro a b resolver
  obtain ⟨hkey, hreaches, -⟩ := extraction_iff_clientFirst Reference.parser 0 resolver a b (by decide)
    Reference.clientHello13Contents Reference.helloTalk Reference.helloTalk_flight
  have hfirst : ClientFirst a b := by decide
  exact ⟨hkey.mpr hfirst, hreaches.mpr hfirst⟩

/-- Between `10.0.0.2:5000` and `10.0.0.1:4433` nothing is extracted from the hellos of both sides. -/
theorem hellos_not_extracted :
    let a : SocketAddr := ⟨.v4 10 0 0 2, 5000⟩
    let b : SocketAddr := ⟨.v4 10 0 0 1, 4433⟩
    let resolver := FixedResolver.mk .unknown
    let talk := Reference.helloTalk ++ [⟨.serverToClient,
      Reference.record 22 (Reference.serverHello13 (List.replicate 32 0)), 2⟩]
    a ≠ b ∧ (a.flow b).client = b ∧ extracted Reference.parser 0 resolver a b talk = some .new ∧
      (extracted Reference.parser 0 resolver Reference.clientEndpoint Reference.serverEndpoint talk).map
        (·.stage) = some .serverHello := by
  decide

end SeeHandshake

import SeeHandshake.Proofs.FlightProofs
import SeeHandshake.Proofs.TimelineProofs
import SeeHandshake.Tracker.Flights
import SeeHandshake.Tracker.Labels

/-!
# Proofs: the labels of the encrypted flight

As long as the timeline is open, the counters of encrypted records count its entries, so the position
that a label is computed from is the position in the timeline. The record that would break the count
closes the timeline first.
-/

namespace SeeHandshake

open Lib

variable {tp : TlsParser}

/-! ## What the grammar says about a timeline -/

namespace Flight

variable {es : List RecordEvent} {s c : ℕ}

theorem bounds (h : Flight es s c) : s ≤ es.length ∧ c ≤ 1 := by
  induction h with
  | nil => exact ⟨Nat.le_refl 0, Nat.zero_le 1⟩
  | other _ _ _ ih =>
    rw [List.length_append]
    exact ⟨Nat.le_add_right_of_le ih.1, ih.2⟩
  | early _ _ _ _ ih => exact ⟨Nat.zero_le _, ih.2⟩
  | server _ _ _ _ ih =>
    rw [List.length_append]
    exact ⟨Nat.add_le_add_right ih.1 1, ih.2⟩
  | finished _ _ _ _ ih =>
    rw [List.length_append]
    exact ⟨Nat.le_add_right_of_le ih.1, Nat.le_refl 1⟩

theorem dataEvents_concat (es : List RecordEvent) (e : RecordEvent) :
    dataEvents (es ++ [e]) = dataEvents es ++ if e.outerType = .applicationData then [e] else [] := by
  unfold dataEvents RecordEvent.isData
  rw [List.filter_append]
  by_cases htype : e.outerType = .applicationData <;> simp [htype]

theorem dataEventsFrom_concat (es : List RecordEvent) (e : RecordEvent) (d : RecordDirection) :
    dataEventsFrom (es ++ [e]) d = dataEventsFrom es d ++
      if e.outerType = .applicationData ∧ e.direction = d then [e] else [] := by
  unfold dataEventsFrom
  rw [dataEvents_concat, List.filter_append]
  by_cases htype : e.outerType = .applicationData <;>
    by_cases hdir : e.direction = d <;> simp [htype, hdir]

/-- The server's entries are counted, and labelled by their positions. -/
theorem server_labels (h : Flight es s c) :
    (dataEventsFrom es .serverToClient).length = s ∧
      ∀ i e, (dataEventsFrom es .serverToClient)[i]? = some e →
        e.label? = some (serverFlightLabel (i + 1) e.outerLength.toNat) := by
  have hclient : ∀ {e : RecordEvent}, e.direction = .clientToServer →
      ¬ (e.outerType = .applicationData ∧ e.direction = .serverToClient) := by
    intro e hdir hboth
    exact RecordDirection.noConfusion (hdir.symm.trans hboth.2)
  induction h with
  | nil => exact ⟨rfl, fun i e he => by cases he⟩
  | other _ htype _ ih =>
    rw [dataEventsFrom_concat, if_neg fun hd => htype hd.1, List.append_nil]
    exact ih
  | early _ _ hdir _ ih =>
    rw [dataEventsFrom_concat, if_neg (hclient hdir), List.append_nil]
    exact ih
  | finished _ _ hdir _ ih =>
    rw [dataEventsFrom_concat, if_neg (hclient hdir), List.append_nil]
    exact ih
  | server _ htype hdir hlabel ih =>
    rw [dataEventsFrom_concat, if_pos ⟨htype, hdir⟩]
    refine ⟨by rw [List.length_append, ih.1, List.length_singleton], ?_⟩
    intro i e he
    rw [List.getElem?_append] at he
    split_ifs at he with hlt
    · exact ih.2 i e he
    · rw [List.getElem?_singleton] at he
      split_ifs at he with hzero
      have hi : i = _ := (Nat.sub_eq_zero_iff_le.mp hzero).antisymm (Nat.not_lt.mp hlt)
      rw [hi, ih.1, ← Option.some.inj he]
      exact hlabel

/-- The client's entries are early data before the server's first one, and at most one more after
it. -/
theorem client_labels (h : Flight es s c) :
    ∃ early late, dataEvents es = early ++ late ∧
      (∀ e ∈ early, e.direction = .clientToServer ∧ e.label? = some earlyDataLabel) ∧
      (late = [] ↔ s = 0) ∧ (∀ e, late.head? = some e → e.direction = .serverToClient) ∧
      (late.filter fun e => e.direction = .clientToServer).length = c ∧
      ∀ e ∈ late, e.direction = .clientToServer →
        e.label? = some (clientFinishedLabel e.outerLength.toNat) := by
  induction h with
  | nil => exact ⟨[], [], rfl, by simp, by simp, by simp, rfl, by simp⟩
  | other _ htype _ ih =>
    rw [dataEvents_concat, if_neg htype, List.append_nil]
    exact ih
  | @early es e _ htype hdir hlabel ih =>
    obtain ⟨early, late, hdata, hearly, hlate, -⟩ := ih
    obtain rfl := hlate.mpr rfl
    rw [List.append_nil] at hdata
    refine ⟨early ++ [e], [], ?_, ?_, by simp, by simp, rfl, by simp⟩
    · rw [dataEvents_concat, if_pos htype, hdata, List.append_nil]
    · intro e' he'
      rcases List.mem_append.mp he' with he' | he'
      · exact hearly e' he'
      · rw [List.mem_singleton.mp he']
        exact ⟨hdir, hlabel⟩
  | @server es s c e _ htype hdir hlabel ih =>
    obtain ⟨early, late, hdata, hearly, hlate, hhead, hcount, hlabels⟩ := ih
    have hserver : e.direction ≠ .clientToServer := by
      rw [hdir]
      exact RecordDirection.noConfusion
    refine ⟨early, late ++ [e], ?_, hearly, by simp, ?_, ?_, ?_⟩
    · rw [dataEvents_concat, if_pos htype, hdata, List.append_assoc]
    · intro e' he'
      rw [List.head?_append] at he'
      cases hl : late.head? with
      | none =>
        rw [hl] at he'
        rw [← Option.some.inj he']
        exact hdir
      | some e'' =>
        rw [hl] at he'
        rw [← Option.some.inj he']
        exact hhead e'' hl
    · rw [List.filter_append, List.filter_cons_of_neg (by simpa using hserver), List.filter_nil,
        List.append_nil, hcount]
    · intro e' he' hclient
      rcases List.mem_append.mp he' with he' | he'
      · exact hlabels e' he' hclient
      · rw [List.mem_singleton.mp he'] at hclient
        exact absurd hclient hserver
  | @finished es s e _ htype hdir hlabel ih =>
    obtain ⟨early, late, hdata, hearly, hlate, hhead, hcount, hlabels⟩ := ih
    obtain ⟨first, rest, rfl⟩ := List.exists_cons_of_ne_nil (mt hlate.mp (Nat.succ_ne_zero s))
    refine ⟨early, (first :: rest) ++ [e], ?_, hearly, by simp, hhead, ?_, ?_⟩
    · rw [dataEvents_concat, if_pos htype, hdata, List.append_assoc]
    · rw [List.filter_append, List.length_append, hcount,
        List.filter_cons_of_pos (by simpa using hdir)]
      rfl
    · intro e' he' hclient
      rcases List.mem_append.mp he' with he' | he'
      · exact hlabels e' he' hclient
      · rw [List.mem_singleton.mp he']
        exact hlabel

theorem serverFlightLabel_ne (position len : ℕ) :
    serverFlightLabel position len ≠ "encrypted application data" := by
  unfold serverFlightLabel
  split_ifs <;> decide

theorem clientFinishedLabel_ne (len : ℕ) :
    clientFinishedLabel len ≠ "encrypted application data" := by
  unfold clientFinishedLabel
  split_ifs <;> decide

/-- No entry claims to be bulk data. -/
theorem label_ne (h : Flight es s c) : ∀ e ∈ es, e.label? ≠ some "encrypted application data" := by
  have hconcat : ∀ {es : List RecordEvent} {e : RecordEvent} {l : Option String},
      (∀ e ∈ es, e.label? ≠ some "encrypted application data") → e.label? = l →
      l ≠ some "encrypted application data" →
      ∀ e' ∈ es ++ [e], e'.label? ≠ some "encrypted application data" := by
    intro es e l ih hl hne e' he'
    rcases List.mem_append.mp he' with he' | he'
    · exact ih e' he'
    · rw [List.mem_singleton.mp he', hl]
      exact hne
  induction h with
  | nil => exact fun e he => absurd he List.not_mem_nil
  | other _ _ hlabel ih => exact hconcat ih rfl hlabel
  | early _ _ _ hlabel ih => exact hconcat ih hlabel (by decide)
  | server _ _ _ hlabel ih =>
    exact hconcat ih hlabel fun heq => serverFlightLabel_ne _ _ (Option.some.inj heq)
  | finished _ _ _ hlabel ih =>
    exact hconcat ih hlabel fun heq => clientFinishedLabel_ne _ (Option.some.inj heq)

/-- Nothing of the client is counted before the server's first record. -/
theorem client_eq_zero (h : Flight es s c) (hs : s = 0) : c = 0 := by
  induction h with
  | nil => rfl
  | other _ _ _ ih => exact ih hs
  | early => rfl
  | server => cases hs
  | finished => cases hs

end Flight

/-! ## The labels of the tracker -/

section Labels

variable {conn : TrackedConnection}

theorem encryptedFlightLabel_server (h12 : ¬ isTls12 conn.state.handshake.tlsVersion) (len : ℕ) :
    encryptedFlightLabel .serverToClient conn len =
      serverFlightLabel conn.encryptedRecordsFromServer.toNat len := by
  have hcount : ∀ n : UInt32, conn.encryptedRecordsFromServer = n ↔
      conn.encryptedRecordsFromServer.toNat = n.toNat := fun n => UInt32.toNat_inj.symm
  unfold encryptedFlightLabel serverFlightLabel
  rw [if_neg h12]
  simp only [hcount]
  rfl

theorem encryptedFlightLabel_early (h12 : ¬ isTls12 conn.state.handshake.tlsVersion)
    (hserver : conn.encryptedRecordsFromServer = 0) (len : ℕ) :
    encryptedFlightLabel .clientToServer conn len = earlyDataLabel := by
  unfold encryptedFlightLabel
  rw [if_neg h12]
  simp only [if_pos hserver]
  rfl

theorem encryptedFlightLabel_finished (h12 : ¬ isTls12 conn.state.handshake.tlsVersion)
    (hserver : conn.encryptedRecordsFromServer ≠ 0) (hclient : conn.encryptedRecordsFromClient = 1)
    (len : ℕ) : encryptedFlightLabel .clientToServer conn len = clientFinishedLabel len := by
  unfold encryptedFlightLabel
  rw [if_neg h12]
  simp only [if_neg hserver, if_pos hclient]
  rfl

/-- No other record is labelled as bulk data. -/
theorem buildBody_label_ne {r : TlsRecord} (hr : r.recordType ≠ .applicationData) (d : Direction)
    {label : String} {preview : Bytes} (h : buildBody r d conn = .encryptedHandshake label preview) :
    label ≠ "encrypted application data" := by
  unfold buildBody at h
  cases htype : r.recordType with
  | handshake =>
    rw [htype] at h
    simp only at h
    split_ifs at h
    obtain ⟨rfl, -⟩ := RecordBody.encryptedHandshake.inj h
    unfold postCcsHandshakeLabel
    cases d with
    | clientToServer =>
      simp only
      split_ifs <;> decide
    | serverToClient =>
      simp only
      split_ifs <;> decide
  | applicationData => exact absurd htype hr
  | changeCipherSpec =>
    rw [htype] at h
    cases h
  | alert =>
    rw [htype] at h
    obtain ⟨rfl, -⟩ := RecordBody.encryptedHandshake.inj h
    decide
  | other v =>
    rw [htype] at h
    obtain ⟨rfl, -⟩ := RecordBody.encryptedHandshake.inj h
    decide

end Labels

/-! ## Runs -/

/-- The timeline follows the grammar, and as long as it is open the counters count its entries. -/
def Labelled (conn : TrackedConnection) : Prop :=
  ∃ s c, Flight conn.state.records s c ∧
    (conn.Closed ∨ conn.encryptedRecordsFromServer.toNat = s ∧
      conn.encryptedRecordsFromClient.toNat = c)

namespace Labelled

variable {conn : TrackedConnection} {d : Direction} {r : TlsRecord}

/-- An ApplicationData record that is logged. -/
theorem processRecord_data (tp : TlsParser) (hlog : conn.logs d r) (hdata : r.recordType = .applicationData)
    (hlen : r.payload.length ≤ MAX_RECORD_PAYLOAD)
    (h12 : ¬ isTls12 conn.state.handshake.tlsVersion) {s c : ℕ}
    (hflight : Flight conn.state.records s c)
    (hserver : conn.encryptedRecordsFromServer.toNat = s)
    (hclient : conn.encryptedRecordsFromClient.toNat = c) (t : UInt64) :
    ∃ s' c', Flight (processRecord tp d t conn r).state.records s' c' ∧
      (processRecord tp d t conn r).encryptedRecordsFromServer.toNat = s' ∧
      (processRecord tp d t conn r).encryptedRecordsFromClient.toNat = c' := by
  obtain ⟨hroom, hlt⟩ := FlightCounts.of_logs_data hlog hdata
  have hentry := processRecord_entry tp hlog t
  have hcounts := processRecord_flight tp d t conn r
  rw [if_pos hdata] at hentry hcounts
  have h12' : ¬ isTls12 (applyEncryptedRecord conn d).state.handshake.tlsVersion := by
    rw [applyEncryptedRecord_tlsVersion]
    exact h12
  have houter : (u16OrMax r.payload.length).toNat = r.payload.length := u16OrMax_toNat hlen
  -- The entry carries the label for the counters after the record.
  have hlabel : ∀ seq, (r.event d t seq (buildBody r d (applyEncryptedRecord conn d))).label? =
      some (encryptedFlightLabel d (applyEncryptedRecord conn d) r.payload.length) := by
    intro seq
    unfold RecordEvent.label? TlsRecord.event buildBody
    rw [hdata]
  rw [hentry]
  obtain ⟨hcountS, hcountC, -⟩ := TrackedConnection.flight_eq_iff.mp hcounts
  rw [hcountS, hcountC]
  cases d with
  | serverToClient =>
    obtain ⟨happliedS, happliedC, -⟩ :=
      TrackedConnection.flight_eq_iff.mp (applyEncryptedRecord_server h12).1
    have hsucc : (conn.encryptedRecordsFromServer + 1).toNat = s + 1 := by
      have hle := hflight.bounds.1
      have hcap : RECORD_LOG_CAP = 64 := rfl
      rw [UInt32.toNat_add, hserver]
      exact Nat.mod_eq_of_lt (by show s + 1 < 4294967296; omega)
    refine ⟨s + 1, c, hflight.server hdata rfl ?_, ?_, ?_⟩
    · rw [hlabel, encryptedFlightLabel_server h12', happliedS, hsucc]
      exact congrArg (fun n => some (serverFlightLabel (s + 1) n)) houter.symm
    · rw [happliedS, hsucc]
    · rw [happliedC, hclient]
  | clientToServer =>
    rcases conn.fromServer_cases with hnone | hsome
    · have hzero : s = 0 := by
        rw [← hserver, hnone]
        rfl
      subst hzero
      obtain rfl := hflight.client_eq_zero rfl
      have hsame := applyEncryptedRecord_early h12 hnone
      refine ⟨0, 0, hflight.early hdata rfl ?_, ?_, ?_⟩
      · rw [hlabel, encryptedFlightLabel_early h12' (by rw [hsame]; exact hnone)]
      · rw [hsame, hserver]
      · rw [hsame, hclient]
    · obtain ⟨happliedS, happliedC, -⟩ :=
        TrackedConnection.flight_eq_iff.mp (applyEncryptedRecord_client h12 hsome).1
      have hne : conn.encryptedRecordsFromServer ≠ 0 := UInt32.pos_iff_ne_zero.mp hsome
      -- A second record of the client would have closed the timeline.
      have hfirst : c = 0 := by
        have hone := hflight.bounds.2
        rw [happliedC, ge_iff_le, UInt32.le_iff_toNat_le, UInt32.toNat_add, hclient] at hlt
        have htwo : (2 : UInt32).toNat = 2 := rfl
        rw [Nat.mod_eq_of_lt (by show c + 1 < 4294967296; omega), htwo, UInt32.toNat_one] at hlt
        omega
      subst hfirst
      have hzeroC : conn.encryptedRecordsFromClient = 0 := UInt32.toNat_inj.mp hclient
      rw [hzeroC] at happliedC
      obtain ⟨s', rfl⟩ := Nat.exists_eq_succ_of_ne_zero
        fun hzero => hne (UInt32.toNat_inj.mp (hserver.trans hzero))
      refine ⟨s' + 1, 1, hflight.finished hdata rfl ?_, ?_, ?_⟩
      · rw [hlabel, encryptedFlightLabel_finished h12' (by rw [happliedS]; exact hne) happliedC]
        exact congrArg (fun n => some (clientFinishedLabel n)) houter.symm
      · rw [happliedS, hserver]
      · rw [happliedC]
        rfl

theorem processRecord (h : Labelled conn) (h12 : ¬ isTls12 conn.state.handshake.tlsVersion)
    (hlen : r.payload.length ≤ MAX_RECORD_PAYLOAD) (d : Direction) (t : UInt64) :
    Labelled (processRecord tp d t conn r) := by
  obtain ⟨s, c, hflight, hcounts⟩ := h
  by_cases helig : r.recordType.eligible
  swap
  · rw [processRecord_of_not_eligible _ _ _ helig]
    exact ⟨s, c, hflight, hcounts⟩
  by_cases hlog : conn.logs d r
  swap
  · have hclosed : (SeeHandshake.processRecord tp d t conn r).Closed :=
      TrackedConnection.closed_of_not_logs helig hlog t
    refine ⟨s, c, ?_, Or.inl hclosed⟩
    rw [(processRecord_not_logged tp t hlog).1]
    exact hflight
  have hopen : ¬ conn.Closed := fun hclosed =>
    TrackedConnection.not_logs_of_closed hclosed d r hlog
  obtain ⟨hserver, hclient⟩ := hcounts.resolve_left hopen
  by_cases hdata : r.recordType = .applicationData
  · obtain ⟨s', c', hflight', hcounts'⟩ :=
      processRecord_data tp hlog hdata hlen h12 hflight hserver hclient t
    exact ⟨s', c', hflight', Or.inr hcounts'⟩
  · have hsame := processRecord_flight tp d t conn r
    rw [if_neg hdata] at hsame
    obtain ⟨hserver', hclient', -⟩ := TrackedConnection.flight_eq_iff.mp hsame
    refine ⟨s, c, ?_, Or.inr ⟨by rw [hserver', hserver], by rw [hclient', hclient]⟩⟩
    rw [processRecord_entry tp hlog t, if_neg hdata]
    refine hflight.other hdata ?_
    intro hlabel
    unfold RecordEvent.label? at hlabel
    split at hlabel
    · rename_i label preview hbody
      exact buildBody_label_ne hdata d hbody (Option.some.inj hlabel)
    · cases hlabel

theorem run (tp : TlsParser) (key : ConnectionKey) (t : UInt64) (origin : Origin)
    {segs : List Segment} (h : NeverTls12 tp (.created key t origin) segs) :
    Labelled ((TrackedConnection.created key t origin).run tp segs) := by
  have hrun := TrackedConnection.run_history_of tp (P := fun _ conn => Labelled conn)
    (fun l conn d t r bytes hcut h12 hl => hl.processRecord h12 (payload_of_cut hcut).1 d t)
    (fun l conn t text hl => hl) (fun l conn t hl => hl)
    (fun l conn d bytes hl => by cases d <;> exact hl)
    (fun pre seg post a f b hsegs hframed => h pre seg post a (f :: b) hsegs hframed)
    (l := []) ⟨0, 0, .nil, Or.inr ⟨rfl, rfl⟩⟩
  exact hrun

end Labelled

/-- In every run of a new connection that is at no record known to be TLS 1.2 or older, the labels of
the timeline follow the documented table: the server's by position and length, the client's as early
data before the server's first one and at most once as the client's Finished after it. No entry is
labelled as bulk data. -/
theorem flight_labels (tp : TlsParser) (key : ConnectionKey) (t : UInt64) (origin : Origin)
    (segs : List Segment) (h : NeverTls12 tp (.created key t origin) segs) :
    let records := ((TrackedConnection.created key t origin).run tp segs).state.records
    (∀ i e, (dataEventsFrom records .serverToClient)[i]? = some e →
      e.label? = some (serverFlightLabel (i + 1) e.outerLength.toNat)) ∧
    (∃ early late, dataEvents records = early ++ late ∧
      (∀ e ∈ early, e.direction = .clientToServer ∧ e.label? = some earlyDataLabel) ∧
      (∀ e, late.head? = some e → e.direction = .serverToClient) ∧
      (late.filter fun e => e.direction = .clientToServer).length ≤ 1 ∧
      ∀ e ∈ late, e.direction = .clientToServer →
        e.label? = some (clientFinishedLabel e.outerLength.toNat)) ∧
    ∀ e ∈ records, e.label? ≠ some "encrypted application data" := by
  intro records
  obtain ⟨s, c, hflight, -⟩ := Labelled.run tp key t origin h
  obtain ⟨early, late, hdata, hearly, -, hhead, hcount, hlabels⟩ := hflight.client_labels
  have hone : (late.filter fun e => e.direction = .clientToServer).length ≤ 1 := by
    rw [hcount]
    exact hflight.bounds.2
  exact ⟨hflight.server_labels.2, ⟨early, late, hdata, hearly, hhead, hone, hlabels⟩,
    hflight.label_ne⟩

/-- For records that arrive whole, the version has to be looked at before and after each of them. -/
theorem neverTls12_of_allSteps {conn : TrackedConnection} {xs : List Sent}
    (hbuf : ∀ d, conn.buf d = [])
    (h : AllSteps (fun c x => c.step tp x.segment)
      (fun c x => ¬ isTls12 c.state.handshake.tlsVersion ∧
        ¬ isTls12 (c.step tp x.segment).state.handshake.tlsVersion) conn xs) :
    NeverTls12 tp conn (xs.map Sent.segment) := by
  intro pre seg post a b hsegs hframed
  obtain ⟨ys, zs, rfl, rfl, hzs⟩ := List.map_eq_append_iff.mp hsegs
  obtain ⟨x, zs, rfl, rfl, -⟩ := List.map_eq_cons_iff.mp hzs
  obtain ⟨hbefore, hafter⟩ := h ys x zs rfl
  rw [← List.foldl_map] at hbefore hafter
  have hempty : (conn.run tp (ys.map Sent.segment)).buf x.direction = [] :=
    TrackedConnection.buf_run_segments ys hbuf x.direction
  rw [TrackedConnection.framed_segment hempty] at hframed
  rcases List.append_eq_singleton_iff.mp hframed.symm with ⟨rfl, -⟩ | ⟨rfl, -⟩
  · have hstart : ((conn.run tp (ys.map Sent.segment)).midway tp x.segment []).state.handshake =
        (conn.run tp (ys.map Sent.segment)).state.handshake := by
      unfold TrackedConnection.midway
      rw [List.foldl_nil, TrackedConnection.state_setBuf]
      rfl
    rw [List.map_nil, hstart]
    exact hbefore
  · have hstep := @TrackedConnection.step_eq_midway tp (conn.run tp (ys.map Sent.segment)) x.segment
      (by rw [TrackedConnection.framed_segment hempty]; exact List.cons_ne_nil _ _)
    rw [TrackedConnection.framed_segment hempty] at hstep
    rw [← hstep]
    exact hafter

/-- A timeline with early data, two short records of the server, the Finished of the client and bulk
data. -/
def Reference.resumed : List Sent :=
  [.of .clientToServer 22 clientHello13, .of .clientToServer 23 [7],
    .of .serverToClient 22 (serverHello13 (List.replicate 32 0)), .of .serverToClient 23 [7],
    .of .serverToClient 23 [7], .of .clientToServer 23 [7], .of .clientToServer 23 [7]]

theorem Reference.neverTls12_resumed :
    NeverTls12 parser (.created key 0 .unknown) (resumed.map Sent.segment) :=
  neverTls12_of_allSteps (fun d => by cases d <;> rfl) (by decide +kernel)

/-- The timeline of the resumed connection. -/
def Reference.resumedTimeline : List RecordEvent :=
  ((TrackedConnection.created key 0 .unknown).run parser (resumed.map Sent.segment)).state.records

/-- The second record of the server is labelled by its place and its length. -/
theorem flight_labels_resumed :
    ∃ e, (dataEventsFrom Reference.resumedTimeline .serverToClient)[1]? = some e ∧
      e.label? = some "likely Finished only" := by
  obtain ⟨hserver, -⟩ := flight_labels Reference.parser Reference.key 0 .unknown _
    Reference.neverTls12_resumed
  have hsecond : (dataEventsFrom Reference.resumedTimeline .serverToClient)[1]?.map
      RecordEvent.outerLength = some 1 := by decide +kernel
  obtain ⟨e, he, hlen⟩ := Option.map_eq_some_iff.mp hsecond
  have hlabel := hserver 1 e he
  have hshort : serverFlightLabel 2 1 = "likely Finished only" := by decide
  rw [hlen] at hlabel
  exact ⟨e, he, hlabel.trans (congrArg some hshort)⟩

end SeeHandshake

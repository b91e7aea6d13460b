import Mathlib.Data.List.TakeWhile
import SeeHandshake.Proofs.LifetimeProofs
import SeeHandshake.Tracker.Retained

/-!
# Proofs: extracted fields are not lost

Every place that writes the handshake keeps what it found: the merges fall back on the old value, and
everything else writes the stage, the certificate or the error only. The version and the suite are those
of the last ServerHello, since a ClientHello gives way to a known version and selects no suite.
-/

namespace SeeHandshake

open Lib

variable {tp : TlsParser}

/-! ## The fields of a handshake -/

namespace HandshakeInfo.Kept

variable {handshake handshake' handshake'' : HandshakeInfo}

theorem refl (handshake : HandshakeInfo) : handshake.Kept handshake where
  sni := id
  alpnSelected := id
  cipherSuiteSelected := id
  keyShareGroup := id
  tlsVersion := id
  certificateSubject := id
  certificateIssuer := id
  error := id
  alpnOffered := id
  cipherSuitesOffered := id
  groupsOffered := id
  origin := rfl

theorem trans (h : handshake.Kept handshake') (h' : handshake'.Kept handshake'') :
    handshake.Kept handshake'' where
  sni := h'.sni ∘ h.sni
  alpnSelected := h'.alpnSelected ∘ h.alpnSelected
  cipherSuiteSelected := h'.cipherSuiteSelected ∘ h.cipherSuiteSelected
  keyShareGroup := h'.keyShareGroup ∘ h.keyShareGroup
  tlsVersion := h'.tlsVersion ∘ h.tlsVersion
  certificateSubject := h'.certificateSubject ∘ h.certificateSubject
  certificateIssuer := h'.certificateIssuer ∘ h.certificateIssuer
  error := h'.error ∘ h.error
  alpnOffered := h'.alpnOffered ∘ h.alpnOffered
  cipherSuitesOffered := h'.cipherSuitesOffered ∘ h.cipherSuitesOffered
  groupsOffered := h'.groupsOffered ∘ h.groupsOffered
  origin := h'.origin.trans h.origin

/-- The stage is not among the kept fields. -/
theorem withStage (handshake : HandshakeInfo) (stage : HandshakeStage) :
    handshake.Kept { handshake with stage } := { refl handshake with }

theorem or_isSome {α : Type} {o old : Option α} (h : old.isSome) : (o.or old).isSome := by
  rw [Option.isSome_or, h, Bool.or_true]

theorem list_ne_nil {α : Type} {new old : List α} (h : old ≠ []) :
    (if new.isEmpty then old else new) ≠ [] := by
  split_ifs with hempty
  · exact h
  · simpa using hempty

theorem mergeClientHello (handshake : HandshakeInfo) (info : ClientHelloInfo) :
    handshake.Kept (mergeClientHello handshake info) where
  sni := or_isSome
  alpnSelected := id
  cipherSuiteSelected := id
  keyShareGroup := or_isSome
  tlsVersion := by
    unfold SeeHandshake.mergeClientHello
    cases info.maxVersion with
    | none => exact id
    | some v => exact fun _ => rfl
  certificateSubject := id
  certificateIssuer := id
  error := id
  alpnOffered := list_ne_nil
  cipherSuitesOffered := list_ne_nil
  groupsOffered := list_ne_nil
  origin := rfl

theorem mergeServerHello (handshake : HandshakeInfo) (info : ServerHelloInfo) :
    handshake.Kept (mergeServerHello handshake info) where
  sni := id
  alpnSelected := or_isSome
  cipherSuiteSelected := or_isSome
  keyShareGroup := or_isSome
  tlsVersion := or_isSome
  certificateSubject := id
  certificateIssuer := id
  error := id
  alpnOffered := id
  cipherSuitesOffered := id
  groupsOffered := id
  origin := rfl

theorem message (tp : TlsParser) (d : Direction) (handshake : HandshakeInfo) (msg : TlsMessage) :
    handshake.Kept (applyHandshakeMessage tp d handshake msg) := by
  cases msg with
  | other => exact refl _
  | handshake hs =>
    cases hs with
    | clientHello ch =>
      cases d with
      | clientToServer => exact mergeClientHello _ _
      | serverToClient => exact refl _
    | serverHello sh =>
      cases d with
      | clientToServer => exact refl _
      | serverToClient => exact mergeServerHello _ _
    | certificate =>
      cases d with
      | clientToServer => exact refl _
      | serverToClient =>
        unfold applyHandshakeMessage
        simp only
        split_ifs
        · exact withStage _ _
        · exact refl _
    | serverKeyExchange => exact withStage _ _
    | serverDone => exact withStage _ _
    | clientKeyExchange =>
      cases d with
      | clientToServer => exact withStage _ _
      | serverToClient => exact refl _
    | other => cases d <;> exact refl _

theorem record (tp : TlsParser) (handshake : HandshakeInfo) (payload : Bytes) (d : Direction) :
    handshake.Kept (applyHandshakeRecord tp handshake payload d) := by
  rw [applyHandshakeRecord_eq_foldl]
  generalize messagesOf tp payload = msgs
  induction msgs generalizing handshake with
  | nil => exact refl _
  | cons msg msgs ih => exact (message tp d handshake msg).trans (ih _)

theorem ccs (handshake : HandshakeInfo) (d : Direction) :
    handshake.Kept (applyCcs handshake d) := by
  unfold applyCcs
  cases d with
  | clientToServer =>
    simp only
    split_ifs
    · exact withStage _ _
    · exact refl _
  | serverToClient =>
    simp only
    split_ifs
    · exact withStage _ _
    · exact refl _

theorem encrypted (conn : TrackedConnection) (d : Direction) :
    conn.state.handshake.Kept (applyEncryptedRecord conn d).state.handshake := by
  obtain ⟨stage, subject, issuer, h, hsubject, hissuer⟩ := applyEncryptedRecord_certificate conn d
  rw [h]
  exact { refl conn.state.handshake with
    certificateSubject := hsubject
    certificateIssuer := hissuer }

end HandshakeInfo.Kept

/-! ## The state of a connection -/

namespace ConnectionState.Kept

variable {state state' state'' : ConnectionState}

theorem refl (state : ConnectionState) : state.Kept state := ⟨rfl, rfl, .refl _⟩

theorem trans (h : state.Kept state') (h' : state'.Kept state'') : state.Kept state'' :=
  ⟨h'.key.trans h.key, h'.firstSeenMs.trans h.firstSeenMs, h.handshake.trans h'.handshake⟩

theorem processRecord (tp : TlsParser) (d : Direction) (t : UInt64) (conn : TrackedConnection)
    (r : TlsRecord) : conn.state.Kept (processRecord tp d t conn r).state := by
  obtain ⟨handshake, records, hstate⟩ := @processRecord_state tp d t conn r
  refine ⟨by rw [hstate], by rw [hstate], ?_⟩
  rw [processRecord_handshakeInfo]
  cases r.recordType with
  | handshake =>
    simp only
    split_ifs
    · exact .refl _
    · exact .record tp _ _ d
  | applicationData => exact .encrypted conn d
  | changeCipherSpec => exact .ccs _ d
  | alert => exact .refl _
  | other v => exact .refl _

theorem foldl_processRecord (tp : TlsParser) (d : Direction) (t : UInt64) (rs : List TlsRecord)
    (conn : TrackedConnection) :
    conn.state.Kept (rs.foldl (SeeHandshake.processRecord tp d t) conn).state := by
  induction rs generalizing conn with
  | nil => exact refl _
  | cons r rs ih => exact (processRecord tp d t conn r).trans (ih _)

/-- A fatal error overwrites the stage and the error only. -/
theorem errored (conn : TrackedConnection) (t : UInt64) (text : String) :
    conn.state.Kept (conn.errored t text).state :=
  ⟨rfl, rfl, { HandshakeInfo.Kept.refl conn.state.handshake with error := fun _ => rfl }⟩

/-- A segment keeps what was extracted, whatever way it takes through `ingest`. -/
theorem step (tp : TlsParser) (conn : TrackedConnection) (seg : Segment) :
    conn.state.Kept (conn.step tp seg).state := by
  by_cases hne : seg.payload = []
  · rw [TrackedConnection.step_of_nil hne]
    exact refl _
  by_cases hf : conn.fails seg
  · obtain ⟨text, bytes, -, hstep⟩ := TrackedConnection.step_of_fails tp hf
    rw [hstep, TrackedConnection.state_setBuf]
    exact errored conn seg.nowMs text
  · rw [TrackedConnection.step_of_not_fails hne hf]
    have hfold := foldl_processRecord tp seg.direction seg.nowMs
      ((conn.framed seg).map Prod.fst)
      ((conn.touched seg.nowMs).setBuf seg.direction (conn.peeled seg).rest)
    rw [TrackedConnection.state_setBuf] at hfold
    exact ⟨hfold.key, hfold.firstSeenMs, hfold.handshake⟩

end ConnectionState.Kept

/-! ## The version and the suite of the last ServerHello -/

/-- The summary of a ServerHello names a version and a suite. -/
theorem extractServerHello_isSome (tp : TlsParser) (sh : TlsServerHelloContents) :
    (extractServerHello tp sh).tlsVersion.isSome ∧
      (extractServerHello tp sh).cipherSuiteSelected.isSome := by
  have hvisit : ∀ (info : ServerHelloInfo) (ext : TlsExtension),
      info.tlsVersion.isSome ∧ info.cipherSuiteSelected.isSome →
        (applyServerExtension info ext).tlsVersion.isSome ∧
          (applyServerExtension info ext).cipherSuiteSelected.isSome := by
    intro info ext h
    unfold applyServerExtension
    split
    · exact h
    · split
      · exact ⟨rfl, h.2⟩
      · exact h
    · exact h
    · exact h
  have hwalk : ∀ (fuel : ℕ) (remaining : Bytes) (info : ServerHelloInfo),
      info.tlsVersion.isSome ∧ info.cipherSuiteSelected.isSome →
        (walkExtensionsLoop tp applyServerExtension fuel remaining info).tlsVersion.isSome ∧
          (walkExtensionsLoop tp applyServerExtension fuel remaining
            info).cipherSuiteSelected.isSome := by
    intro fuel
    induction fuel with
    | zero => exact fun _ _ h => h
    | succ fuel ih =>
      intro remaining info h
      rw [walkExtensionsLoop]
      split_ifs
      · exact h
      · split
        · exact ih _ _ (hvisit _ _ h)
        · exact h
  unfold extractServerHello
  split
  · exact hwalk _ _ _ ⟨rfl, rfl⟩
  · exact ⟨rfl, rfl⟩

/-- The version and the suite of the handshake are those of the last of the ServerHello messages. -/
def Settled (tp : TlsParser) (hellos : List TlsServerHelloContents) (handshake : HandshakeInfo) :
    Prop :=
  ∀ sh, hellos.getLast? = some sh →
    handshake.tlsVersion = (extractServerHello tp sh).tlsVersion ∧
      handshake.cipherSuiteSelected = (extractServerHello tp sh).cipherSuiteSelected

namespace Settled

variable {hellos : List TlsServerHelloContents} {handshake handshake' : HandshakeInfo}

theorem congr (h : Settled tp hellos handshake) (hversion : handshake'.tlsVersion = handshake.tlsVersion)
    (hsuite : handshake'.cipherSuiteSelected = handshake.cipherSuiteSelected) :
    Settled tp hellos handshake' := by
  intro sh hsh
  rw [hversion, hsuite]
  exact h sh hsh

/-- A ClientHello gives way to the version of a ServerHello. -/
theorem mergeClientHello (h : Settled tp hellos handshake) (info : ClientHelloInfo) :
    Settled tp hellos (mergeClientHello handshake info) := by
  intro sh hsh
  obtain ⟨hversion, hsuite⟩ := h sh hsh
  obtain ⟨v, hv⟩ := Option.isSome_iff_exists.mp (extractServerHello_isSome tp sh).1
  rw [hv] at hversion ⊢
  refine ⟨?_, hsuite⟩
  unfold SeeHandshake.mergeClientHello
  cases info.maxVersion with
  | none => exact hversion
  | some v' => simp only [hversion, Option.getD_some]

/-- A ServerHello replaces version and suite. -/
theorem mergeServerHello (tp : TlsParser) (hellos : List TlsServerHelloContents)
    (handshake : HandshakeInfo) (sh : TlsServerHelloContents) :
    Settled tp (hellos ++ [sh]) (mergeServerHello handshake (extractServerHello tp sh)) := by
  intro sh' hsh
  rw [List.getLast?_concat] at hsh
  obtain rfl := Option.some.inj hsh
  obtain ⟨hversion, hsuite⟩ := extractServerHello_isSome tp sh
  exact ⟨Option.or_of_isSome hversion, Option.or_of_isSome hsuite⟩

/-- What a message adds to the merged ServerHello messages. -/
theorem message (h : Settled tp hellos handshake) (d : Direction) (msg : TlsMessage) :
    Settled tp (hellos ++ if d = .serverToClient then msg.serverHello?.toList else [])
      (applyHandshakeMessage tp d handshake msg) := by
  have hkeep : ∀ {handshake' : HandshakeInfo}, handshake'.tlsVersion = handshake.tlsVersion →
      handshake'.cipherSuiteSelected = handshake.cipherSuiteSelected →
      msg.serverHello? = none ∨ d = .clientToServer →
      Settled tp (hellos ++ if d = .serverToClient then msg.serverHello?.toList else [])
        handshake' := by
    intro handshake' hversion hsuite hnone
    have hnil : (if d = .serverToClient then msg.serverHello?.toList else []) = [] := by
      rcases hnone with hmsg | hd
      · rw [hmsg, Option.toList_none, ite_self]
      · rw [hd]
        rfl
    rw [hnil, List.append_nil]
    exact h.congr hversion hsuite
  cases msg with
  | other => exact hkeep rfl rfl (Or.inl rfl)
  | handshake hs =>
    cases hs with
    | clientHello ch =>
      cases d with
      | clientToServer =>
        rw [if_neg (by decide), List.append_nil]
        exact h.mergeClientHello _
      | serverToClient => exact hkeep rfl rfl (Or.inl rfl)
    | serverHello sh =>
      cases d with
      | clientToServer => exact hkeep rfl rfl (Or.inr rfl)
      | serverToClient => exact mergeServerHello tp hellos handshake sh
    | certificate =>
      cases d with
      | clientToServer => exact hkeep rfl rfl (Or.inl rfl)
      | serverToClient =>
        unfold applyHandshakeMessage
        simp only
        split_ifs <;> exact hkeep rfl rfl (Or.inl rfl)
    | serverKeyExchange => exact hkeep rfl rfl (Or.inl rfl)
    | serverDone => exact hkeep rfl rfl (Or.inl rfl)
    | clientKeyExchange => cases d <;> exact hkeep rfl rfl (Or.inl rfl)
    | other => cases d <;> exact hkeep rfl rfl (Or.inl rfl)

theorem record (h : Settled tp hellos handshake) (d : Direction) (payload : Bytes) :
    Settled tp
      (hellos ++ if d = .serverToClient then
        (messagesOf tp payload).filterMap TlsMessage.serverHello? else [])
      (applyHandshakeRecord tp handshake payload d) := by
  rw [applyHandshakeRecord_eq_foldl]
  generalize messagesOf tp payload = msgs
  induction msgs generalizing hellos handshake with
  | nil => simpa using h
  | cons msg msgs ih =>
    have hmsgs := ih (h.message d msg)
    rw [List.foldl_cons]
    refine (congrArg (Settled tp · _) ?_).mp hmsgs
    rw [List.append_assoc]
    congr 1
    split_ifs
    · rw [List.filterMap_cons]
      cases msg.serverHello? <;> rfl
    · rfl

end Settled

/-! ## Plaintext -/

section Plaintext

variable (l : List (Direction × TlsRecord × Bytes)) (d d' : Direction) (r : TlsRecord) (bytes : Bytes)

theorem ccsProcessed_concat :
    ccsProcessed (l ++ [(d', r, bytes)]) d =
      (ccsProcessed l d || (decide (r.recordType = .changeCipherSpec) && decide (d = d'))) := by
  simp [ccsProcessed, eq_comm]

/-- A Handshake record is plaintext as long as no ChangeCipherSpec of its direction came before. -/
theorem plaintext_concat :
    plaintext (l ++ [(d', r, bytes)]) d = plaintext l d ++
      if d' = d ∧ r.recordType = .handshake ∧ ¬ ccsProcessed l d then [r.payload] else [] := by
  by_cases hd : d' = d
  swap
  · rw [if_neg fun h => hd h.1, List.append_nil]
    unfold plaintext
    rw [List.filter_append, List.filter_cons_of_neg (by simpa using hd), List.filter_nil,
      List.append_nil]
  have hccs : ccsProcessed l d = (l.filter fun f => f.1 = d).any
      fun f => f.2.1.recordType = .changeCipherSpec := by
    unfold ccsProcessed
    rw [List.any_filter]
    exact congrArg (List.any l) (funext fun f => Bool.and_comm _ _)
  unfold plaintext
  rw [hccs, List.filter_append, List.filter_cons_of_pos (by simpa using hd), List.filter_nil]
  generalize (l.filter fun f => f.1 = d) = own
  by_cases hseen : own.any fun f => f.2.1.recordType = .changeCipherSpec
  · -- The takeWhile has stopped before.
    rw [if_neg fun h => h.2.2 hseen, List.append_nil, List.takeWhile_append, if_neg]
    intro hlen
    have hall := List.takeWhile_eq_self_iff.mp ((List.takeWhile_prefix _).eq_of_length hlen)
    obtain ⟨f, hf, htype⟩ := List.any_eq_true.mp hseen
    exact absurd (hall f hf) (by simpa using htype)
  · have hall : ∀ f ∈ own, decide (f.2.1.recordType ≠ .changeCipherSpec) = true := by
      simpa using hseen
    have hown := List.takeWhile_eq_self_iff.mpr hall
    rw [List.takeWhile_append_of_pos hall, hown, List.filter_append, List.map_append]
    congr 1
    by_cases hr : r.recordType = .handshake
    · rw [if_pos ⟨hd, hr, hseen⟩]
      simp [hr]
    · rw [if_neg fun h => hr h.2.1]
      by_cases hr' : r.recordType = .changeCipherSpec
      · simp [hr']
      · simp [hr, hr']

theorem mergedServerHellos_concat (tp : TlsParser) :
    mergedServerHellos tp (l ++ [(d', r, bytes)]) = mergedServerHellos tp l ++
      if d' = .serverToClient ∧ r.recordType = .handshake ∧ ¬ ccsProcessed l .serverToClient then
        (messagesOf tp r.payload).filterMap TlsMessage.serverHello? else [] := by
  unfold mergedServerHellos
  rw [plaintext_concat, List.flatMap_append, List.filterMap_append]
  congr 1
  split_ifs <;> simp

end Plaintext

/-! ## Runs -/

namespace TrackedConnection

/-- The flags tell which directions sent a ChangeCipherSpec among the processed records. -/
theorem ccsSeen_run (tp : TlsParser) {conn : TrackedConnection} (h : ∀ d, conn.ccsSeen d = false)
    (segs : List Segment) (d : Direction) :
    (conn.run tp segs).ccsSeen d = ccsProcessed (processed tp conn segs) d := by
  have hrun := run_history tp (P := fun l conn => ∀ d, conn.ccsSeen d = ccsProcessed l d)
    (fun l conn d t r bytes _ hl d' => by rw [processRecord_ccsSeen, ccsProcessed_concat, hl])
    (fun l conn t text hl d' => by rw [ccsSeen_errored, hl])
    (fun l conn t hl d' => by rw [ccsSeen_touched, hl])
    (fun l conn d bytes hl d' => by rw [ccsSeen_setBuf, hl])
    segs [] conn h
  exact hrun d

/-- Only a Handshake record changes the version or the suite. -/
theorem processRecord_version_suite {r : TlsRecord} (hr : r.recordType ≠ .handshake)
    (d : Direction) (t : UInt64) (conn : TrackedConnection) :
    (processRecord tp d t conn r).state.handshake.tlsVersion = conn.state.handshake.tlsVersion ∧
      (processRecord tp d t conn r).state.handshake.cipherSuiteSelected =
        conn.state.handshake.cipherSuiteSelected := by
  rw [processRecord_handshakeInfo]
  cases htype : r.recordType with
  | handshake => exact absurd htype hr
  | applicationData =>
    obtain ⟨stage, subject, issuer, happlied⟩ := applyEncryptedRecord_handshake conn d
    simp only [happlied, and_self]
  | changeCipherSpec =>
    unfold applyCcs
    cases d <;> simp only <;> split_ifs <;> exact ⟨rfl, rfl⟩
  | alert => exact ⟨rfl, rfl⟩
  | other v => exact ⟨rfl, rfl⟩

/-- One record keeps the version and the suite those of the last merged ServerHello. -/
theorem settled_processRecord {l : List (Direction × TlsRecord × Bytes)} {conn : TrackedConnection}
    (hccs : ∀ d, conn.ccsSeen d = ccsProcessed l d)
    (h : Settled tp (mergedServerHellos tp l) conn.state.handshake) (d : Direction) (t : UInt64)
    (r : TlsRecord) (bytes : Bytes) :
    Settled tp (mergedServerHellos tp (l ++ [(d, r, bytes)]))
      (processRecord tp d t conn r).state.handshake := by
  rw [mergedServerHellos_concat]
  by_cases hr : r.recordType = .handshake
  swap
  · obtain ⟨hversion, hsuite⟩ := @processRecord_version_suite tp r hr d t conn
    rw [if_neg fun hd => hr hd.2.1, List.append_nil]
    exact h.congr hversion hsuite
  rw [processRecord_handshakeInfo, hr, hccs d]
  by_cases hseen : ccsProcessed l d
  · rw [if_neg, List.append_nil]
    · simpa only [hseen, if_true] using h
    · rintro ⟨rfl, -, hnot⟩
      exact hnot hseen
  · simp only [if_neg hseen]
    have hrecord := h.record d r.payload
    by_cases hd : d = .serverToClient
    · rw [if_pos hd] at hrecord
      rw [if_pos ⟨hd, trivial, hd ▸ hseen⟩]
      exact hrecord
    · rw [if_neg hd] at hrecord
      rw [if_neg fun hs => hd hs.1]
      exact hrecord

/-- In every run of a new connection, the version and the suite are those of the last merged
ServerHello. -/
theorem settled_run (tp : TlsParser) (key : ConnectionKey) (nowMs : UInt64) (origin : Origin)
    (segs : List Segment) :
    Settled tp (mergedServerHellos tp (processed tp (created key nowMs origin) segs))
      ((created key nowMs origin).run tp segs).state.handshake := by
  have hrun := run_history tp
    (P := fun l conn => (∀ d, conn.ccsSeen d = ccsProcessed l d) ∧
      Settled tp (mergedServerHellos tp l) conn.state.handshake)
    (fun l conn d t r bytes _ hl =>
      ⟨fun d' => by rw [processRecord_ccsSeen, ccsProcessed_concat, hl.1],
        settled_processRecord hl.1 hl.2 d t r bytes⟩)
    (fun l conn t text hl => ⟨fun d' => by rw [ccsSeen_errored, hl.1], hl.2.congr rfl rfl⟩)
    (fun l conn t hl => ⟨fun d' => by rw [ccsSeen_touched, hl.1], hl.2.congr rfl rfl⟩)
    (fun l conn d bytes hl => ⟨fun d' => by rw [ccsSeen_setBuf, hl.1], by rw [state_setBuf]; exact hl.2⟩)
    segs [] (created key nowMs origin)
    ⟨fun d => by cases d <;> rfl, fun sh hsh => by cases hsh⟩
  exact hrun.2

end TrackedConnection

namespace ConnectionTracker

variable {ρ : Type} [OriginResolver ρ]

/-- In every run of ingestion and eviction, whatever the next call: a tracked connection keeps its key,
its origin, when it was first seen and all that was extracted. Its version and its suite are those of
the last ServerHello that was merged since it was last evicted. -/
theorem extraction_retained (tp : TlsParser) (timeoutMs : UInt64) (r : ρ) (os : List TrackerOp)
    (key : ConnectionKey) (conn : TrackedConnection)
    (h : ((withStaleTimeout timeoutMs r).ops tp os).connections.lookup key = some conn) :
    let fresh := withStaleTimeout timeoutMs r
    (∀ c : Call, ∃ conn', ((fresh.ops tp os).call tp c).connections.lookup key = some conn' ∧
      conn.state.Kept conn'.state) ∧
    ∃ nowMs origin,
      let start := TrackedConnection.created key nowMs origin
      let segs := (fresh.ownSince tp key [] os).map Call.segment
      conn = start.run tp segs ∧
      ∀ sh, (mergedServerHellos tp (TrackedConnection.processed tp start segs)).getLast? = some sh →
        conn.state.handshake.tlsVersion = (extractServerHello tp sh).tlsVersion ∧
        conn.state.handshake.cipherSuiteSelected =
          (extractServerHello tp sh).cipherSuiteSelected := by
  intro fresh
  constructor
  · intro c
    by_cases hne : c.payload = []
    · rw [call_of_nil hne]
      exact ⟨conn, h, .refl _⟩
    rw [lookup_call hne]
    by_cases hkey : key = c.key
    · rw [if_pos hkey, target_of_some (hkey ▸ h)]
      refine ⟨_, rfl, ?_⟩
      have hstep := ConnectionState.Kept.step tp conn c.segment
      rwa [TrackedConnection.step_of_ne_nil hne] at hstep
    · rw [if_neg hkey]
      exact ⟨conn, h, .refl _⟩
  · obtain ⟨nowMs, origin, hrun⟩ := lookup_ops_eq_run tp h
    refine ⟨nowMs, origin, hrun, ?_⟩
    rw [hrun]
    exact TrackedConnection.settled_run tp key nowMs origin _

/-- After both hellos, a header that declares an oversized record: the error is set, and everything
else is kept. -/
theorem extraction_retained_oversized :
    let call (d : Direction) (payload : Bytes) : Call := ⟨Reference.key, d,
      Reference.clientEndpoint, Reference.serverEndpoint, payload, 7⟩
    let t := (withResolver (FixedResolver.mk .unknown)).ops Reference.parser
      [.ingest (call .clientToServer (Reference.record 22 Reference.clientHello13)),
        .ingest (call .serverToClient (Reference.record 22
          (Reference.serverHello13 (List.replicate 32 0))))]
    ∃ conn conn', t.connections.lookup Reference.key = some conn ∧
      (t.call Reference.parser
        (call .clientToServer [23, 3, 3, 255, 255])).connections.lookup Reference.key = some conn' ∧
      conn.state.Kept conn'.state ∧ conn'.state.handshake.stage = .errored := by
  intro call t
  obtain ⟨conn, hconn⟩ := Option.isSome_iff_exists.mp
    (show (t.connections.lookup Reference.key).isSome by decide)
  obtain ⟨hkept, -⟩ := extraction_retained Reference.parser DEFAULT_STALE_TIMEOUT_MS
    (FixedResolver.mk .unknown) _ Reference.key conn hconn
  obtain ⟨conn', hconn', hkept'⟩ := hkept (call .clientToServer [23, 3, 3, 255, 255])
  have hstage : ((t.call Reference.parser
      (call .clientToServer [23, 3, 3, 255, 255])).connections.lookup Reference.key).map
        (·.state.handshake.stage) = some .errored := by decide
  have hstage' := (congrArg (Option.map (·.state.handshake.stage)) hconn').symm.trans hstage
  exact ⟨conn, conn', hconn, hconn', hkept', Option.some.inj hstage'⟩

end ConnectionTracker

end SeeHandshake

import SeeHandshake.Lib.Register
import SeeHandshake.Origin.Scan
import SeeHandshake.Proofs.SocketTableProofs

/-!
# The cache of the resolver

The resolver answers from a snapshot of `/proc`, its own or one that it has taken at an earlier call.
-/

namespace SeeHandshake

open Lib

/-! ## The socket tables of an image -/

section Rows

variable {image : ProcImage} {k : SocketAddr × SocketAddr} {a b : SocketAddr} {row : SocketRow}

theorem readSockets_eq (image : ProcImage) :
    readSockets image = image.socketLines.foldl insertSocketLine ∅ := by
  unfold readSockets ProcImage.socketLines
  rw [List.foldl_flatMap]
  cases image.tcp <;> cases image.tcp6 <;> rfl

theorem readSockets_lookup (image : ProcImage) (k : SocketAddr × SocketAddr) :
    (readSockets image).lookup k = lastValue (socketOfLine k) image.socketLines := by
  rw [readSockets_eq, insertSocketLines_lookup, AList.lookup_empty, Option.or_none]

theorem socketOfLine_eq_some {line : List Char} :
    socketOfLine k line = some row ↔ parseSocketLine line = some (k, row) := by
  unfold socketOfLine
  cases parseSocketLine line with
  | none => exact iff_of_false (Option.some_ne_none row).symm (Option.some_ne_none (k, row)).symm
  | some e =>
    rw [Option.bind_some, Option.ite_none_right_eq_some, Option.some.injEq, Option.some.injEq]
    constructor
    · rintro ⟨hk, hrow⟩
      exact Prod.ext hk hrow
    · rintro rfl
      exact ⟨rfl, rfl⟩

theorem listsRow_of_lookup (h : (readSockets image).lookup k = some row) : image.ListsRow k row := by
  rw [readSockets_lookup] at h
  obtain ⟨line, hline, hrow⟩ := exists_of_lastValue h
  exact ⟨line, hline, socketOfLine_eq_some.mp hrow⟩

theorem lookup_of_listsRow (h : image.ListsRow k row) : (readSockets image).lookup k ≠ none := by
  obtain ⟨line, hline, hrow⟩ := h
  rw [readSockets_lookup]
  intro hnone
  have hskip := lastValue_eq_none_iff.mp hnone line hline
  rw [socketOfLine_eq_some.mpr hrow] at hskip
  cases hskip

/-- An established row that the kernel prints is listed. -/
theorem listsRow_of_tableText {header : List Char} {rows : List KernelRow} {r : KernelRow}
    (htcp : image.tcp = some (tableText header rows) ∨ image.tcp6 = some (tableText header rows))
    (hheader : '\n' ∉ header) (hr : r ∈ rows) (hstate : r.Established) : image.ListsRow r.key r.row := by
  have hline := mem_lines_tableText hheader hr
  refine ⟨stripCr r.text, ?_, by rw [r.parseSocketLine_text, if_pos hstate]⟩
  unfold ProcImage.socketLines
  rw [List.flatMap_cons, List.flatMap_cons, List.flatMap_nil, List.append_nil, List.mem_append]
  rcases htcp with htcp | htcp
  · refine .inl ?_
    rw [htcp]
    exact hline
  · refine .inr ?_
    rw [htcp]
    exact hline

/-- The row that is found for a flow is listed. -/
theorem listsFlow_of_row (h : (readSockets image).row a b = some row) : image.ListsFlow a b row := by
  rcases Option.or_eq_some_iff.mp h with h | ⟨-, h⟩
  · exact .inl (listsRow_of_lookup h)
  · exact .inr (listsRow_of_lookup h)

/-- A row is found for a flow if one is listed. -/
theorem row_eq_none_iff : (readSockets image).row a b = none ↔ ¬ ∃ row, image.ListsFlow a b row := by
  constructor
  · rintro h ⟨row, hrow | hrow⟩
    · exact lookup_of_listsRow hrow (Option.or_eq_none_iff.mp h).1
    · exact lookup_of_listsRow hrow (Option.or_eq_none_iff.mp h).2
  · intro h
    by_contra hne
    obtain ⟨row, hrow⟩ := Option.ne_none_iff_exists'.mp hne
    exact h ⟨row, listsFlow_of_row hrow⟩

end Rows

/-! ## One call -/

section Call

variable {m : Moment} {s : Snapshot} {a b : SocketAddr} {r r' : LinuxProcResolver} {o : Origin}

/-- A snapshot says that a flow is unknown when it has no row of it. -/
theorem Snapshot.origin_eq_unknown : s.origin a b = .unknown ↔ s.sockets.row a b = none := by
  unfold Snapshot.origin
  cases s.sockets.row a b with
  | none => exact iff_of_true rfl rfl
  | some row =>
    refine iff_of_false ?_ (Option.some_ne_none row)
    simp only
    cases s.procs.lookup row.inode with
    | none => exact Origin.noConfusion
    | some p => exact Origin.noConfusion

/-- What a snapshot is taken of. -/
theorem Snapshot.take_eq_ok :
    Snapshot.take m = .ok s ↔
      ∃ procs, readProcs m.image (readSockets m.image) = .ok procs ∧
        s = ⟨m.done, readSockets m.image, procs⟩ := by
  have htake : Snapshot.take m = (fun procs => (⟨m.done, readSockets m.image, procs⟩ : Snapshot)) <$>
      readProcs m.image (readSockets m.image) := by
    show (readProcs m.image (readSockets m.image)).bind _ = _
    cases readProcs m.image (readSockets m.image) <;> rfl
  rw [htake, Panicking.map_eq_ok_iff]

/-- A call without a snapshot to be trusted takes one. -/
theorem LinuxProcResolver.resolve_of_stale (h : r.stale m = true) :
    r.resolve m a b = (fun s => (s.origin a b, { r with cache := some s })) <$> Snapshot.take m := by
  unfold LinuxProcResolver.resolve LinuxProcResolver.snapshot
  rw [h]
  cases Snapshot.take m <;> rfl

/-- A call with a snapshot to be trusted answers from it. -/
theorem LinuxProcResolver.resolve_of_trusted (hcache : r.cache = some s) (h : r.stale m = false) :
    r.resolve m a b = .ok (s.origin a b, r) := by
  unfold LinuxProcResolver.resolve LinuxProcResolver.snapshot
  rw [h, hcache]
  rfl

theorem LinuxProcResolver.stale_new (m : Moment) : LinuxProcResolver.new.stale m = true := rfl

/-- A resolver that reads `/proc` answers from what it reads. -/
theorem LinuxProcResolver.resolve_eq_ok_of_stale (h : r.stale m = true) :
    r.resolve m a b = .ok (o, r') ↔
      ∃ s, Snapshot.take m = .ok s ∧ o = s.origin a b ∧ r' = { r with cache := some s } := by
  rw [resolve_of_stale h, Panicking.map_eq_ok_iff]
  simp only [Prod.mk.injEq]

/-- An answer of a resolver that reads `/proc` is not that the flow is unknown if a row of it is listed. -/
theorem LinuxProcResolver.known_of_stale (h : r.stale m = true) (hr : r.resolve m a b = .ok (o, r')) :
    o ≠ .unknown ↔ ∃ row, m.image.ListsFlow a b row := by
  obtain ⟨s, htake, rfl, -⟩ := (resolve_eq_ok_of_stale h).mp hr
  obtain ⟨procs, -, rfl⟩ := Snapshot.take_eq_ok.mp htake
  rw [Ne, Snapshot.origin_eq_unknown, row_eq_none_iff, not_not]

end Call

/-! ## The order of the endpoints -/

section Symmetry

variable {m : Moment} {s : Snapshot} {r : LinuxProcResolver}

/-- A snapshot gives the sockets of two rows one owner: their processes are the same, or neither has one and
their users are the same. -/
def Snapshot.SameOwner (s : Snapshot) (row row' : SocketRow) : Prop :=
  s.procs.lookup row.inode = s.procs.lookup row'.inode ∧
    (s.procs.lookup row.inode = none → row.uid = row'.uid)

/-- The owner of a socket. -/
def Snapshot.owner (s : Snapshot) (row : SocketRow) : Origin :=
  match s.procs.lookup row.inode with
  | some p => p.origin
  | none => .otherUser row.uid

theorem ProcRow.origin_injective {p p' : ProcRow} (h : p.origin = p'.origin) : p = p' := by
  have hp := Origin.localProcess.inj h
  rw [ProcessOrigin.mk.injEq, String.ofList_inj, String.ofList_inj] at hp
  obtain ⟨hpid, hcomm, hcmdline, huid⟩ := hp
  cases p
  cases p'
  rw [ProcRow.mk.injEq]
  exact ⟨hpid, hcomm, hcmdline, huid⟩

theorem Snapshot.owner_eq_iff (s : Snapshot) (row row' : SocketRow) :
    s.owner row = s.owner row' ↔ s.SameOwner row row' := by
  unfold Snapshot.owner Snapshot.SameOwner
  cases s.procs.lookup row.inode with
  | none =>
    cases s.procs.lookup row'.inode with
    | none => exact ⟨fun h => ⟨rfl, fun _ => Origin.otherUser.inj h⟩, fun h => congrArg _ (h.2 rfl)⟩
    | some p' => exact iff_of_false Origin.noConfusion fun h => Option.some_ne_none p' h.1.symm
  | some p =>
    cases s.procs.lookup row'.inode with
    | none => exact iff_of_false Origin.noConfusion fun h => Option.some_ne_none p h.1
    | some p' =>
      constructor
      · intro h
        exact ⟨congrArg some (ProcRow.origin_injective h), fun hnone => absurd hnone (Option.some_ne_none p)⟩
      · intro h
        exact congrArg ProcRow.origin (Option.some.inj h.1)

theorem Snapshot.origin_eq (s : Snapshot) (a b : SocketAddr) :
    s.origin a b = ((s.sockets.row a b).map s.owner).getD .unknown := by
  unfold Snapshot.origin Snapshot.owner
  cases s.sockets.row a b <;> rfl

/-- The order of the endpoints matters when both orders have rows and these have different owners. -/
theorem Snapshot.origin_comm_iff (s : Snapshot) (a b : SocketAddr) :
    s.origin a b = s.origin b a ↔
      ∀ row row', s.sockets.lookup (a, b) = some row → s.sockets.lookup (b, a) = some row' →
        s.SameOwner row row' := by
  rw [Snapshot.origin_eq, Snapshot.origin_eq, SocketTable.row, SocketTable.row]
  cases hab : s.sockets.lookup (a, b) with
  | none =>
    refine iff_of_true ?_ fun row row' h => by cases h
    rw [Option.none_or, Option.or_none]
  | some row =>
    cases hba : s.sockets.lookup (b, a) with
    | none => exact iff_of_true rfl fun row row' _ h => by cases h
    | some row' =>
      rw [Option.some_or, Option.some_or, Option.map_some, Option.map_some, Option.getD_some,
        Option.getD_some, s.owner_eq_iff]
      constructor
      · intro h row₁ row₂ h₁ h₂
        obtain rfl := Option.some.inj h₁
        obtain rfl := Option.some.inj h₂
        exact h
      · intro h
        exact h row row' rfl rfl

/-- Against one snapshot, both orders of the endpoints get one answer, unless both have rows, and these
different owners. -/
theorem LinuxProcResolver.resolve_comm_iff (hcache : r.cache = some s) (h : r.stale m = false)
    (a b : SocketAddr) :
    (∃ o, r.resolve m a b = .ok (o, r) ∧ r.resolve m b a = .ok (o, r)) ↔
      ∀ row row', s.sockets.lookup (a, b) = some row → s.sockets.lookup (b, a) = some row' →
        s.SameOwner row row' := by
  rw [← s.origin_comm_iff, resolve_of_trusted hcache h, resolve_of_trusted hcache h]
  constructor
  · rintro ⟨o, hab, hba⟩
    rw [Except.ok.injEq, Prod.mk.injEq] at hab hba
    rw [hab.1, hba.1]
  · intro hcomm
    exact ⟨s.origin a b, rfl, by rw [hcomm]⟩

end Symmetry

/-- A client and a server on one machine. -/
def loopbackSnapshot : Snapshot where
  takenAt := 0
  sockets :=
    AList.insert (⟨.v4 127 0 0 1, 0x1234⟩, ⟨.v4 127 0 0 1, 443⟩) ⟨99, 1000⟩
      (AList.insert (⟨.v4 127 0 0 1, 443⟩, ⟨.v4 127 0 0 1, 0x1234⟩) ⟨100, 0⟩ ∅)
  procs := AList.insert 99 ⟨4242, ['c', 'u', 'r', 'l'], ['c', 'u', 'r', 'l'], 1000⟩ ∅

/-- A process that talks to itself. -/
def selfSnapshot : Snapshot :=
  { loopbackSnapshot with
    procs :=
      AList.insert 99 ⟨4242, ['c', 'u', 'r', 'l'], ['c', 'u', 'r', 'l'], 1000⟩
        (AList.insert 100 ⟨4242, ['c', 'u', 'r', 'l'], ['c', 'u', 'r', 'l'], 1000⟩ ∅) }

/-- Both of its sockets have rows, and one owner. -/
theorem LinuxProcResolver.resolve_comm_iff_self :
    ∃ o, (⟨some selfSnapshot, fromMillis CACHE_TTL_MS⟩ : LinuxProcResolver).resolve
          ⟨0, ⟨none, none, none⟩, 0⟩ ⟨.v4 127 0 0 1, 0x1234⟩ ⟨.v4 127 0 0 1, 443⟩ =
        .ok (o, ⟨some selfSnapshot, fromMillis CACHE_TTL_MS⟩) ∧
      (⟨some selfSnapshot, fromMillis CACHE_TTL_MS⟩ : LinuxProcResolver).resolve
          ⟨0, ⟨none, none, none⟩, 0⟩ ⟨.v4 127 0 0 1, 443⟩ ⟨.v4 127 0 0 1, 0x1234⟩ =
        .ok (o, ⟨some selfSnapshot, fromMillis CACHE_TTL_MS⟩) := by
  refine (resolve_comm_iff rfl rfl _ _).mpr fun row row' hrow hrow' => ?_
  obtain rfl := Option.some.inj hrow
  obtain rfl := Option.some.inj hrow'
  exact ⟨rfl, fun hnone => by cases hnone⟩

/-- The client's socket belongs to the client in one order, and to the server in the other. -/
theorem LinuxProcResolver.resolve_not_comm_loopback :
    ¬ ∀ (s : Snapshot) (r : LinuxProcResolver) (m : Moment), r.cache = some s → r.stale m = false →
      ∀ a b, ∃ o, r.resolve m a b = .ok (o, r) ∧ r.resolve m b a = .ok (o, r) := by
  intro h
  obtain ⟨o, hab, hba⟩ := h loopbackSnapshot ⟨some loopbackSnapshot, fromMillis CACHE_TTL_MS⟩
    ⟨0, ⟨none, none, none⟩, 0⟩ rfl rfl ⟨.v4 127 0 0 1, 0x1234⟩ ⟨.v4 127 0 0 1, 443⟩
  have hclient := (Prod.mk.inj (Except.ok.inj hab)).1
  have hserver := (Prod.mk.inj (Except.ok.inj hba)).1
  rw [← hserver] at hclient
  exact absurd hclient (by decide)

/-! ## Calls over time -/

/-- A call of the resolver. -/
structure ResolveCall where
  moment : Moment
  a : SocketAddr
  b : SocketAddr

/-- The answers to a sequence of calls. -/
def LinuxProcResolver.run (r : LinuxProcResolver) :
    List ResolveCall → Panicking (List Origin × LinuxProcResolver)
  | [] => .ok ([], r)
  | c :: calls => do
    let (o, r) ← r.resolve c.moment c.a c.b
    let (answers, r) ← r.run calls
    return (o :: answers, r)

/-- `/proc` as an earlier call has read it counts for a call, and so does what the call itself reads. -/
def ResolveCall.Recent (c earlier : ResolveCall) : Prop :=
  earlier = c ∨ c.moment.now - earlier.moment.done < fromMillis CACHE_TTL_MS

section Runs

variable {past calls : List ResolveCall} {c : ResolveCall} {r r' : LinuxProcResolver} {o : Origin}
  {answers : List Origin}

/-- The invariant of the cache: its snapshot is one that a call has taken. -/
structure CachedFrom (past : List ResolveCall) (r : LinuxProcResolver) : Prop where
  ttl : r.ttl = fromMillis CACHE_TTL_MS
  cache : ∀ s, r.cache = some s → ∃ c ∈ past, Snapshot.take c.moment = .ok s

theorem cachedFrom_new : CachedFrom [] LinuxProcResolver.new := ⟨rfl, fun s h => by cases h⟩

/-- One call: it answers from what a recent call has read, and keeps the invariant. -/
theorem CachedFrom.resolve (hr : CachedFrom past r) (h : r.resolve c.moment c.a c.b = .ok (o, r')) :
    CachedFrom (past ++ [c]) r' ∧
      ∃ c' ∈ past ++ [c], c.Recent c' ∧ ∃ s, Snapshot.take c'.moment = .ok s ∧ o = s.origin c.a c.b := by
  have hlast : c ∈ past ++ [c] := List.mem_append_right past (List.mem_singleton_self c)
  cases hstale : r.stale c.moment with
  | true =>
    obtain ⟨s, htake, rfl, rfl⟩ := (LinuxProcResolver.resolve_eq_ok_of_stale hstale).mp h
    refine ⟨⟨hr.ttl, fun s' hs' => ?_⟩, c, hlast, .inl rfl, s, htake, rfl⟩
    obtain rfl := Option.some.inj hs'
    exact ⟨c, hlast, htake⟩
  | false =>
    cases hcache : r.cache with
    | none =>
      have htrue : r.stale c.moment = true := by rw [LinuxProcResolver.stale, hcache]
      rw [htrue] at hstale
      cases hstale
    | some s =>
      rw [LinuxProcResolver.resolve_of_trusted hcache hstale] at h
      cases h
      obtain ⟨c', hc', htake⟩ := hr.cache s hcache
      have hmem : c' ∈ past ++ [c] := List.mem_append_left [c] hc'
      -- The snapshot was taken when that call had read `/proc`.
      have htaken : s.takenAt = c'.moment.done := by
        obtain ⟨procs, -, rfl⟩ := Snapshot.take_eq_ok.mp htake
        rfl
      have hrecent : c.moment.now - c'.moment.done < fromMillis CACHE_TTL_MS := by
        rw [LinuxProcResolver.stale, hcache] at hstale
        have hage := of_decide_eq_false hstale
        rw [hr.ttl, htaken] at hage
        exact Nat.lt_of_not_le hage
      refine ⟨⟨hr.ttl, fun s' hs' => ?_⟩, c', hmem, .inr hrecent, s, htake, rfl⟩
      obtain ⟨c'', hc'', htake'⟩ := hr.cache s' hs'
      exact ⟨c'', List.mem_append_left [c] hc'', htake'⟩

/-- A run keeps the invariant. -/
theorem CachedFrom.run (hr : CachedFrom past r) (h : r.run calls = .ok (answers, r')) :
    CachedFrom (past ++ calls) r' := by
  induction calls generalizing past r answers with
  | nil =>
    cases h
    rw [List.append_nil]
    exact hr
  | cons c calls ih =>
    rw [LinuxProcResolver.run] at h
    cases hstep : r.resolve c.moment c.a c.b with
    | error e =>
      rw [hstep] at h
      cases h
    | ok p =>
      obtain ⟨o, r₁⟩ := p
      rw [hstep, Panicking.ok_bind] at h
      cases hrest : r₁.run calls with
      | error e =>
        simp only [hrest] at h
        cases h
      | ok q =>
        simp only [hrest] at h
        cases h
        have htail := ih (hr.resolve hstep).1 hrest
        rw [List.append_assoc, List.singleton_append] at htail
        exact htail

/-- After any calls, the answer is the one of a resolver without a cache, at this call or at an earlier one
whose reading is not older than the cache may be; and so the flow is not unknown if all these calls see a row
of it. -/
theorem LinuxProcResolver.resolve_recent (hrun : LinuxProcResolver.new.run past = .ok (answers, r))
    (h : r.resolve c.moment c.a c.b = .ok (o, r')) :
    (∃ c' ∈ past ++ [c], c.Recent c' ∧
        ∃ r'', LinuxProcResolver.new.resolve c'.moment c.a c.b = .ok (o, r'')) ∧
      ((∀ c' ∈ past ++ [c], c.Recent c' → ∃ row, c'.moment.image.ListsFlow c.a c.b row) → o ≠ .unknown) := by
  have hcached := cachedFrom_new.run hrun
  rw [List.nil_append] at hcached
  obtain ⟨-, c', hc', hrecent, s, htake, rfl⟩ := hcached.resolve h
  have hfresh := (resolve_eq_ok_of_stale (a := c.a) (b := c.b) (stale_new c'.moment)).mpr
    ⟨s, htake, rfl, rfl⟩
  refine ⟨⟨c', hc', hrecent, _, hfresh⟩, fun hlisted => ?_⟩
  exact (known_of_stale (stale_new c'.moment) hfresh).mpr (hlisted c' hc' hrecent)

end Runs

/-- A table with one established socket, and no process that can be read. -/
def oneSocketImage : ProcImage where
  tcp := some (tableText [] [.plain (⟨.v4 10 0 0 1, 0x1234⟩, ⟨.v4 10 0 0 2, 443⟩) 1 ⟨99, 1000⟩])
  tcp6 := none
  entries := none

theorem oneSocketImage_lists :
    ∃ row, oneSocketImage.ListsFlow ⟨.v4 10 0 0 1, 0x1234⟩ ⟨.v4 10 0 0 2, 443⟩ row := by
  have hstate : (KernelRow.plain (⟨.v4 10 0 0 1, 0x1234⟩, ⟨.v4 10 0 0 2, 443⟩) 1 ⟨99, 1000⟩).Established := rfl
  exact ⟨_, .inl (listsRow_of_tableText (.inl rfl) List.not_mem_nil (List.mem_singleton_self _) hstate)⟩

/-- Two calls, a tenth of a second apart, that both see the socket. -/
theorem LinuxProcResolver.resolve_recent_two_calls :
    Snapshot.origin ⟨0, readSockets oneSocketImage, ∅⟩ ⟨.v4 10 0 0 1, 0x1234⟩ ⟨.v4 10 0 0 2, 443⟩ ≠
      .unknown := by
  have hanswer := @resolve_recent
    [⟨⟨0, oneSocketImage, 0⟩, ⟨.v4 10 0 0 1, 0x1234⟩, ⟨.v4 10 0 0 2, 80⟩⟩]
    ⟨⟨fromMillis 100, oneSocketImage, fromMillis 100⟩, ⟨.v4 10 0 0 1, 0x1234⟩, ⟨.v4 10 0 0 2, 443⟩⟩
    _ _ _ _ rfl rfl
  refine hanswer.2 fun c' hc' _ => ?_
  rcases List.mem_cons.mp hc' with rfl | hc'
  · exact oneSocketImage_lists
  · obtain rfl := List.mem_singleton.mp hc'
    exact oneSocketImage_lists

/-- A flow that begins a tenth of a second after a call for another one. -/
theorem LinuxProcResolver.resolve_misses_new_flow :
    ¬ ∀ (past : List ResolveCall) (answers : List Origin) (r r' : LinuxProcResolver) (c : ResolveCall)
      (o : Origin), LinuxProcResolver.new.run past = .ok (answers, r) → r.resolve c.moment c.a c.b = .ok (o, r') →
        (∃ row, c.moment.image.ListsFlow c.a c.b row) → o ≠ .unknown := by
  intro h
  exact h [⟨⟨0, ⟨none, none, none⟩, 0⟩, ⟨.v4 10 0 0 1, 0x1233⟩, ⟨.v4 10 0 0 2, 80⟩⟩] _ _ _
    ⟨⟨fromMillis 100, oneSocketImage, fromMillis 100⟩, ⟨.v4 10 0 0 1, 0x1234⟩, ⟨.v4 10 0 0 2, 443⟩⟩ _
    rfl rfl oneSocketImage_lists rfl

end SeeHandshake

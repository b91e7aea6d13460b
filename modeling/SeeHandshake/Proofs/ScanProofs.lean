import SeeHandshake.Origin.Scan

/-!
# The search for the processes

`readProcs` leaves both of its loops when no inode is wanted any more. It finds what the search through all
links finds: for each inode of the socket table the process of the first link to it.
-/

namespace SeeHandshake

open Lib

/-! ## The loops -/

/-- The turn of a descriptor: it visits the link, and leaves the loop if nothing is wanted any more. -/
theorem fdTurn_eq (pid : UInt32) (fd : FdEntry) (scan : Worklist UInt64 ProcRow) :
    fdTurn pid fd scan = ForInStep.yield <$> scan.visit Link.inode Link.proc ⟨pid, fd⟩ ∨
      fdTurn pid fd scan = ForInStep.done <$> scan.visit Link.inode Link.proc ⟨pid, fd⟩ ∧
        ∀ scan', scan.visit Link.inode Link.proc ⟨pid, fd⟩ = .ok scan' → scan'.wanted = ∅ := by
  unfold fdTurn Worklist.visit Link.inode Link.proc
  cases htarget : fd.target with
  | none => exact .inl rfl
  | some target =>
    simp only [Option.bind_some]
    cases hinode : socketInodeFromLink target with
    | none => exact .inl rfl
    | some inode =>
      simp only
      by_cases hwanted : inode ∈ scan.wanted
      · rw [if_neg (not_not_intro hwanted), if_pos hwanted]
        cases readProc pid fd.files with
        | error e => exact .inl rfl
        | ok row =>
          by_cases hempty : scan.wanted.erase inode = ∅
          · refine .inr ⟨?_, ?_⟩
            · show (if scan.wanted.erase inode = ∅ then _ else _) = _
              rw [if_pos hempty]
              rfl
            · rintro scan' h
              cases h
              exact hempty
          · refine .inl ?_
            show (if scan.wanted.erase inode = ∅ then _ else _) = _
            rw [if_neg hempty]
            rfl
      · rw [if_pos hwanted, if_neg hwanted]
        exact .inl rfl

theorem forIn_fdTurn (pid : UInt32) (fds : List FdEntry) (scan : Worklist UInt64 ProcRow) :
    forIn fds scan (fdTurn pid) =
      (fds.map (Link.mk pid)).foldlM (Worklist.visit Link.inode Link.proc) scan := by
  have hsettled (s : Worklist UInt64 ProcRow) (fd : FdEntry) (hs : s.wanted = ∅) :
      s.visit Link.inode Link.proc ⟨pid, fd⟩ = .ok s := Worklist.visit_of_empty hs _
  rw [List.foldlM_map]
  exact forIn_eq_foldlM_of_exits hsettled (fdTurn_eq pid) fds scan

/-- The links of an entry, when nothing is wanted. -/
theorem foldlM_visit_of_empty {scan : Worklist UInt64 ProcRow} (h : scan.wanted = ∅) (links : List Link) :
    links.foldlM (Worklist.visit Link.inode Link.proc) scan = .ok scan := by
  have hsettled (s : Worklist UInt64 ProcRow) (l : Link) (hs : s.wanted = ∅) :
      s.visit Link.inode Link.proc l = .ok s := Worklist.visit_of_empty hs l
  exact foldlM_of_settled hsettled h links

/-- The turn of an entry: it visits the links of the entry, unless nothing is wanted any more. -/
theorem procTurn_eq (e : ProcEntry) (scan : Worklist UInt64 ProcRow) :
    procTurn e scan =
        ForInStep.yield <$> e.links.foldlM (Worklist.visit Link.inode Link.proc) scan ∨
      procTurn e scan =
          ForInStep.done <$> e.links.foldlM (Worklist.visit Link.inode Link.proc) scan ∧
        ∀ scan', e.links.foldlM (Worklist.visit Link.inode Link.proc) scan = .ok scan' →
          scan'.wanted = ∅ := by
  by_cases hempty : scan.wanted = ∅
  · have hvisit := foldlM_visit_of_empty hempty e.links
    refine .inr ⟨?_, ?_⟩
    · rw [hvisit, procTurn, if_pos hempty]
      rfl
    · intro scan' h
      rw [hvisit] at h
      cases h
      exact hempty
  · refine .inl ?_
    unfold procTurn ProcEntry.links
    rw [if_neg hempty]
    cases hname : e.name with
    | none => rfl
    | some name =>
      simp only [Option.bind_some]
      cases hpid : parseU32 name with
      | none => rfl
      | some pid =>
        cases hfd : e.fd with
        | none => rfl
        | some fds =>
          simp only [forIn_fdTurn]
          rfl

theorem forIn_procTurn (entries : List ProcEntry) (scan : Worklist UInt64 ProcRow) :
    forIn entries scan procTurn =
      (entries.flatMap ProcEntry.links).foldlM (Worklist.visit Link.inode Link.proc) scan := by
  have hsettled (s : Worklist UInt64 ProcRow) (e : ProcEntry) (hs : s.wanted = ∅) :
      e.links.foldlM (Worklist.visit Link.inode Link.proc) s = .ok s := foldlM_visit_of_empty hs e.links
  rw [forIn_eq_foldlM_of_exits hsettled procTurn_eq entries scan]
  induction entries generalizing scan with
  | nil => rfl
  | cons e entries ih =>
    rw [List.foldlM_cons, List.flatMap_cons, List.foldlM_append]
    exact congrArg _ (funext ih)

/-! ## The search -/

section Search

variable {image : ProcImage} {sockets : SocketTable} {procs : ProcTable} {inode : UInt64}

/-- The worklist only saves time. -/
theorem readProcs_eq (image : ProcImage) (sockets : SocketTable) :
    readProcs image sockets = fullScan image sockets := by
  unfold readProcs fullScan ProcImage.links
  cases image.entries with
  | none => rfl
  | some entries =>
    simp only [Option.getD_some]
    rw [forIn_procTurn, ← Worklist.after_empty, foldlM_visit]
    cases (entries.flatMap ProcEntry.links).foldlM (keepFirst Link.inode Link.proc sockets.inodes) ∅ <;> rfl

theorem SocketTable.mem_inodes : inode ∈ sockets.inodes ↔ ∃ k row, sockets.lookup k = some row ∧
    row.inode = inode := by
  rw [SocketTable.inodes, List.mem_toFinset, List.mem_map]
  constructor
  · rintro ⟨⟨k, row⟩, he, rfl⟩
    exact ⟨k, row, AList.mem_lookup_iff.mpr he, rfl⟩
  · rintro ⟨k, row, hrow, rfl⟩
    exact ⟨⟨k, row⟩, AList.mem_lookup_iff.mp hrow, rfl⟩

theorem firstOf_of_mem (image : ProcImage) (h : inode ∈ sockets.inodes) :
    firstOf Link.inode sockets.inodes image.links inode = image.firstLink inode := if_pos h

/-- What a search that ends has found. -/
theorem readProcs_lookup (h : readProcs image sockets = .ok procs) (row : ProcRow) :
    procs.lookup inode = some row ↔
      inode ∈ sockets.inodes ∧ ∃ l, image.firstLink inode = some l ∧ l.proc = .ok row := by
  rw [readProcs_eq] at h
  have hlookup := foldlM_keepFirst_lookup h (AList.notMem_empty inode)
  by_cases hin : inode ∈ sockets.inodes
  · rw [firstOf_of_mem image hin] at hlookup
    rw [and_iff_right hin]
    cases hfirst : image.firstLink inode with
    | none =>
      rw [hfirst, Option.map_none, eq_comm, Option.map_eq_none_iff] at hlookup
      rw [hlookup]
      exact iff_of_false (Option.some_ne_none row).symm fun ⟨l, hl, _⟩ => Option.some_ne_none l hl.symm
    | some l =>
      rw [hfirst, Option.map_some, eq_comm, Option.map_eq_some_iff] at hlookup
      obtain ⟨row', hrow', hproc⟩ := hlookup
      rw [hrow']
      constructor
      · intro hrow
        obtain rfl := Option.some.inj hrow
        exact ⟨l, rfl, hproc.symm⟩
      · rintro ⟨l', hl, hrow⟩
        obtain rfl := Option.some.inj hl
        rw [Except.ok.inj (hproc.trans hrow)]
  · rw [firstOf_of_notMem hin, Option.map_none, eq_comm, Option.map_eq_none_iff] at hlookup
    rw [hlookup]
    exact iff_of_false (Option.some_ne_none row).symm fun hand => hin hand.1

/-- The search ends unless a process panics that it keeps. -/
theorem readProcs_iff :
    (∃ procs, readProcs image sockets = .ok procs) ↔
      ∀ inode ∈ sockets.inodes, ∀ l, image.firstLink inode = some l → ∃ row, l.proc = .ok row := by
  rw [readProcs_eq, fullScan, foldlM_keepFirst_iff]
  constructor
  · intro h inode hin l hl
    exact h inode l (AList.notMem_empty inode) (by rw [firstOf_of_mem image hin, hl])
  · intro h inode l _ hl
    obtain ⟨hin, -⟩ := firstOf_eq_some hl
    rw [firstOf_of_mem image hin] at hl
    exact h inode hin l hl

/-- The search with early exits is the search through all links: for each inode of the socket table it finds
the process of the first link, and no other inode. -/
theorem readProcs_finds_first (image : ProcImage) (sockets : SocketTable) :
    readProcs image sockets = fullScan image sockets ∧
      ∀ procs, readProcs image sockets = .ok procs → ∀ inode row,
        procs.lookup inode = some row ↔
          inode ∈ sockets.inodes ∧ ∃ l, image.firstLink inode = some l ∧ l.proc = .ok row :=
  ⟨readProcs_eq image sockets, fun _ h _ => readProcs_lookup h⟩

end Search

/-- Two processes that share a socket, behind a directory that is no process. -/
def sharedImage : ProcImage where
  tcp := none
  tcp6 := none
  entries := some
    [⟨some ['n', 'e', 't'], none⟩,
      ⟨some ['1', '0'], some [⟨some "pipe:[99]".toList, ⟨none, none, none⟩⟩,
        ⟨some "socket:[99]".toList, ⟨none, none, none⟩⟩]⟩,
      ⟨some ['2', '0'], some [⟨some "socket:[99]".toList, ⟨none, none, none⟩⟩]⟩]

theorem readProcs_finds_first_shared :
    ∃ procs, readProcs sharedImage
        (AList.insert (⟨.v4 10 0 0 1, 0x1234⟩, ⟨.v4 10 0 0 2, 443⟩) ⟨99, 1000⟩ ∅) = .ok procs ∧
      procs.lookup 99 = some ⟨10, [], [], 0⟩ := by
  have hreturns : ∃ procs, readProcs sharedImage
      (AList.insert (⟨.v4 10 0 0 1, 0x1234⟩, ⟨.v4 10 0 0 2, 443⟩) ⟨99, 1000⟩ ∅) = .ok procs := ⟨_, rfl⟩
  obtain ⟨procs, hprocs⟩ := hreturns
  exact ⟨procs, hprocs,
    ((readProcs_finds_first _ _).2 procs hprocs 99 _).mpr ⟨by decide, _, rfl, rfl⟩⟩

end SeeHandshake

import SeeHandshake.Origin.Kernel
import SeeHandshake.Proofs.CmdlineProofs
import SeeHandshake.Proofs.ResolverProofs
import SeeHandshake.Proofs.ScanProofs

/-!
# What the resolver attributes

The answers of a resolver that reads `/proc`, against what `/proc` lists: IPv4 flows of IPv6 sockets, and
the owners of sockets when files are missing.
-/

namespace SeeHandshake

open Lib

/-! ## IPv4 flows of IPv6 sockets -/

section DualStack

variable {image : ProcImage} {a b : SocketAddr}

/-- The keys of the socket tables are the addresses as they are printed, so that no row of the flow is
listed under its IPv4 addresses. -/
theorem DualStackOnly.not_listed (h : DualStackOnly image a b) : ¬ ∃ row, image.ListsFlow a b row := by
  -- A line of either order is in neither table.
  have horder (k : SocketAddr × SocketAddr) (hv4 : k.1.ip.isV4 = true)
      (htcp : ∀ text, image.tcp = some text → ∀ line ∈ (lines text).drop 1, ∀ row,
        parseSocketLine line ≠ some (k, row)) (row : SocketRow) : ¬ image.ListsRow k row := by
    rintro ⟨line, hline, hrow⟩
    unfold ProcImage.socketLines at hline
    rw [List.flatMap_cons, List.flatMap_cons, List.flatMap_nil, List.append_nil, List.mem_append] at hline
    rcases hline with hline | hline
    · cases himage : image.tcp with
      | none =>
        rw [himage] at hline
        exact absurd hline List.not_mem_nil
      | some text =>
        rw [himage] at hline
        exact htcp text himage line hline row hrow
    · obtain ⟨header, rows, hheader, himage, hv6, -⟩ := h.tcp6
      rw [himage, Option.getD_some] at hline
      obtain ⟨r, hr, -, rfl, -⟩ := exists_row_of_mem_lines hheader hline hrow
      have hfalse : r.localAddress.ip.isV4 = false := (hv6 r hr).1
      exact Bool.false_ne_true (hfalse.symm.trans hv4)
  rintro ⟨row, hrow | hrow⟩
  · exact horder (a, b) h.v4.1 (fun text ht line hl row => (h.not_tcp text ht line hl row).1) row hrow
  · exact horder (b, a) h.v4.2 (fun text ht line hl row => (h.not_tcp text ht line hl row).2) row hrow

/-- An IPv4 flow of an IPv6 socket is never found. -/
theorem LinuxProcResolver.resolve_dualStack (r : LinuxProcResolver) {m : Moment} (hr : r.stale m = true)
    (h : DualStackOnly m.image a b) : ¬ ∃ o r', r.resolve m a b = .ok (o, r') ∧ o ≠ .unknown := by
  rintro ⟨o, r', hresolve, hknown⟩
  exact h.not_listed ((known_of_stale hr hresolve).mp hknown)

end DualStack

/-- A connection of an IPv6 socket of a browser to an IPv4 server. -/
def dualStackImage : ProcImage where
  tcp := none
  tcp6 := some (tableText []
    [.plain ((⟨.v4 10 0 0 1, 0x1234⟩ : SocketAddr).mapped, (⟨.v4 10 0 0 2, 443⟩ : SocketAddr).mapped) 1
      ⟨99, 1000⟩])
  entries := none

theorem dualStackImage_only : DualStackOnly dualStackImage ⟨.v4 10 0 0 1, 0x1234⟩ ⟨.v4 10 0 0 2, 443⟩ where
  v4 := ⟨rfl, rfl⟩
  not_tcp text h := by cases h
  tcp6 := by
    refine ⟨[], _, List.not_mem_nil, rfl, ?_, _, List.mem_singleton_self _, rfl, .inl rfl⟩
    intro r hr
    obtain rfl := List.mem_singleton.mp hr
    exact ⟨rfl, rfl⟩

theorem LinuxProcResolver.resolve_dualStack_browser :
    ¬ ∃ o r', LinuxProcResolver.new.resolve ⟨0, dualStackImage, 0⟩ ⟨.v4 10 0 0 1, 0x1234⟩
      ⟨.v4 10 0 0 2, 443⟩ = .ok (o, r') ∧ o ≠ .unknown :=
  resolve_dualStack _ rfl dualStackImage_only

/-- The browser's connection is not attributed to it. -/
theorem LinuxProcResolver.resolve_misses_dualStack :
    ¬ ∀ (image : ProcImage) (a b : SocketAddr), DualStackOnly image a b →
      ∃ o r', LinuxProcResolver.new.resolve ⟨0, image, 0⟩ a b = .ok (o, r') ∧ o ≠ .unknown := by
  intro h
  obtain ⟨o, r', hresolve, hknown⟩ := h _ _ _ dualStackImage_only
  exact dualStackImage_only.not_listed ((known_of_stale (stale_new _) hresolve).mp hknown)

/-! ## Owners -/

/-- The row that counts for a pair of endpoints: the last one that is listed. -/
def ProcImage.lastRow (image : ProcImage) (k : SocketAddr × SocketAddr) : Option SocketRow :=
  lastValue (socketOfLine k) image.socketLines

/-- A process has a descriptor of the socket of a row. -/
def Link.Holds (l : Link) (row : SocketRow) : Prop := l.inode = some row.inode

/-- A process holds the socket of a row of the flow, and its status file or the row tells that its user is
`uid`. -/
def ProcImage.TellsUid (image : ProcImage) (a b : SocketAddr) (pid uid : UInt32) : Prop :=
  ∃ row, image.ListsFlow a b row ∧ ∃ l ∈ image.links, l.pid = pid ∧ l.Holds row ∧
    (readUid l.fd.files.status = some uid ∨ uid = row.uid)

/-- An answer says no more than `/proc` does: unknown, if no row of the flow is listed; another user, if it is
the one of a row whose socket no process holds; and a process with its user, if `/proc` tells so. -/
structure Attributes (image : ProcImage) (a b : SocketAddr) (o : Origin) : Prop where
  unknown : o = .unknown ↔ ¬ ∃ row, image.ListsFlow a b row
  otherUser : ∀ uid, o = .otherUser uid → ∃ row, image.ListsFlow a b row ∧ row.uid = uid ∧
    ∀ l ∈ image.links, ¬ l.Holds row
  localProcess : ∀ p, o = .localProcess p → image.TellsUid a b p.pid p.uid

/-- The search reads a command line that it cannot cut: that of the first process that holds some socket of
the tables. -/
def ProcImage.ReadsStraddling (image : ProcImage) : Prop :=
  ∃ k row l, image.lastRow k = some row ∧ image.firstLink row.inode = some l ∧
    Straddles (l.fd.files.cmdline.getD [])

/-- The first process that holds the flow's socket has no status file that tells its user, and nothing else
tells that it is root's. -/
def ProcImage.InventsUid (image : ProcImage) (a b : SocketAddr) : Prop :=
  ∃ row l, (image.lastRow (a, b)).or (image.lastRow (b, a)) = some row ∧
    image.firstLink row.inode = some l ∧ readUid l.fd.files.status = none ∧ ¬ image.TellsUid a b l.pid 0

section Owners

variable {image : ProcImage} {a b : SocketAddr} {l : Link} {p : ProcRow} {m : Moment} {o : Origin}
  {r' : LinuxProcResolver}

/-- A process as it is read: its user is that of its status file, or 0. -/
theorem Link.proc_eq_ok (h : l.proc = .ok p) :
    p.pid = l.pid ∧ p.uid = (readUid l.fd.files.status).getD 0 := by
  unfold Link.proc readProc at h
  cases hcmdline : readCmdline l.fd.files.cmdline with
  | error e =>
    simp only [hcmdline] at h
    cases h
  | ok cmdline =>
    simp only [hcmdline] at h
    cases h
    exact ⟨rfl, rfl⟩

theorem Link.proc_iff : (∃ p, l.proc = .ok p) ↔ ¬ Straddles (l.fd.files.cmdline.getD []) := by
  have hread : readCmdline l.fd.files.cmdline = readCmdline (some (l.fd.files.cmdline.getD [])) := by
    cases l.fd.files.cmdline <;> rfl
  unfold Link.proc readProc
  constructor
  · rintro ⟨p, h⟩ hstraddles
    simp only [hread, readCmdline_panics hstraddles] at h
    cases h
  · intro h
    obtain ⟨shown, hok, -⟩ := readCmdline_ok h
    simp only [hread, hok]
    exact ⟨_, rfl⟩

theorem row_eq_lastRow (image : ProcImage) (a b : SocketAddr) :
    (readSockets image).row a b = (image.lastRow (a, b)).or (image.lastRow (b, a)) := by
  rw [SocketTable.row, readSockets_lookup, readSockets_lookup]
  rfl

theorem mem_inodes_of_row {row : SocketRow} (h : (readSockets image).row a b = some row) :
    row.inode ∈ (readSockets image).inodes := by
  rcases Option.or_eq_some_iff.mp h with h | ⟨-, h⟩
  · exact SocketTable.mem_inodes.mpr ⟨_, row, h, rfl⟩
  · exact SocketTable.mem_inodes.mpr ⟨_, row, h, rfl⟩

/-- A call returns unless it reads `/proc` and cannot cut a command line. -/
theorem LinuxProcResolver.resolve_returns_iff (r : LinuxProcResolver) (m : Moment) (a b : SocketAddr) :
    (∃ o r', r.resolve m a b = .ok (o, r')) ↔ ¬ (r.stale m = true ∧ m.image.ReadsStraddling) := by
  cases hstale : r.stale m with
  | false =>
    refine iff_of_true ?_ fun h => Bool.false_ne_true h.1
    cases hcache : r.cache with
    | none =>
      unfold LinuxProcResolver.stale at hstale
      rw [hcache] at hstale
      cases hstale
    | some snap => exact ⟨_, _, resolve_of_trusted hcache hstale⟩
  | true =>
    have hreturns : (∃ o r', r.resolve m a b = .ok (o, r')) ↔
        ∃ procs, readProcs m.image (readSockets m.image) = .ok procs := by
      simp only [resolve_eq_ok_of_stale hstale, Snapshot.take_eq_ok]
      constructor
      · rintro ⟨o, r', s, ⟨procs, hprocs, -⟩, -, -⟩
        exact ⟨procs, hprocs⟩
      · rintro ⟨procs, hprocs⟩
        exact ⟨_, _, _, ⟨procs, hprocs, rfl⟩, rfl, rfl⟩
    rw [hreturns, readProcs_iff, and_iff_right rfl]
    constructor
    · rintro h ⟨k, row, l, hrow, hl, hstraddles⟩
      have hin : row.inode ∈ (readSockets m.image).inodes :=
        SocketTable.mem_inodes.mpr ⟨k, row, by rw [readSockets_lookup]; exact hrow, rfl⟩
      exact Link.proc_iff.mp (h row.inode hin l hl) hstraddles
    · intro h inode hin l hl
      obtain ⟨k, row, hrow, rfl⟩ := SocketTable.mem_inodes.mp hin
      rw [readSockets_lookup] at hrow
      exact Link.proc_iff.mpr fun hstraddles => h ⟨k, row, l, hrow, hl, hstraddles⟩

/-- An answer that is read from `/proc`, by the cases of what is found: no row, no process, the process of
the first link. -/
theorem LinuxProcResolver.resolve_new_cases (h : LinuxProcResolver.new.resolve m a b = .ok (o, r')) :
    ((readSockets m.image).row a b = none ∧ o = .unknown) ∨
      ∃ row, (readSockets m.image).row a b = some row ∧
        (m.image.firstLink row.inode = none ∧ o = .otherUser row.uid ∨
          ∃ l p, m.image.firstLink row.inode = some l ∧ l.proc = .ok p ∧ o = p.origin) := by
  obtain ⟨s, htake, rfl, -⟩ := (resolve_eq_ok_of_stale (stale_new m)).mp h
  obtain ⟨procs, hprocs, rfl⟩ := Snapshot.take_eq_ok.mp htake
  unfold Snapshot.origin
  cases hrow : (readSockets m.image).row a b with
  | none => exact .inl ⟨rfl, rfl⟩
  | some row =>
    have hin := mem_inodes_of_row hrow
    refine .inr ⟨row, rfl, ?_⟩
    simp only
    cases hproc : procs.lookup row.inode with
    | none =>
      refine .inl ⟨?_, rfl⟩
      by_contra hne
      obtain ⟨l, hl⟩ := Option.ne_none_iff_exists'.mp hne
      obtain ⟨p, hp⟩ := readProcs_iff.mp ⟨procs, hprocs⟩ row.inode hin l hl
      have hfound := (readProcs_lookup hprocs p).mpr ⟨hin, l, hl, hp⟩
      rw [hproc] at hfound
      cases hfound
    | some p =>
      obtain ⟨-, l, hl, hp⟩ := (readProcs_lookup hprocs p).mp hproc
      exact .inr ⟨l, p, hl, hp, rfl⟩

/-- A link that is found first is listed, and leads to the inode. -/
theorem firstLink_eq_some {inode : UInt64} (h : image.firstLink inode = some l) :
    l ∈ image.links ∧ l.inode = some inode := by
  have hinode : decide (l.inode = some inode) = true :=
    List.find?_some (p := fun l' : Link => decide (l'.inode = some inode)) h
  exact ⟨List.mem_of_find?_eq_some h, of_decide_eq_true hinode⟩

theorem firstLink_eq_none {inode : UInt64} (h : image.firstLink inode = none) (hl : l ∈ image.links) :
    l.inode ≠ some inode := by
  intro hinode
  exact List.find?_eq_none.mp h l hl (decide_eq_true hinode)

theorem ProcImage.not_inventsUid_of_row (h : (readSockets image).row a b = none) :
    ¬ image.InventsUid a b := by
  rintro ⟨row, l, hrow, -⟩
  rw [← row_eq_lastRow, h] at hrow
  cases hrow

theorem ProcImage.inventsUid_iff {row : SocketRow} (h : (readSockets image).row a b = some row) :
    image.InventsUid a b ↔ ∃ l, image.firstLink row.inode = some l ∧ readUid l.fd.files.status = none ∧
      ¬ image.TellsUid a b l.pid 0 := by
  unfold ProcImage.InventsUid
  rw [← row_eq_lastRow, h]
  constructor
  · rintro ⟨row', l, hrow, hinvents⟩
    obtain rfl := Option.some.inj hrow
    exact ⟨l, hinvents⟩
  · rintro ⟨l, hinvents⟩
    exact ⟨row, l, rfl, hinvents⟩

/-- The process of the first link is told by `/proc`, unless its user is invented. -/
theorem tellsUid_iff {row : SocketRow} (hrow : (readSockets image).row a b = some row)
    (hfirst : image.firstLink row.inode = some l) (hp : l.proc = .ok p) :
    image.TellsUid a b p.pid p.uid ↔ ¬ image.InventsUid a b := by
  obtain ⟨hmem, hinode⟩ := firstLink_eq_some hfirst
  obtain ⟨hpid, huid⟩ := Link.proc_eq_ok hp
  rw [ProcImage.inventsUid_iff hrow, hpid, huid]
  cases hstatus : readUid l.fd.files.status with
  | some uid =>
    refine iff_of_true ⟨row, listsFlow_of_row hrow, l, hmem, rfl, hinode, .inl hstatus⟩ ?_
    rintro ⟨l', hl', hnone, -⟩
    rw [hfirst] at hl'
    obtain rfl := Option.some.inj hl'
    rw [hstatus] at hnone
    cases hnone
  | none =>
    rw [Option.getD_none]
    constructor
    · rintro htells ⟨l', hl', -, hno⟩
      rw [hfirst] at hl'
      obtain rfl := Option.some.inj hl'
      exact hno htells
    · intro hno
      by_contra htells
      exact hno ⟨l, hfirst, hstatus, htells⟩

/-- An answer says no more than `/proc` does, unless it invents the user of a process. -/
theorem attributes_iff (h : LinuxProcResolver.new.resolve m a b = .ok (o, r')) :
    Attributes m.image a b o ↔ ¬ m.image.InventsUid a b := by
  have hunknown : o = .unknown ↔ ¬ ∃ row, m.image.ListsFlow a b row := by
    rw [← LinuxProcResolver.known_of_stale (LinuxProcResolver.stale_new m) h, not_not]
  rcases LinuxProcResolver.resolve_new_cases h with ⟨hrow, rfl⟩ | ⟨row, hrow, hfound⟩
  · refine iff_of_true ⟨hunknown, ?_, ?_⟩ (ProcImage.not_inventsUid_of_row hrow)
    · intro uid huid
      cases huid
    · intro p hp
      cases hp
  rcases hfound with ⟨hfirst, rfl⟩ | ⟨l, p, hfirst, hp, rfl⟩
  · refine iff_of_true ⟨hunknown, ?_, ?_⟩ ?_
    · intro uid huid
      obtain rfl := Origin.otherUser.inj huid
      exact ⟨row, listsFlow_of_row hrow, rfl, fun l hl => firstLink_eq_none hfirst hl⟩
    · intro p hp
      cases hp
    · rw [ProcImage.inventsUid_iff hrow, hfirst]
      rintro ⟨l, hl, -⟩
      cases hl
  · rw [← tellsUid_iff hrow hfirst hp]
    constructor
    · intro hattr
      exact hattr.localProcess _ rfl
    · intro htells
      refine ⟨hunknown, ?_, ?_⟩
      · intro uid huid
        cases huid
      · intro p' hp'
        obtain rfl := Origin.localProcess.inj hp'
        exact htells

/-- A resolver that reads `/proc` says no more than `/proc` does, unless it cannot cut a command line or
invents the user of a process. -/
theorem LinuxProcResolver.resolve_attributes_iff (m : Moment) (a b : SocketAddr) :
    (∃ o r', LinuxProcResolver.new.resolve m a b = .ok (o, r') ∧ Attributes m.image a b o) ↔
      ¬ m.image.ReadsStraddling ∧ ¬ m.image.InventsUid a b := by
  have hreturns := LinuxProcResolver.new.resolve_returns_iff m a b
  rw [and_iff_right (stale_new m)] at hreturns
  rw [← hreturns]
  constructor
  · rintro ⟨o, r', h, hattr⟩
    exact ⟨⟨o, r', h⟩, (attributes_iff h).mp hattr⟩
  · rintro ⟨⟨o, r', h⟩, hno⟩
    exact ⟨o, r', h, (attributes_iff h).mpr hno⟩

end Owners

/-- A process that ends while it is read: its descriptor leads to the socket of user 1000, its status file
is gone. -/
def endingImage : ProcImage where
  tcp := some (tableText [] [.plain (⟨.v4 10 0 0 1, 0x1234⟩, ⟨.v4 10 0 0 2, 443⟩) 1 ⟨99, 1000⟩])
  tcp6 := none
  entries := some [⟨some ['4', '2'], some [⟨some "socket:[99]".toList, ⟨none, none, none⟩⟩]⟩]

theorem endingImage_inventsUid :
    endingImage.InventsUid ⟨.v4 10 0 0 1, 0x1234⟩ ⟨.v4 10 0 0 2, 443⟩ := by
  have hlines : endingImage.socketLines =
      [KernelRow.plain (⟨.v4 10 0 0 1, 0x1234⟩, ⟨.v4 10 0 0 2, 443⟩) 1 ⟨99, 1000⟩].map
        fun r => stripCr r.text := by
    rw [← lines_tableText List.not_mem_nil]
    exact List.append_nil _
  have hrow : endingImage.lastRow (⟨.v4 10 0 0 1, 0x1234⟩, ⟨.v4 10 0 0 2, 443⟩) = some ⟨99, 1000⟩ := by
    rw [ProcImage.lastRow, hlines, lastValue_socketOfLine_rows]
    rfl
  refine ⟨⟨99, 1000⟩, ⟨42, ⟨some "socket:[99]".toList, ⟨none, none, none⟩⟩⟩, ?_, rfl, rfl, ?_⟩
  · rw [hrow, Option.some_or]
  · rintro ⟨row', hlists, l', hl', -, -, huid⟩
    have hrow' (k : SocketAddr × SocketAddr) (h : endingImage.ListsRow k row') : row'.uid = 1000 := by
      obtain ⟨line, hline, hparse⟩ := h
      rw [hlines, ← lines_tableText List.not_mem_nil] at hline
      obtain ⟨r, hr, -, -, rfl⟩ := exists_row_of_mem_lines List.not_mem_nil hline hparse
      obtain rfl := List.mem_singleton.mp hr
      rfl
    have huser : row'.uid = 1000 := hlists.elim (hrow' _) (hrow' _)
    obtain rfl := List.mem_singleton.mp hl'
    rcases huid with huid | huid
    · cases huid
    · rw [huser] at huid
      exact absurd huid (by decide)

/-- The process of user 1000 is shown as root's. -/
theorem LinuxProcResolver.resolve_invents_root :
    ¬ ∀ (image : ProcImage) (a b : SocketAddr),
      ∃ o r', LinuxProcResolver.new.resolve ⟨0, image, 0⟩ a b = .ok (o, r') ∧ Attributes image a b o := by
  intro h
  obtain ⟨o, r', hresolve, hattr⟩ := h endingImage ⟨.v4 10 0 0 1, 0x1234⟩ ⟨.v4 10 0 0 2, 443⟩
  exact (attributes_iff hresolve).mp hattr endingImage_inventsUid

end SeeHandshake

import Mathlib.Data.Finset.Basic
import Mathlib.Data.List.AList
import SeeHandshake.Lib.Numerals
import SeeHandshake.Lib.Worklist
import SeeHandshake.Model.Origin

/-!
# The resolver for Linux

`origin/linux.rs`: the socket tables of `/proc/net` give the inode of a flow's socket, and the descriptors
of the processes the process that owns the inode. The contents of `/proc` are an argument; a file or a
directory that cannot be read is `none`.
-/

namespace SeeHandshake

open Lib

/-! ## `/proc` as it is read -/

/-- The files of a process directory. -/
structure ProcFiles where
  comm : Option (List Char)
  cmdline : Option Bytes
  status : Option (List Char)
  deriving DecidableEq, Repr

/-- An entry of the directory `fd`: the target of the link, where it can be read and is UTF-8, and the files
of the process as they are read after it. -/
structure FdEntry where
  target : Option (List Char)
  files : ProcFiles
  deriving DecidableEq, Repr

/-- An entry of `/proc`: its name, where it is UTF-8, and its directory `fd`. -/
structure ProcEntry where
  name : Option (List Char)
  fd : Option (List FdEntry)
  deriving DecidableEq, Repr

/-- Everything that is read below the root. -/
structure ProcImage where
  tcp : Option (List Char)
  tcp6 : Option (List Char)
  entries : Option (List ProcEntry)
  deriving DecidableEq, Repr

/-! ## Numbers and addresses -/

/-- `str::parse::<u32>`. -/
def parseU32 (s : List Char) : Option UInt32 := (fromStrRadix 10 UInt32.size s).map UInt32.ofNat

/-- `str::parse::<u64>`. -/
def parseU64 (s : List Char) : Option UInt64 := (fromStrRadix 10 UInt64.size s).map UInt64.ofNat

/-- `u16::from_str_radix(s, 16)`. -/
def u16FromHex (s : List Char) : Option UInt16 := (fromStrRadix 16 UInt16.size s).map UInt16.ofNat

/-- `u32::from_str_radix(s, 16)`. -/
def u32FromHex (s : List Char) : Option UInt32 := (fromStrRadix 16 UInt32.size s).map UInt32.ofNat

/-- `raw.to_le_bytes()[i]`. -/
def leByte (raw : UInt32) (i : ℕ) : UInt8 := UInt8.ofNat (raw.toNat / 256 ^ i)

/-- `raw.to_le_bytes()`. -/
def toLeBytes (raw : UInt32) : Bytes := [leByte raw 0, leByte raw 1, leByte raw 2, leByte raw 3]

/-- An IPv4 address, written as a 32-bit word in host byte order. -/
def parseIpv4Hex (s : List Char) : Option IpAddr := do
  let raw ← u32FromHex s
  return .v4 (leByte raw 0) (leByte raw 1) (leByte raw 2) (leByte raw 3)

/-- The octets of `n` words of eight hexadecimal digits. A chunk that ends inside a character is no
number. -/
def parseWords : (n : ℕ) → List Char → Option { bytes : Bytes // bytes.length = 4 * n }
  | 0, _ => some ⟨[], rfl⟩
  | n + 1, s => do
    let (wordHex, rest) ← splitAtByte s 8
    let raw ← u32FromHex wordHex
    let ⟨bytes, hbytes⟩ ← parseWords n rest
    return ⟨toLeBytes raw ++ bytes, by
      rw [List.length_append, hbytes, Nat.mul_add, Nat.mul_one, Nat.add_comm (4 * n)]; rfl⟩

/-- An IPv6 address, written as four 32-bit words in host byte order, in 32 bytes. -/
def parseIpv6Hex (s : List Char) : Option IpAddr := (parseWords 4 s).map .v6

def parseEndpoint (s : List Char) : Option SocketAddr := do
  let (addrHex, portHex) ← splitOnce ':' s
  let port ← u16FromHex portHex
  let ip ← match utf8Len addrHex with
    | 8 => parseIpv4Hex addrHex
    | 32 => parseIpv6Hex addrHex
    | _ => none
  return ⟨ip, port⟩

/-! ## The socket tables -/

structure SocketRow where
  inode : UInt64
  uid : UInt32
  deriving DecidableEq, Repr

/-- The sockets of `/proc/net`, by their local and their remote endpoint. -/
abbrev SocketTable := AList fun _ : SocketAddr × SocketAddr => SocketRow

/-- A row of a socket table. Only rows in state `01`, ESTABLISHED, count. -/
def parseSocketLine (line : List Char) : Option ((SocketAddr × SocketAddr) × SocketRow) :=
  match splitAsciiWhitespace line with
  | _sl :: localHex :: remoteHex :: state :: _txRx :: _trTm :: _retr :: uidS :: _timeout :: inodeS :: _ =>
    if state ≠ ['0', '1'] then none
    else do
      let localAddr ← parseEndpoint localHex
      let remoteAddr ← parseEndpoint remoteHex
      let uid ← parseU32 uidS
      let inode ← parseU64 inodeS
      return ((localAddr, remoteAddr), ⟨inode, uid⟩)
  | _ => none

/-- One line of a socket table. -/
def insertSocketLine (out : SocketTable) (line : List Char) : SocketTable :=
  match parseSocketLine line with
  | some (k, v) => out.insert k v
  | none => out

/-- All lines but the first. -/
def parseSocketTable (text : List Char) (out : SocketTable) : SocketTable :=
  ((lines text).drop 1).foldl insertSocketLine out

/-- The table of `/proc/net/tcp`, and over it that of `/proc/net/tcp6`. -/
def readSockets (image : ProcImage) : SocketTable :=
  [image.tcp, image.tcp6].foldl
    (fun out file =>
      match file with
      | some text => parseSocketTable text out
      | none => out)
    ∅

/-! ## The processes -/

structure ProcRow where
  pid : UInt32
  comm : List Char
  cmdline : List Char
  uid : UInt32
  deriving DecidableEq, Repr

/-- The processes, by the inodes of their sockets. -/
abbrev ProcTable := AList fun _ : UInt64 => ProcRow

/-- The cap on the length of a command line. -/
def CMDLINE_MAX_LEN : ℕ := 256

def socketInodeFromLink (target : List Char) : Option UInt64 := do
  let rest ← target.dropPrefix? ['s', 'o', 'c', 'k', 'e', 't', ':', '[']
  let inner ← rest.dropSuffix? [']']
  parseU64 inner

def readComm (comm : Option (List Char)) : List Char := (comm.map trim).getD []

/-- The character of a byte of a command line: its arguments end in NUL. -/
def cmdlineChar (b : UInt8) : Char := if b = 0 then ' ' else Char.ofNat b.toNat

def readCmdline (cmdline : Option Bytes) : Panicking (List Char) := do
  let s := (cmdline.getD []).map cmdlineChar
  let s ← truncate s (utf8Len (trimEnd s))
  if utf8Len s > CMDLINE_MAX_LEN then
    let s ← truncate s CMDLINE_MAX_LEN
    return s ++ ['.', '.', '.']
  else return s

/-- The real user id of a process: the first field of the first line that begins with `Uid:`. -/
def readUid (status : Option (List Char)) : Option UInt32 := do
  let text ← status
  let rest ← (lines text).findSome? (·.dropPrefix? ['U', 'i', 'd', ':'])
  let uid ← (splitAsciiWhitespace rest).head?
  parseU32 uid

/-- A process with a wanted socket. -/
def readProc (pid : UInt32) (files : ProcFiles) : Panicking ProcRow := do
  let comm := readComm files.comm
  let cmdline ← readCmdline files.cmdline
  let uid := (readUid files.status).getD 0
  return ⟨pid, comm, cmdline, uid⟩

/-- A turn of the loop over the descriptors of a process. -/
def fdTurn (pid : UInt32) (fd : FdEntry) (scan : Worklist UInt64 ProcRow) :
    Panicking (ForInStep (Worklist UInt64 ProcRow)) := do
  let some target := fd.target | return .yield scan
  let some inode := socketInodeFromLink target | return .yield scan
  if inode ∉ scan.wanted then return .yield scan
  let row ← readProc pid fd.files
  let scan := ⟨scan.wanted.erase inode, scan.found.insert inode row⟩
  if scan.wanted = ∅ then return .done scan
  return .yield scan

/-- A turn of the loop over the entries of `/proc`. -/
def procTurn (entry : ProcEntry) (scan : Worklist UInt64 ProcRow) :
    Panicking (ForInStep (Worklist UInt64 ProcRow)) := do
  if scan.wanted = ∅ then return .done scan
  let some name := entry.name | return .yield scan
  let some pid := parseU32 name | return .yield scan
  let some fds := entry.fd | return .yield scan
  let scan ← forIn fds scan (fdTurn pid)
  return .yield scan

/-- The inodes of a socket table. -/
def SocketTable.inodes (sockets : SocketTable) : Finset UInt64 :=
  (sockets.entries.map fun e => e.2.inode).toFinset

def readProcs (image : ProcImage) (sockets : SocketTable) : Panicking ProcTable :=
  match image.entries with
  | none => return ∅
  | some entries => do
    let scan ← forIn entries ⟨sockets.inodes, ∅⟩ procTurn
    return scan.found

/-! ## The resolver -/

/-- How long a snapshot is trusted. -/
def CACHE_TTL_MS : ℕ := 500

/-- `Duration::from_millis`, in nanoseconds. -/
def fromMillis (ms : ℕ) : ℕ := ms * 1000000

structure Snapshot where
  takenAt : ℕ
  sockets : SocketTable
  procs : ProcTable

structure LinuxProcResolver where
  cache : Option Snapshot
  ttl : ℕ

def LinuxProcResolver.new : LinuxProcResolver := ⟨none, fromMillis CACHE_TTL_MS⟩

/-- What a call sees of the machine: the clock when it looks at the cache, `/proc` as it reads it, and the
clock when it has read it. -/
structure Moment where
  now : ℕ
  image : ProcImage
  done : ℕ

/-- Whether there is no snapshot to be trusted. -/
def LinuxProcResolver.stale (r : LinuxProcResolver) (m : Moment) : Bool :=
  match r.cache with
  | none => true
  | some s => m.now - s.takenAt ≥ r.ttl

/-- A snapshot of `/proc`. -/
def Snapshot.take (m : Moment) : Panicking Snapshot := do
  let sockets := readSockets m.image
  let procs ← readProcs m.image sockets
  return ⟨m.done, sockets, procs⟩

def LinuxProcResolver.snapshot (r : LinuxProcResolver) (m : Moment) :
    Panicking (Snapshot × LinuxProcResolver) :=
  match r.stale m, r.cache with
  | false, some s => return (s, r)
  | _, _ => do
    let s ← Snapshot.take m
    return (s, { r with cache := some s })

def ProcRow.origin (p : ProcRow) : Origin :=
  .localProcess ⟨p.pid, String.ofList p.comm, String.ofList p.cmdline, p.uid⟩

/-- The row of a flow, in one order of its endpoints or in the other. -/
def SocketTable.row (sockets : SocketTable) (a b : SocketAddr) : Option SocketRow :=
  (sockets.lookup (a, b)).or (sockets.lookup (b, a))

/-- The answer that a snapshot gives. -/
def Snapshot.origin (snap : Snapshot) (a b : SocketAddr) : Origin :=
  match snap.sockets.row a b with
  | none => .unknown
  | some row =>
    match snap.procs.lookup row.inode with
    | some p => p.origin
    | none => .otherUser row.uid

def LinuxProcResolver.resolve (r : LinuxProcResolver) (m : Moment) (a b : SocketAddr) :
    Panicking (Origin × LinuxProcResolver) := do
  let (snap, r) ← r.snapshot m
  return (snap.origin a b, r)

/-- The resolver of a program that runs: what its calls will see of the machine, one after the other. -/
structure LiveResolver where
  resolver : LinuxProcResolver
  moments : ℕ → Moment

def LiveResolver.resolve (r : LiveResolver) (a b : SocketAddr) : Panicking (Origin × LiveResolver) := do
  let (origin, resolver) ← r.resolver.resolve (r.moments 0) a b
  return (origin, { resolver, moments := fun n => r.moments (n + 1) })

/-- Where a call panics, there is no answer; any one will do. -/
instance : PanickingResolver LiveResolver where
  resolve r a b := (r.resolve a b).toOption.getD (.unknown, r)
  tryResolve := LiveResolver.resolve
  resolve_eq r a b answer h := by
    rw [h]
    rfl

end SeeHandshake

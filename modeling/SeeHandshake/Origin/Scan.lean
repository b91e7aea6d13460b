import SeeHandshake.Origin.Linux

/-!
# What `/proc` lists

The sockets and the descriptors that an image of `/proc` lists, in the order of the listing, and the search
through all of them.
-/

namespace SeeHandshake

open Lib

/-! ## Sockets -/

/-- The rows of both socket tables, without the headers. -/
def ProcImage.socketLines (image : ProcImage) : List (List Char) :=
  [image.tcp, image.tcp6].flatMap fun file => (lines (file.getD [])).drop 1

/-- An established row of a pair of endpoints is listed. -/
def ProcImage.ListsRow (image : ProcImage) (k : SocketAddr × SocketAddr) (row : SocketRow) : Prop :=
  ∃ line ∈ image.socketLines, parseSocketLine line = some (k, row)

/-- An established row of a flow is listed, in one order of its endpoints or in the other. -/
def ProcImage.ListsFlow (image : ProcImage) (a b : SocketAddr) (row : SocketRow) : Prop :=
  image.ListsRow (a, b) row ∨ image.ListsRow (b, a) row

/-! ## Processes -/

/-- A descriptor of a process. -/
structure Link where
  pid : UInt32
  fd : FdEntry

/-- The inode of a link to a socket. -/
def Link.inode (l : Link) : Option UInt64 := l.fd.target.bind socketInodeFromLink

/-- The process of a link, as it is read after it. -/
def Link.proc (l : Link) : Panicking ProcRow := readProc l.pid l.fd.files

/-- The links of an entry: it has none unless it names a process whose descriptors can be read. -/
def ProcEntry.links (e : ProcEntry) : List Link :=
  match e.name.bind parseU32, e.fd with
  | some pid, some fds => fds.map (Link.mk pid)
  | _, _ => []

/-- All links, in the order of the listing. -/
def ProcImage.links (image : ProcImage) : List Link := (image.entries.getD []).flatMap ProcEntry.links

/-- The first link to an inode. -/
def ProcImage.firstLink (image : ProcImage) (inode : UInt64) : Option Link :=
  image.links.find? fun l => l.inode = some inode

/-- The search through all links: it keeps, for each inode of the socket table, the first one. -/
def fullScan (image : ProcImage) (sockets : SocketTable) : Panicking ProcTable :=
  image.links.foldlM (keepFirst Link.inode Link.proc sockets.inodes) ∅

end SeeHandshake

import SeeHandshake.Lib.Register
import SeeHandshake.Origin.Linux

/-!
# The socket tables as the kernel prints them

The layout of `/proc/net/tcp` and `/proc/net/tcp6` on a little-endian machine: a header, and a line for each
socket, of fields with white space between them. Addresses are printed word by word in host byte order.
-/

namespace SeeHandshake

open Lib

/-- The words of four octets each, in host byte order. -/
def hexWords : Bytes → List Char
  | a :: b :: c :: d :: rest =>
    hexFixed 8 (a.toNat + 256 * (b.toNat + 256 * (c.toNat + 256 * d.toNat))) ++ hexWords rest
  | _ => []

/-- The octets of an address, in network order. -/
def IpAddr.octets : IpAddr → Bytes
  | .v4 a b c d => [a, b, c, d]
  | .v6 octets => octets.val

def SocketAddr.hex (a : SocketAddr) : List Char := hexWords a.ip.octets ++ ':' :: hexFixed 4 a.port.toNat

theorem hexWords_no_space (bytes : Bytes) : ∀ c ∈ hexWords bytes, isAsciiWhitespace c = false := by
  induction bytes using hexWords.induct with
  | case1 a b c d rest ih =>
    intro ch hch
    rw [hexWords, List.mem_append] at hch
    rcases hch with hch | hch
    · exact hexFixed_no_space ch hch
    · exact ih ch hch
  | case2 bytes h =>
    intro ch hch
    rw [hexWords] at hch
    · exact absurd hch List.not_mem_nil
    · exact h

theorem SocketAddr.hex_no_space (a : SocketAddr) : ∀ c ∈ a.hex, isAsciiWhitespace c = false := by
  intro c hc
  rw [SocketAddr.hex, List.mem_append, List.mem_cons] at hc
  rcases hc with hc | rfl | hc
  · exact hexWords_no_space _ c hc
  · decide
  · exact hexFixed_no_space c hc

theorem SocketAddr.hex_ne_nil (a : SocketAddr) : a.hex ≠ [] :=
  List.append_ne_nil_of_right_ne_nil _ (List.cons_ne_nil _ _)

/-- `address:port`. -/
def SocketAddr.field (a : SocketAddr) : Field := ⟨a.hex, a.hex_ne_nil, a.hex_no_space⟩

/-- A row of a socket table. The resolver does not read the queue lengths, the timers and what follows the
inode, which are any fields here. -/
structure KernelRow where
  localAddress : SocketAddr
  remAddress : SocketAddr
  state : UInt8
  uid : UInt32
  inode : UInt64
  sl : Field
  txRxQueue : Field
  trTmWhen : Field
  retrnsmt : Field
  timeout : Field
  trailing : List (Gap × Field)
  lead : Pad
  /-- The white space in front of each field from the second to the tenth. -/
  gaps : Fin 9 → Gap
  tail : Pad

namespace KernelRow

def text (r : KernelRow) : List Char :=
  spaced r.lead r.sl
    ([(r.gaps 0, r.localAddress.field), (r.gaps 1, r.remAddress.field), (r.gaps 2, hexField 1 r.state.toNat),
      (r.gaps 3, r.txRxQueue), (r.gaps 4, r.trTmWhen), (r.gaps 5, r.retrnsmt),
      (r.gaps 6, decimalField r.uid.toNat), (r.gaps 7, r.timeout), (r.gaps 8, decimalField r.inode.toNat)] ++
        r.trailing)
    r.tail

/-- The state of a connection that is established, `TCP_ESTABLISHED`. -/
def Established (r : KernelRow) : Prop := r.state = 1

instance (r : KernelRow) : Decidable r.Established := inferInstanceAs (Decidable (_ = _))

def key (r : KernelRow) : SocketAddr × SocketAddr := (r.localAddress, r.remAddress)

def row (r : KernelRow) : SocketRow := ⟨r.inode, r.uid⟩

/-- A row with one space between its fields and nothing behind them. -/
def plain (key : SocketAddr × SocketAddr) (state : UInt8) (row : SocketRow) : KernelRow where
  localAddress := key.1
  remAddress := key.2
  state := state
  uid := row.uid
  inode := row.inode
  sl := decimalField 0
  txRxQueue := hexField 7 0
  trTmWhen := hexField 7 0
  retrnsmt := hexField 7 0
  timeout := decimalField 0
  trailing := []
  lead := .empty
  gaps _ := .one
  tail := .empty

end KernelRow

/-- A socket table: the header and the rows, a line each. -/
def tableText (header : List Char) (rows : List KernelRow) : List Char :=
  (header :: rows.map KernelRow.text).flatMap fun l => l ++ ['\n']

/-- The last established row of a pair of endpoints. -/
def lastEstablished (rows : List KernelRow) (k : SocketAddr × SocketAddr) : Option SocketRow :=
  lastValue (fun r => if r.Established ∧ r.key = k then some r.row else none) rows

/-! ## IPv4 flows of IPv6 sockets -/

def IpAddr.isV4 : IpAddr → Bool
  | .v4 _ _ _ _ => true
  | .v6 _ => false

/-- `::ffff:a.b.c.d`, the form in which an IPv6 socket has an IPv4 address. -/
def IpAddr.mapped : IpAddr → IpAddr
  | .v4 a b c d => .v6 ⟨[0, 0, 0, 0, 0, 0, 0, 0, 0, 0, 0xFF, 0xFF, a, b, c, d], rfl⟩
  | .v6 octets => .v6 octets

def SocketAddr.mapped (a : SocketAddr) : SocketAddr := ⟨a.ip.mapped, a.port⟩

/-- A flow between IPv4 endpoints that is listed in `/proc/net/tcp6` only. -/
structure DualStackOnly (image : ProcImage) (a b : SocketAddr) : Prop where
  v4 : a.ip.isV4 ∧ b.ip.isV4
  not_tcp : ∀ text, image.tcp = some text → ∀ line ∈ (lines text).drop 1, ∀ row,
    parseSocketLine line ≠ some ((a, b), row) ∧ parseSocketLine line ≠ some ((b, a), row)
  tcp6 : ∃ header rows, '\n' ∉ header ∧ image.tcp6 = some (tableText header rows) ∧
    (∀ r ∈ rows, r.localAddress.ip.isV4 = false ∧ r.remAddress.ip.isV4 = false) ∧
    ∃ r ∈ rows, r.Established ∧ (r.key = (a.mapped, b.mapped) ∨ r.key = (b.mapped, a.mapped))

end SeeHandshake

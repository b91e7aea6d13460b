import SeeHandshake.Origin.Kernel

/-!
# Reading the kernel's socket tables

What the kernel prints, `parseSocketTable` reads back: the words of an address, an endpoint, a row, a table.
-/

namespace SeeHandshake

open Lib

/-! ## Numbers -/

theorem parseU32_decimal (n : UInt32) : parseU32 (decimal n.toNat) = some n := by
  rw [parseU32, fromStrRadix_decimal n.toNat_lt_size, Option.map_some, UInt32.ofNat_toNat]

theorem parseU64_decimal (n : UInt64) : parseU64 (decimal n.toNat) = some n := by
  rw [parseU64, fromStrRadix_decimal n.toNat_lt_size, Option.map_some, UInt64.ofNat_toNat]

theorem u16FromHex_hexFixed (n : UInt16) : u16FromHex (hexFixed 4 n.toNat) = some n := by
  rw [u16FromHex, fromStrRadix_hexFixed n.toNat_lt_size n.toNat_lt_size, Option.map_some,
    UInt16.ofNat_toNat]

/-! ## Addresses -/

section Words

variable (a b c d : UInt8)

/-- The word that is printed for four octets. -/
def hostWord : ℕ := a.toNat + 256 * (b.toNat + 256 * (c.toNat + 256 * d.toNat))

theorem hostWord_lt : hostWord a b c d < UInt32.size := by
  have ha := a.toNat_lt
  have hb := b.toNat_lt
  have hc := c.toNat_lt
  have hd := d.toNat_lt
  unfold hostWord UInt32.size
  omega

/-- The word is read back, and its little-endian bytes are the octets. -/
theorem u32FromHex_hostWord :
    u32FromHex (hexFixed 8 (hostWord a b c d)) = some (UInt32.ofNat (hostWord a b c d)) := by
  have hlt := hostWord_lt a b c d
  rw [u32FromHex, fromStrRadix_hexFixed hlt hlt, Option.map_some]

theorem leByte_hostWord (i : ℕ) :
    leByte (UInt32.ofNat (hostWord a b c d)) i = UInt8.ofNat (hostWord a b c d / 256 ^ i) := by
  have hlt := hostWord_lt a b c d
  rw [leByte, UInt32.toNat_ofNat_of_lt' hlt]

theorem leBytes_hostWord :
    leByte (UInt32.ofNat (hostWord a b c d)) 0 = a ∧ leByte (UInt32.ofNat (hostWord a b c d)) 1 = b ∧
      leByte (UInt32.ofNat (hostWord a b c d)) 2 = c ∧ leByte (UInt32.ofNat (hostWord a b c d)) 3 = d := by
  have ha := a.toNat_lt
  have hb := b.toNat_lt
  have hc := c.toNat_lt
  have hd := d.toNat_lt
  simp only [leByte_hostWord, ← UInt8.toNat_inj, UInt8.toNat_ofNat']
  unfold hostWord
  refine ⟨?_, ?_, ?_, ?_⟩ <;> omega

theorem toLeBytes_hostWord : toLeBytes (UInt32.ofNat (hostWord a b c d)) = [a, b, c, d] := by
  obtain ⟨h0, h1, h2, h3⟩ := leBytes_hostWord a b c d
  rw [toLeBytes, h0, h1, h2, h3]

theorem hexWords_cons (rest : Bytes) :
    hexWords (a :: b :: c :: d :: rest) = hexFixed 8 (hostWord a b c d) ++ hexWords rest := by
  rw [hexWords, hostWord]

end Words

/-- The first word of an address. -/
theorem exists_word {n : ℕ} {bytes : Bytes} (h : bytes.length = 4 * (n + 1)) :
    ∃ a b c d rest, bytes = a :: b :: c :: d :: rest ∧ rest.length = 4 * n := by
  obtain ⟨a, bytes, rfl⟩ := List.exists_cons_of_length_eq_add_one h
  obtain ⟨b, bytes, rfl⟩ := List.exists_cons_of_length_eq_add_one (Nat.succ.inj h)
  obtain ⟨c, bytes, rfl⟩ := List.exists_cons_of_length_eq_add_one (Nat.succ.inj (Nat.succ.inj h))
  obtain ⟨d, rest, rfl⟩ :=
    List.exists_cons_of_length_eq_add_one (Nat.succ.inj (Nat.succ.inj (Nat.succ.inj h)))
  refine ⟨a, b, c, d, rest, rfl, ?_⟩
  simp only [List.length_cons] at h
  omega

theorem utf8Len_hexWords {n : ℕ} {bytes : Bytes} (h : bytes.length = 4 * n) :
    utf8Len (hexWords bytes) = 8 * n := by
  induction n generalizing bytes with
  | zero =>
    obtain rfl := List.eq_nil_of_length_eq_zero h
    rfl
  | succ n ih =>
    obtain ⟨a, b, c, d, rest, rfl, hrest⟩ := exists_word h
    rw [hexWords_cons, utf8Len_append, utf8Len_hexFixed, ih hrest]
    omega

/-- The words of an address are read back. -/
theorem parseWords_hexWords {n : ℕ} {bytes : Bytes} (h : bytes.length = 4 * n) :
    parseWords n (hexWords bytes) = some ⟨bytes, h⟩ := by
  induction n generalizing bytes with
  | zero =>
    obtain rfl := List.eq_nil_of_length_eq_zero h
    rfl
  | succ n ih =>
    obtain ⟨a, b, c, d, rest, rfl, hrest⟩ := exists_word h
    have hsplit : splitAtByte (hexWords (a :: b :: c :: d :: rest)) 8 =
        some (hexFixed 8 (hostWord a b c d), hexWords rest) := by
      have hlen := utf8Len_hexFixed 8 (hostWord a b c d)
      have happ := splitAtByte_append (hexFixed 8 (hostWord a b c d)) (hexWords rest)
      rw [hlen] at happ
      rw [hexWords_cons, happ]
    rw [parseWords, hsplit]
    simp only [Option.bind_eq_bind, Option.bind_some, u32FromHex_hostWord, ih hrest, toLeBytes_hostWord]
    rfl

theorem parseIpv4Hex_hexWords (a b c d : UInt8) :
    parseIpv4Hex (hexWords [a, b, c, d]) = some (.v4 a b c d) := by
  obtain ⟨h0, h1, h2, h3⟩ := leBytes_hostWord a b c d
  have hword : hexWords [a, b, c, d] = hexFixed 8 (hostWord a b c d) := by
    rw [hexWords_cons, hexWords, List.append_nil]
    intro _ _ _ _ _ h
    cases h
  rw [parseIpv4Hex, hword, u32FromHex_hostWord]
  simp only [Option.bind_eq_bind, Option.bind_some, h0, h1, h2, h3]
  rfl

/-! ## Endpoints -/

theorem colon_notMem_hexFixed (w n : ℕ) : ':' ∉ hexFixed w n := by
  have hall : ∀ m : Fin 16, ':' ≠ hexDigit m := by decide
  intro h
  obtain ⟨m, hm, he⟩ := mem_hexFixed h
  exact hall ⟨m, hm⟩ he

theorem colon_notMem_hexWords (bytes : Bytes) : ':' ∉ hexWords bytes := by
  induction bytes using hexWords.induct with
  | case1 a b c d rest ih =>
    rw [hexWords_cons, List.mem_append, not_or]
    exact ⟨colon_notMem_hexFixed _ _, ih⟩
  | case2 bytes h =>
    rw [hexWords]
    · exact List.not_mem_nil
    · exact h

/-- An endpoint is read back: its length tells the family. -/
theorem parseEndpoint_hex (a : SocketAddr) : parseEndpoint a.hex = some a := by
  obtain ⟨ip, port⟩ := a
  unfold parseEndpoint SocketAddr.hex
  rw [splitOnce_append (colon_notMem_hexWords _)]
  simp only [Option.bind_eq_bind, Option.bind_some, u16FromHex_hexFixed]
  cases ip with
  | v4 a b c d =>
    have hoctets : (IpAddr.v4 a b c d).octets.length = 4 * 1 := rfl
    have hlen : utf8Len (hexWords (IpAddr.v4 a b c d).octets) = 8 := utf8Len_hexWords hoctets
    have hparse := parseIpv4Hex_hexWords a b c d
    rw [hlen]
    show (parseIpv4Hex (hexWords [a, b, c, d])).bind _ = _
    rw [hparse]
    rfl
  | v6 octets =>
    have hlen : utf8Len (hexWords (IpAddr.v6 octets).octets) = 32 :=
      @utf8Len_hexWords 4 _ octets.property
    have hparse : parseIpv6Hex (hexWords octets.val) = some (.v6 octets) := by
      rw [parseIpv6Hex, parseWords_hexWords octets.property, Option.map_some]
    rw [hlen]
    show (parseIpv6Hex (hexWords octets.val)).bind _ = _
    rw [hparse]
    rfl

example : parseEndpoint "0100007F:9D5D".toList = some ⟨.v4 127 0 0 1, 0x9D5D⟩ := by decide

/-! ## Rows -/

namespace KernelRow

/-- Of all states only ESTABLISHED is printed `01`. -/
theorem state_hex_iff (r : KernelRow) : (hexField 1 r.state.toNat).chars = ['0', '1'] ↔ r.Established := by
  have hread (s : UInt8) : u16FromHex (hexFixed 2 s.toNat) = some (UInt16.ofNat s.toNat) := by
    have hs := s.toNat_lt
    rw [u16FromHex, fromStrRadix_hexFixed (by omega) (by unfold UInt16.size; omega), Option.map_some]
  have hone : ['0', '1'] = hexFixed 2 (1 : UInt8).toNat := by decide
  constructor
  · intro h
    have heq : u16FromHex (hexFixed 2 r.state.toNat) = u16FromHex (hexFixed 2 (1 : UInt8).toNat) := by
      rw [← hone]
      exact congrArg u16FromHex h
    rw [hread, hread] at heq
    have hnat := congrArg UInt16.toNat (Option.some.inj heq)
    have hstate := r.state.toNat_lt
    rw [UInt16.toNat_ofNat', UInt16.toNat_ofNat', Nat.mod_eq_of_lt (by omega)] at hnat
    exact UInt8.toNat_inj.mp hnat
  · intro h
    show hexFixed 2 r.state.toNat = _
    rw [show r.state = 1 from h, hone]

/-- A row is read back if it is established, and is ignored otherwise. -/
theorem parseSocketLine_text (r : KernelRow) :
    parseSocketLine (stripCr r.text) = if r.Established then some (r.key, r.row) else none := by
  unfold parseSocketLine
  rw [splitAsciiWhitespace_stripCr, text, splitAsciiWhitespace_spaced]
  simp only [List.cons_append, List.nil_append, List.map_cons]
  by_cases h : r.Established
  · have hstate := r.state_hex_iff.mpr h
    have hlocal : parseEndpoint r.localAddress.field.chars = some r.localAddress :=
      parseEndpoint_hex r.localAddress
    have hrem : parseEndpoint r.remAddress.field.chars = some r.remAddress := parseEndpoint_hex r.remAddress
    have huid : parseU32 (decimalField r.uid.toNat).chars = some r.uid := parseU32_decimal r.uid
    have hinode : parseU64 (decimalField r.inode.toNat).chars = some r.inode := parseU64_decimal r.inode
    rw [if_pos h, if_neg (not_not_intro hstate), hlocal, hrem, huid, hinode]
    rfl
  · rw [if_neg h, if_pos fun hstate => h (r.state_hex_iff.mp hstate)]

theorem text_no_feed (r : KernelRow) : '\n' ∉ r.text := spaced_no_feed _ _ _ _

end KernelRow

/-! ## Tables -/

theorem lines_tableText {header : List Char} (hheader : '\n' ∉ header) (rows : List KernelRow) :
    (lines (tableText header rows)).drop 1 = rows.map fun r => stripCr r.text := by
  have hfeeds : ∀ l ∈ header :: rows.map KernelRow.text, '\n' ∉ l := by
    intro l hl
    rcases List.mem_cons.mp hl with rfl | hl
    · exact hheader
    · obtain ⟨r, -, rfl⟩ := List.mem_map.mp hl
      exact r.text_no_feed
  rw [tableText, lines_flatMap hfeeds, List.map_cons, List.drop_one, List.tail_cons, List.map_map]
  rfl

/-- The socket that a line gives a pair of endpoints. -/
def socketOfLine (k : SocketAddr × SocketAddr) (line : List Char) : Option SocketRow :=
  (parseSocketLine line).bind fun e => if e.1 = k then some e.2 else none

theorem insertSocketLine_lookup (k : SocketAddr × SocketAddr) (out : SocketTable) (line : List Char) :
    (insertSocketLine out line).lookup k = (socketOfLine k line).or (out.lookup k) := by
  unfold insertSocketLine socketOfLine
  cases parseSocketLine line with
  | none => rfl
  | some e =>
    obtain ⟨k', v⟩ := e
    show (out.insert k' v).lookup k = (if k' = k then some v else none : Option SocketRow).or _
    by_cases hk : k' = k
    · subst hk
      rw [if_pos rfl, Option.some_or, AList.lookup_insert]
    · rw [if_neg hk, Option.none_or, AList.lookup_insert_ne (Ne.symm hk)]

/-- Lines read into a table: the last row of each pair of endpoints counts, and over it nothing. -/
theorem insertSocketLines_lookup (k : SocketAddr × SocketAddr) (ls : List (List Char)) (out : SocketTable) :
    (ls.foldl insertSocketLine out).lookup k = (lastValue (socketOfLine k) ls).or (out.lookup k) :=
  foldl_register_or (f := AList.lookup k) (insertSocketLine_lookup k) ls out

/-- The lines of printed rows. -/
theorem lastValue_socketOfLine_rows (k : SocketAddr × SocketAddr) (rows : List KernelRow) :
    lastValue (socketOfLine k) (rows.map fun r => stripCr r.text) = lastEstablished rows k := by
  have hline (r : KernelRow) : socketOfLine k (stripCr r.text) =
      if r.Established ∧ r.key = k then some r.row else none := by
    rw [socketOfLine, r.parseSocketLine_text]
    by_cases h : r.Established
    · rw [if_pos h, Option.bind_some]
      exact if_congr (and_iff_right h).symm rfl rfl
    · rw [if_neg h, Option.bind_none, if_neg fun hand => h hand.1]
  rw [lastValue_map, lastEstablished]
  exact congrArg (lastValue · rows) (funext hline)

/-- The line of a printed row. -/
theorem mem_lines_tableText {header : List Char} (hheader : '\n' ∉ header) {rows : List KernelRow}
    {r : KernelRow} (hr : r ∈ rows) : stripCr r.text ∈ (lines (tableText header rows)).drop 1 := by
  rw [lines_tableText hheader]
  exact List.mem_map_of_mem hr

/-- A socket that a printed table lists is that of an established row. -/
theorem exists_row_of_mem_lines {header : List Char} (hheader : '\n' ∉ header) {rows : List KernelRow}
    {line : List Char} (hline : line ∈ (lines (tableText header rows)).drop 1)
    {k : SocketAddr × SocketAddr} {row : SocketRow} (h : parseSocketLine line = some (k, row)) :
    ∃ r ∈ rows, r.Established ∧ r.key = k ∧ r.row = row := by
  rw [lines_tableText hheader] at hline
  obtain ⟨r, hr, rfl⟩ := List.mem_map.mp hline
  rw [r.parseSocketLine_text] at h
  by_cases hstate : r.Established
  · rw [if_pos hstate] at h
    obtain ⟨hk, hrow⟩ := Prod.mk.inj (Option.some.inj h)
    exact ⟨r, hr, hstate, hk, hrow⟩
  · rw [if_neg hstate] at h
    cases h

/-- A printed table gives each pair of endpoints its last established row, and leaves the others what they
had. -/
theorem parseSocketTable_tableText {header : List Char} (hheader : '\n' ∉ header) (rows : List KernelRow)
    (out : SocketTable) (k : SocketAddr × SocketAddr) :
    (parseSocketTable (tableText header rows) out).lookup k =
      (lastEstablished rows k).or (out.lookup k) := by
  rw [parseSocketTable, lines_tableText hheader, insertSocketLines_lookup, lastValue_socketOfLine_rows]

/-- A pair of endpoints with two established rows, and a listening socket between them. -/
theorem parseSocketTable_tableText_repeated :
    (parseSocketTable
        (tableText "sl local_address".toList
          [.plain (⟨.v4 127 0 0 1, 0x1234⟩, ⟨.v4 127 0 0 1, 443⟩) 1 ⟨99, 1000⟩,
            .plain (⟨.v4 127 0 0 1, 443⟩, ⟨.v4 0 0 0 0, 0⟩) 0x0A ⟨8105, 0⟩,
            .plain (⟨.v4 127 0 0 1, 0x1234⟩, ⟨.v4 127 0 0 1, 443⟩) 1 ⟨100, 1001⟩])
        ∅).lookup (⟨.v4 127 0 0 1, 0x1234⟩, ⟨.v4 127 0 0 1, 443⟩) = some ⟨100, 1001⟩ := by
  rw [parseSocketTable_tableText (by decide)]
  rfl

end SeeHandshake

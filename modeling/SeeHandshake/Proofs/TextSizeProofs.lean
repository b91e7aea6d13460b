import SeeHandshake.Proofs.HelloProofs
import SeeHandshake.Proofs.HexProofs
import SeeHandshake.Ui.SectionLines

/-!
# The size of the lines of a section

The lines of a section are never more than a constant times the bytes that they are about, and to make them
does not panic, whatever the bytes.
-/

namespace SeeHandshake

open Lib Panicking

/-! ## Texts -/

theorem length_decimal_le {n : ℕ} (h : n < 100000) : (decimal n).length ≤ 5 :=
  (Nat.length_toDigits_le_iff (by omega) (by omega)).mpr h

theorem length_hexWord (v : UInt16) : (hexWord v).toList.length = 4 := by
  unfold hexWord
  rw [String.toList_ofList]
  rfl

theorem length_hexByte (v : UInt8) : (hexByte v).toList.length = 4 := by
  unfold hexByte
  rw [String.toList_ofList]
  rfl

theorem length_hexInline_le (bytes : Bytes) : (hexInline bytes).length ≤ 3 * bytes.length :=
  length_spacedPairs_le bytes

theorem length_byteCount_le {n : ℕ} (h : n < 100000) : (byteCount n).length ≤ 9 := by
  have hn := length_decimal_le h
  have htail : " B)".toList.length = 3 := rfl
  unfold byteCount
  rw [List.length_append, List.length_cons, htail]
  omega

theorem length_unknownCode (v : UInt16) : (unknownCode v).toList.length = 15 := by
  have hfront : "Unknown(0x".toList.length = 10 := rfl
  have hback : ")".toList.length = 1 := rfl
  unfold unknownCode
  rw [String.toList_append, String.toList_append, List.length_append, List.length_append, length_hexWord,
    hfront, hback]

theorem TlsVersion.length_display_le (v : TlsVersion) : v.display.toList.length ≤ 15 := by
  cases v with
  | other v => exact Nat.le_of_eq (length_unknownCode v)
  | _ => decide

theorem CipherSuite.length_display_le (s : CipherSuite) : s.display.toList.length ≤ 45 := by
  cases s with
  | other v =>
    have hlength : (other v).display.toList.length = 15 := length_unknownCode v
    omega
  | _ => decide

theorem NamedGroup.length_display_le (g : NamedGroup) : g.display.toList.length ≤ 23 := by
  cases g with
  | other v =>
    have hlength : (other v).display.toList.length = 15 := length_unknownCode v
    omega
  | _ => decide

/-- A character takes a byte at least. -/
theorem length_utf8LossyChars_le (bytes : Bytes) : (utf8LossyChars bytes).length ≤ bytes.length := by
  fun_induction utf8LossyChars bytes <;> simp only [List.length_cons, List.length_nil] at * <;> omega

theorem AlpnProtocol.length_display_le (bytes : Bytes) :
    (AlpnProtocol.fromBytes bytes).display.toList.length ≤ bytes.length := by
  have hchars := length_utf8LossyChars_le bytes
  show (String.ofList (utf8LossyChars bytes)).toList.length ≤ _
  rwa [String.toList_ofList]

theorem length_pskModeText_le (mode : UInt8) : (pskModeText mode).length ≤ 10 := by
  unfold pskModeText
  split
  · decide
  · split
    · decide
    · have hfront : "mode(".toList.length = 5 := rfl
      have hback : ")".toList.length = 1 := rfl
      rw [List.length_append, List.length_append, length_hexByte, hfront, hback]

theorem length_joinComma_le {α : Type} (f : α → List Char) (xs : List α) :
    (joinComma (xs.map f)).length ≤ total (fun x => (f x).length + 2) xs := by
  have hjoin := length_intercalate_le [',', ' '] (xs.map f)
  rwa [total_map] at hjoin

/-! ## Lines -/

section Lines

variable {Style : Type}

theorem linesSize_nil : linesSize ([] : List (Line Style)) = 0 := rfl

theorem linesSize_cons (line : Line Style) (ls : List (Line Style)) :
    linesSize (line :: ls) = line.chars.length + 1 + linesSize ls := rfl

theorem linesSize_append (ls ls' : List (Line Style)) :
    linesSize (ls ++ ls') = linesSize ls + linesSize ls' := total_append _ ls ls'

theorem length_chars_lt {line : Line Style} {ls : List (Line Style)} (h : line ∈ ls) :
    line.chars.length < linesSize ls :=
  le_total (w := fun line : Line Style => line.chars.length + 1) h

/-- Every line is shorter than all of them together. -/
theorem length_chars_lt_total {line : Line Style} {ls : List (Line Style)} {lss : List (List (Line Style))}
    (hls : ls ∈ lss) (h : line ∈ ls) : line.chars.length < total linesSize lss :=
  Nat.lt_of_lt_of_le (length_chars_lt h) (le_total hls)

variable [Inhabited Style]

theorem length_chars_ofSpans (spans : List (Span Style)) :
    (Line.ofSpans spans).chars.length = total (fun s => s.content.length) spans := by
  show (spans.flatMap Span.chars).length = _
  rw [length_flatMap_eq_total]
  simp only [Span.chars, List.length_map]

theorem length_chars_cons (span : Span Style) (spans : List (Span Style)) :
    (Line.ofSpans (span :: spans)).chars.length = span.content.length + (Line.ofSpans spans).chars.length := by
  rw [length_chars_ofSpans, length_chars_ofSpans, total_cons]

theorem length_chars_nil : (Line.ofSpans ([] : List (Span Style))).chars.length = 0 := rfl

end Lines

theorem length_wireLine (s : List Char) : (wireLine s).chars.length = s.length := by
  unfold wireLine
  rw [length_chars_cons, length_chars_nil, Nat.add_zero]
  rfl

theorem length_rawLine_le (s : List Char) : (rawLine s).chars.length ≤ s.length := by
  have hlines := total_lines_le s
  unfold rawLine Line.ofText
  rw [length_chars_ofSpans, total_map]
  exact hlines

theorem length_headerLine (s : List Char) : (headerLine s).chars.length = s.length := by
  unfold headerLine
  rw [length_chars_cons, length_chars_nil, Nat.add_zero]
  rfl

theorem length_keySpan (k : String) : (keySpan k).content.length = max 16 k.toList.length :=
  length_alignLeft 16 k.toList

theorem length_kvLine (k : String) (v : List Char) :
    (kvLine k v).chars.length = max 16 k.toList.length + v.length := by
  unfold kvLine
  rw [length_chars_cons, length_chars_cons, length_chars_nil, length_keySpan, Nat.add_zero]
  rfl

theorem length_kvWireLine (k : String) (v : List Char) :
    (kvWireLine k v).chars.length = max 16 k.toList.length + v.length := by
  unfold kvWireLine
  rw [length_chars_cons, length_chars_cons, length_chars_nil, length_keySpan, Nat.add_zero]
  rfl

theorem KeyShareLine.length_render_le (l : KeyShareLine) : l.render.chars.length ≤ l.text.length := by
  unfold KeyShareLine.render
  split
  · exact Nat.le_of_eq (length_wireLine l.text)
  · exact length_rawLine_le l.text

/-- A line for each of some values. -/
theorem linesSize_map_le {α : Type} {f : α → Line Style} {w : α → ℕ} {xs : List α}
    (h : ∀ x ∈ xs, (f x).chars.length + 1 ≤ w x) : linesSize (xs.map f) ≤ total w xs := by
  unfold linesSize
  rw [total_map]
  exact total_mono h

/-! ## Dumps -/

theorem length_dumpRow_le {row : ℕ} {chunk : Bytes} (hchunk : chunk.length ≤ 16) (hoffset : row * 16 < 65536) :
    (dumpRow 16 row chunk).length ≤ 74 := by
  have hfront := length_hexPadded (by omega : 0 < 4) (hoffset : row * 16 < 16 ^ 4)
  have hcolumn := length_hexColumn hchunk
  unfold dumpRow
  simp only [List.length_append, List.length_cons, List.length_nil, List.length_map, hfront, hcolumn]
  omega

/-- A dump of up to 64 KiB. -/
theorem linesSize_hexLines_le {bytes : Bytes} (h : bytes.length ≤ 65536) :
    linesSize (hexLines bytes) ≤ 75 * bytes.length + 8 := by
  unfold hexLines
  split
  · have hempty : "(empty)".toList.length = 7 := rfl
    rw [linesSize_cons, linesSize_nil, length_chars_cons, length_chars_nil]
    show "(empty)".toList.length + 0 + 1 + 0 ≤ _
    omega
  · rw [lines_hexDump]
    have hrows : ∀ row ∈ dumpRows bytes 16, (wireLine row).chars.length + 1 ≤ 75 := by
      intro row hrow
      obtain ⟨i, hi, rfl⟩ := List.mem_mapIdx.mp hrow
      have hstart : i * 16 < bytes.length := start_lt_of_chunk (dumpWidth_pos 16) hi
      have hchunk : (chunks (dumpWidth 16) bytes)[i].length ≤ 16 :=
        (chunks_spec (dumpWidth_pos 16) bytes).2 _ (List.getElem_mem hi)
      have hlength := length_dumpRow_le hchunk (by omega : i * 16 < 65536)
      rw [length_wireLine]
      exact Nat.succ_le_succ hlength
    have hsize := linesSize_map_le (w := fun _ => 75) hrows
    have hcount := length_chunks_le (dumpWidth 16) bytes
    have hlength : (dumpRows bytes 16).length = (chunks (dumpWidth 16) bytes).length := List.length_mapIdx
    rw [total_const, hlength] at hsize
    omega

end SeeHandshake

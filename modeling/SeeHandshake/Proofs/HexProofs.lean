import SeeHandshake.Util

/-!
# Reading a hex dump

A dump tells every byte, at any width of its rows, and its sidebars stand below one another as far as four
digits suffice for the offsets.
-/

namespace SeeHandshake

open Lib

theorem dumpWidth_pos (lineWidth : ℕ) : 0 < dumpWidth lineWidth := by
  unfold dumpWidth
  omega

/-! ## The characters of a row -/

theorem sidebarChar_ne_feed (b : UInt8) : sidebarChar b ≠ '\n' := by
  have hall : ∀ n : Fin 256, sidebarChar (UInt8.ofNat n) ≠ '\n' := by decide +kernel
  have hb := hall ⟨b.toNat, b.toNat_lt⟩
  rw [UInt8.ofNat_toNat] at hb
  exact hb

theorem digit_ne {n : ℕ} (h : n < 16) : n.digitChar ≠ '\n' ∧ n.digitChar ≠ ':' ∧ n.digitChar ≠ '|' := by
  have hall : ∀ m : Fin 16, Nat.digitChar m ≠ '\n' ∧ Nat.digitChar m ≠ ':' ∧ Nat.digitChar m ≠ '|' := by decide
  exact hall ⟨n, h⟩

theorem mem_padding {k : ℕ} {c : Char} (h : c ∈ (List.replicate k [' ', ' ', ' ']).flatten) : c = ' ' := by
  obtain ⟨l, hl, hc⟩ := List.mem_flatten.mp h
  rw [List.eq_of_mem_replicate hl] at hc
  have hspaces : [' ', ' ', ' '] = List.replicate 3 ' ' := rfl
  rw [hspaces] at hc
  exact List.eq_of_mem_replicate hc

theorem mem_hexColumn {width : ℕ} {chunk : Bytes} {c : Char} (h : c ∈ hexColumn width chunk) :
    c ≠ '\n' ∧ c ≠ '|' := by
  have hspace : ' ' ≠ '\n' ∧ ' ' ≠ '|' := by decide
  rcases List.mem_append.mp h with h | h
  · rcases mem_pairColumns h with rfl | ⟨m, hm, rfl⟩
    · exact hspace
    · exact ⟨(digit_ne hm).1, (digit_ne hm).2.2⟩
  · rw [mem_padding h]
    exact hspace

theorem dumpRow_no_feed (width row : ℕ) (chunk : Bytes) : '\n' ∉ dumpRow width row chunk := by
  intro h
  unfold dumpRow at h
  simp only [List.mem_append, List.mem_cons, List.mem_map, List.not_mem_nil, or_false] at h
  rcases h with h | h | h | h | h | h | h
  · obtain ⟨m, hm, hc⟩ := mem_hexPadded h
    exact (digit_ne hm).1 hc.symm
  · exact absurd h (by decide)
  · exact (mem_hexColumn h).1 rfl
  · exact absurd h (by decide)
  · exact absurd h (by decide)
  · obtain ⟨b, -, hb⟩ := h
    exact sidebarChar_ne_feed b hb
  · exact absurd h (by decide)

theorem stripCr_dumpRow (width row : ℕ) (chunk : Bytes) :
    stripCr (dumpRow width row chunk) = dumpRow width row chunk := by
  have hlast : (dumpRow width row chunk).getLast? = some '|' := by
    unfold dumpRow
    rw [← List.cons_append, ← List.cons_append, ← List.append_assoc, ← List.append_assoc, ← List.append_assoc,
      List.getLast?_concat]
  unfold stripCr
  rw [if_neg]
  rw [hlast]
  decide

/-! ## Reading a row -/

/-- Behind the pairs of a row stands a space, padding or not. -/
theorem hexColumn_eq (width : ℕ) (chunk : Bytes) (tail : List Char) :
    ∃ rest, hexColumn width chunk ++ ' ' :: tail = pairColumns chunk ++ ' ' :: rest := by
  unfold hexColumn
  cases width - chunk.length with
  | zero =>
    refine ⟨tail, ?_⟩
    rw [List.replicate_zero, List.flatten_nil, List.append_nil]
  | succ k =>
    refine ⟨' ' :: ' ' :: ((List.replicate k [' ', ' ', ' ']).flatten ++ ' ' :: tail), ?_⟩
    rw [List.replicate_succ, List.flatten_cons, List.append_assoc, List.append_assoc]
    rfl

theorem readDumpRow_dumpRow (width row : ℕ) (chunk : Bytes) :
    readDumpRow (dumpRow width row chunk) = some chunk := by
  have hoffset : ∀ c ∈ hexPadded 4 (row * width), decide (c ≠ ':') = true := by
    intro c hc
    obtain ⟨m, hm, rfl⟩ := mem_hexPadded hc
    exact decide_eq_true (digit_ne hm).2.1
  obtain ⟨rest, hrest⟩ := hexColumn_eq width chunk ('|' :: (chunk.map sidebarChar ++ ['|']))
  unfold readDumpRow dumpRow
  rw [List.dropWhile_append_of_pos hoffset, hrest]
  exact readPairs_pairColumns chunk rest

theorem readDumpRows_of {rows : List (List Char)} {parts : List Bytes}
    (h : List.Forall₂ (fun row part => readDumpRow row = some part) rows parts) :
    readDumpRows rows = some parts.flatten := by
  induction h with
  | nil => rfl
  | cons hrow _ ih =>
    rw [readDumpRows, hrow, ih, List.flatten_cons]
    rfl

/-- Numbered rows of which each tells its part. -/
theorem forall₂_mapIdx {f : ℕ → Bytes → List Char} (hf : ∀ i part, readDumpRow (f i part) = some part)
    (parts : List Bytes) :
    List.Forall₂ (fun row part => readDumpRow row = some part) (parts.mapIdx f) parts := by
  induction parts generalizing f with
  | nil => exact .nil
  | cons part parts ih =>
    rw [List.mapIdx_cons]
    exact .cons (hf 0 part) (ih fun i => hf (i + 1))

/-! ## Reading a dump -/

/-- The rows of a dump. -/
def dumpRows (bytes : Bytes) (lineWidth : ℕ) : List (List Char) :=
  (chunks (dumpWidth lineWidth) bytes).mapIdx (dumpRow (dumpWidth lineWidth))

theorem lines_hexDump (bytes : Bytes) (lineWidth : ℕ) :
    lines (hexDump bytes lineWidth) = dumpRows bytes lineWidth := by
  have hfeeds : (chunks (dumpWidth lineWidth) bytes).mapIdx (fun row chunk =>
      dumpRow (dumpWidth lineWidth) row chunk ++ ['\n']) =
        (dumpRows bytes lineWidth).map fun row => row ++ ['\n'] := by
    unfold dumpRows
    rw [List.mapIdx_eq_zipIdx_map, List.mapIdx_eq_zipIdx_map, List.map_map]
    rfl
  have hrow : ∀ row ∈ dumpRows bytes lineWidth, '\n' ∉ row ∧ stripCr row = row := by
    intro row hrow
    obtain ⟨i, hi, rfl⟩ := List.mem_mapIdx.mp hrow
    exact ⟨dumpRow_no_feed _ _ _, stripCr_dumpRow _ _ _⟩
  have hstrip : (dumpRows bytes lineWidth).map stripCr = dumpRows bytes lineWidth :=
    (List.map_congr_left fun row h => (hrow row h).2).trans (List.map_id _)
  unfold hexDump
  simp only
  rw [hfeeds, ← List.flatMap_def, lines_flatMap fun row h => (hrow row h).1, hstrip]

theorem readDumpRows_dumpRows (bytes : Bytes) (lineWidth : ℕ) :
    readDumpRows (dumpRows bytes lineWidth) = some bytes := by
  have hflatten := (chunks_spec (dumpWidth_pos lineWidth) bytes).1
  have hrows := forall₂_mapIdx (readDumpRow_dumpRow (dumpWidth lineWidth))
    (chunks (dumpWidth lineWidth) bytes)
  unfold dumpRows
  rw [readDumpRows_of hrows, hflatten]

/-! ## The sidebars -/

theorem length_hexColumn {width : ℕ} {chunk : Bytes} (h : chunk.length ≤ width) :
    (hexColumn width chunk).length = 3 * width := by
  have hpadding : (List.replicate (width - chunk.length) [' ', ' ', ' ']).flatten.length =
      3 * (width - chunk.length) := by
    rw [List.length_flatten, List.map_replicate, List.sum_replicate_nat]
    exact Nat.mul_comm _ _
  unfold hexColumn
  rw [List.length_append, length_pairColumns, hpadding]
  omega

/-- The column of the sidebar of a row. -/
def sidebarColumn (row : List Char) : ℕ := (row.takeWhile (· ≠ '|')).length

theorem sidebarColumn_dumpRow {width row : ℕ} {chunk : Bytes} (hchunk : chunk.length ≤ width)
    (hoffset : row * width < 65536) : sidebarColumn (dumpRow width row chunk) = 8 + 3 * width := by
  have hfront : ∀ c ∈ hexPadded 4 (row * width) ++ ([':', ' ', ' '] ++ (hexColumn width chunk ++ [' '])),
      decide (c ≠ '|') = true := by
    intro c hc
    simp only [List.mem_append, List.mem_cons, List.not_mem_nil, or_false] at hc
    rcases hc with hc | (rfl | rfl | rfl) | hc | rfl
    · obtain ⟨m, hm, rfl⟩ := mem_hexPadded hc
      exact decide_eq_true (digit_ne hm).2.2
    · rfl
    · rfl
    · rfl
    · exact decide_eq_true (mem_hexColumn hc).2
    · rfl
  have hsplit : dumpRow width row chunk =
      (hexPadded 4 (row * width) ++ ([':', ' ', ' '] ++ (hexColumn width chunk ++ [' ']))) ++
        '|' :: (chunk.map sidebarChar ++ ['|']) := by
    unfold dumpRow
    simp only [List.append_assoc, List.cons_append, List.nil_append]
  have hlength := length_hexPadded (by omega : 0 < 4) (hoffset : row * width < 16 ^ 4)
  unfold sidebarColumn
  rw [hsplit, List.takeWhile_append_of_pos hfront]
  simp only [List.length_append, List.length_cons, List.length_nil, hlength, length_hexColumn hchunk,
    List.takeWhile_cons, ne_eq, not_true_eq_false, decide_false, Bool.false_eq_true, if_false]
  omega

/-- A dump is read back, and up to 64 KiB its sidebars are aligned. -/
theorem readDump_hexDump (bytes : Bytes) (lineWidth : ℕ) :
    readDump (hexDump bytes lineWidth) = some bytes ∧
      (bytes.length ≤ 65536 → ∀ row ∈ lines (hexDump bytes lineWidth),
        sidebarColumn row = 8 + 3 * dumpWidth lineWidth) := by
  refine ⟨?_, ?_⟩
  · unfold readDump
    rw [lines_hexDump, readDumpRows_dumpRows]
  · intro hbytes row hrow
    rw [lines_hexDump] at hrow
    obtain ⟨i, hi, rfl⟩ := List.mem_mapIdx.mp hrow
    have hstart := start_lt_of_chunk (dumpWidth_pos lineWidth) hi
    have hchunk := (chunks_spec (dumpWidth_pos lineWidth) bytes).2 _ (List.getElem_mem hi)
    exact sidebarColumn_dumpRow hchunk (by omega)

/-- Two rows, the second of which is padded. -/
example : hexDump [0x68, 0x65, 0x79, 0x0a] 3 =
    "0000:  68 65 79  |hey|\n0003:  0a        |.|\n".toList := by decide

end SeeHandshake

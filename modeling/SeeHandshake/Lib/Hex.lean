import SeeHandshake.Lib.Numerals

/-!
# Bytes as hexadecimal text

Bytes printed as pairs of lower-case digits, numbers with zeros in front, texts aligned in a column, and
lists cut into chunks, as the Rust standard library does it. Pairs of digits are read back, whatever stands
behind the column that they fill.
-/

namespace SeeHandshake.Lib

/-! ## Columns -/

/-- `{:>w}`. -/
def alignRight (w : ℕ) (s : List Char) : List Char := List.replicate (w - s.length) ' ' ++ s

/-- `{:<w}`. -/
def alignLeft (w : ℕ) (s : List Char) : List Char := s ++ List.replicate (w - s.length) ' '

theorem length_alignLeft (w : ℕ) (s : List Char) : (alignLeft w s).length = max w s.length := by
  unfold alignLeft
  rw [List.length_append, List.length_replicate]
  omega

/-! ## Numbers -/

/-- `{:0wx}`. -/
def hexPadded (w n : ℕ) : List Char :=
  let digits := Nat.toDigits 16 n
  List.replicate (w - digits.length) '0' ++ digits

/-- A number that fits its column fills it. -/
theorem length_hexPadded {w n : ℕ} (hw : 0 < w) (hn : n < 16 ^ w) : (hexPadded w n).length = w := by
  have hdigits := (Nat.length_toDigits_le_iff (by omega : 1 < 16) hw).mpr hn
  unfold hexPadded
  simp only
  rw [List.length_append, List.length_replicate]
  omega

theorem mem_toDigits {n : ℕ} {c : Char} (h : c ∈ Nat.toDigits 16 n) : ∃ m < 16, c = m.digitChar := by
  induction n using Nat.strong_induction_on with
  | _ n ih =>
    by_cases hn : n < 16
    · rw [Nat.toDigits_of_lt_base hn, List.mem_singleton] at h
      exact ⟨n, hn, h⟩
    · rw [Nat.toDigits_of_base_le (by omega) (by omega), List.mem_append, List.mem_singleton] at h
      rcases h with h | h
      · exact ih (n / 16) (by omega) h
      · exact ⟨n % 16, by omega, h⟩

theorem mem_hexPadded {w n : ℕ} {c : Char} (h : c ∈ hexPadded w n) : ∃ m < 16, c = m.digitChar := by
  unfold hexPadded at h
  simp only [List.mem_append] at h
  rcases h with h | h
  · exact ⟨0, by omega, List.eq_of_mem_replicate h⟩
  · exact mem_toDigits h

/-! ## Pairs of digits -/

/-- `{:02x}` of a byte. -/
def hexPair (b : UInt8) : List Char := [Nat.digitChar (b.toNat / 16), Nat.digitChar (b.toNat % 16)]

/-- The byte of two digits. -/
def readPair (hi lo : Char) : Option UInt8 := do
  let hi ← toDigit 16 hi
  let lo ← toDigit 16 lo
  return UInt8.ofNat (hi * 16 + lo)

/-- The bytes of pairs of digits with a space between them, up to a pair with none behind it or to a second
space. -/
def readPairs : List Char → Option (List UInt8)
  | [] => some []
  | ' ' :: _ => some []
  | hi :: lo :: ' ' :: rest => do
    let b ← readPair hi lo
    let bytes ← readPairs rest
    return b :: bytes
  | hi :: lo :: _ => (readPair hi lo).map fun b => [b]
  | _ :: [] => none

/-- Pairs of digits with a space between them. -/
def spacedPairs (bytes : List UInt8) : List Char := List.intercalate [' '] (bytes.map hexPair)

/-- Pairs of digits with a space behind each. -/
def pairColumns (bytes : List UInt8) : List Char := bytes.flatMap fun b => hexPair b ++ [' ']

theorem toDigit_lower {n : ℕ} (h : n < 16) : toDigit 16 n.digitChar = some n := by
  have hall : ∀ m : Fin 16, toDigit 16 (Nat.digitChar m) = some m.val := by decide
  exact hall ⟨n, h⟩

theorem digitChar_ne_space {n : ℕ} (h : n < 16) : n.digitChar ≠ ' ' := by
  have hall : ∀ m : Fin 16, Nat.digitChar m ≠ ' ' := by decide
  exact hall ⟨n, h⟩

theorem readPair_hexPair (b : UInt8) :
    readPair (Nat.digitChar (b.toNat / 16)) (Nat.digitChar (b.toNat % 16)) = some b := by
  have hb := b.toNat_lt
  have hvalue : b.toNat / 16 * 16 + b.toNat % 16 = b.toNat := by omega
  unfold readPair
  rw [toDigit_lower (by omega), toDigit_lower (by omega)]
  show some (UInt8.ofNat (b.toNat / 16 * 16 + b.toNat % 16)) = some b
  rw [hvalue, UInt8.ofNat_toNat]

/-- A pair and a space. -/
theorem readPairs_cons (b : UInt8) (rest : List Char) :
    readPairs (hexPair b ++ ' ' :: rest) = (readPairs rest).map fun bytes => b :: bytes := by
  have hb := b.toNat_lt
  have hspace := digitChar_ne_space (by omega : b.toNat / 16 < 16)
  show readPairs (_ :: _ :: ' ' :: rest) = _
  rw [readPairs]
  · rw [readPair_hexPair]
    cases readPairs rest <;> rfl
  · exact hspace

/-- The pairs of a column are read, up to the space that ends it. -/
theorem readPairs_pairColumns (bytes : List UInt8) (rest : List Char) :
    readPairs (pairColumns bytes ++ ' ' :: rest) = some bytes := by
  induction bytes with
  | nil => rfl
  | cons b bytes ih =>
    have hcons : pairColumns (b :: bytes) ++ ' ' :: rest =
        hexPair b ++ ' ' :: (pairColumns bytes ++ ' ' :: rest) := by
      unfold pairColumns
      rw [List.flatMap_cons, List.append_assoc, List.append_assoc, List.singleton_append]
    rw [hcons, readPairs_cons, ih, Option.map_some]

theorem readPairs_hexPair (b : UInt8) : readPairs (hexPair b) = some [b] := by
  have hb := b.toNat_lt
  have hspace := digitChar_ne_space (by omega : b.toNat / 16 < 16)
  show readPairs [_, _] = _
  rw [readPairs]
  · rw [readPair_hexPair, Option.map_some]
  · exact hspace
  · intro rest h
    cases h

theorem spacedPairs_cons (b c : UInt8) (bytes : List UInt8) :
    spacedPairs (b :: c :: bytes) = hexPair b ++ ' ' :: spacedPairs (c :: bytes) := by
  unfold spacedPairs
  rw [List.map_cons, List.map_cons, List.intercalate_cons_cons, List.append_assoc, List.singleton_append]

/-- Bytes printed in a row are read back. -/
theorem readPairs_spacedPairs (bytes : List UInt8) : readPairs (spacedPairs bytes) = some bytes := by
  induction bytes with
  | nil => rfl
  | cons b bytes ih =>
    cases bytes with
    | nil =>
      show readPairs (List.intercalate [' '] [hexPair b]) = _
      rw [List.intercalate_singleton, readPairs_hexPair]
    | cons c bytes => rw [spacedPairs_cons, readPairs_cons, ih, Option.map_some]

theorem mem_pairColumns {bytes : List UInt8} {c : Char} (h : c ∈ pairColumns bytes) :
    c = ' ' ∨ ∃ m < 16, c = m.digitChar := by
  obtain ⟨b, -, hc⟩ := List.mem_flatMap.mp h
  have hb := b.toNat_lt
  rcases List.mem_append.mp hc with hc | hc
  · rcases List.mem_cons.mp hc with rfl | hc
    · exact .inr ⟨b.toNat / 16, by omega, rfl⟩
    · exact .inr ⟨b.toNat % 16, by omega, List.mem_singleton.mp hc⟩
  · exact .inl (List.mem_singleton.mp hc)

theorem length_pairColumns (bytes : List UInt8) : (pairColumns bytes).length = 3 * bytes.length := by
  unfold pairColumns
  rw [List.length_flatMap]
  induction bytes with
  | nil => rfl
  | cons b bytes ih =>
    rw [List.map_cons, List.sum_cons, ih, List.length_cons]
    show 3 + 3 * bytes.length = _
    omega

theorem length_spacedPairs_le (bytes : List UInt8) : (spacedPairs bytes).length ≤ 3 * bytes.length := by
  induction bytes with
  | nil => exact Nat.le_refl 0
  | cons b bytes ih =>
    cases bytes with
    | nil =>
      show (List.intercalate [' '] [hexPair b]).length ≤ 3
      rw [List.intercalate_singleton]
      exact Nat.le_succ 2
    | cons c bytes =>
      have hpair : (hexPair b).length = 2 := rfl
      rw [spacedPairs_cons, List.length_append, List.length_cons, hpair, List.length_cons]
      omega

/-! ## Chunks -/

section Chunks

variable {α : Type}

/-- The chunks of a list, at most `fuel` of them. -/
def chunksUpTo (n : ℕ) : ℕ → List α → List (List α)
  | 0, _ => []
  | fuel + 1, xs => if xs.isEmpty then [] else xs.take n :: chunksUpTo n fuel (xs.drop n)

/-- `xs.chunks(n)`. -/
def chunks (n : ℕ) (xs : List α) : List (List α) := chunksUpTo n xs.length xs

theorem chunksUpTo_nil (n fuel : ℕ) : chunksUpTo n fuel ([] : List α) = [] := by
  cases fuel <;> rfl

theorem chunksUpTo_eq {n : ℕ} (hn : 0 < n) {fuel fuel' : ℕ} {xs : List α} (h : xs.length ≤ fuel)
    (h' : xs.length ≤ fuel') : chunksUpTo n fuel xs = chunksUpTo n fuel' xs := by
  induction fuel generalizing fuel' xs with
  | zero =>
    obtain rfl := List.length_eq_zero_iff.mp (Nat.le_zero.mp h)
    rw [chunksUpTo_nil, chunksUpTo_nil]
  | succ fuel ih =>
    cases xs with
    | nil => rw [chunksUpTo_nil, chunksUpTo_nil]
    | cons x xs =>
      cases fuel' with
      | zero => exact absurd h' (Nat.not_succ_le_zero _)
      | succ fuel' =>
        have hdrop : ((x :: xs).drop n).length ≤ xs.length := by
          rw [List.length_drop, List.length_cons]
          omega
        rw [List.length_cons] at h h'
        have hrest : chunksUpTo n fuel ((x :: xs).drop n) = chunksUpTo n fuel' ((x :: xs).drop n) :=
          ih (by omega) (by omega)
        rw [chunksUpTo, chunksUpTo, hrest]

/-- A list that is not empty: its first chunk, and those of what is behind it. -/
theorem chunks_cons {n : ℕ} (hn : 0 < n) {xs : List α} (hxs : xs ≠ []) :
    chunks n xs = xs.take n :: chunks n (xs.drop n) := by
  obtain ⟨x, xs, rfl⟩ := List.exists_cons_of_ne_nil hxs
  have hdrop : ((x :: xs).drop n).length ≤ xs.length := by
    rw [List.length_drop, List.length_cons]
    omega
  show chunksUpTo n (xs.length + 1) (x :: xs) = _
  rw [chunksUpTo, chunksUpTo_eq hn hdrop (Nat.le_refl _)]
  rfl

/-- The chunks make up the list, and none of them is longer than `n`. -/
theorem chunks_spec {n : ℕ} (hn : 0 < n) (xs : List α) :
    (chunks n xs).flatten = xs ∧ ∀ chunk ∈ chunks n xs, chunk.length ≤ n := by
  induction hlen : xs.length using Nat.strong_induction_on generalizing xs with
  | _ len ih =>
    by_cases hxs : xs = []
    · subst hxs
      exact ⟨rfl, fun _ hchunk => absurd hchunk List.not_mem_nil⟩
    · have hpos := List.length_pos_iff.mpr hxs
      have hdrop : (xs.drop n).length < len := by
        rw [List.length_drop]
        omega
      obtain ⟨hflatten, hle⟩ := ih _ hdrop (xs.drop n) rfl
      rw [chunks_cons hn hxs]
      refine ⟨?_, ?_⟩
      · rw [List.flatten_cons, hflatten, List.take_append_drop]
      · intro chunk hchunk
        rcases List.mem_cons.mp hchunk with rfl | hchunk
        · exact List.length_take_le n xs
        · exact hle chunk hchunk

/-- A chunk begins inside the list. -/
theorem start_lt_of_chunk {n : ℕ} (hn : 0 < n) {xs : List α} {i : ℕ} (hi : i < (chunks n xs).length) :
    i * n < xs.length := by
  induction i generalizing xs with
  | zero =>
    rw [Nat.zero_mul]
    refine List.length_pos_iff.mpr ?_
    rintro rfl
    exact Nat.not_lt_zero _ hi
  | succ i ih =>
    have hxs : xs ≠ [] := by
      rintro rfl
      exact Nat.not_lt_zero _ hi
    rw [chunks_cons hn hxs, List.length_cons] at hi
    have hlt := ih (Nat.lt_of_succ_lt_succ hi)
    rw [List.length_drop] at hlt
    rw [Nat.succ_mul]
    omega

/-- There are at most as many chunks as there are elements. -/
theorem length_chunksUpTo_le (n fuel : ℕ) (xs : List α) : (chunksUpTo n fuel xs).length ≤ fuel := by
  induction fuel generalizing xs with
  | zero => exact Nat.le_refl 0
  | succ fuel ih =>
    rw [chunksUpTo]
    by_cases hxs : xs.isEmpty
    · rw [if_pos hxs]
      exact Nat.zero_le _
    · rw [if_neg hxs, List.length_cons]
      exact Nat.succ_le_succ (ih _)

theorem length_chunks_le (n : ℕ) (xs : List α) : (chunks n xs).length ≤ xs.length :=
  length_chunksUpTo_le n _ xs

end Chunks

end SeeHandshake.Lib

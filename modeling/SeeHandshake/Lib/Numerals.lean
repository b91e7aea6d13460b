import Mathlib.Algebra.Group.Nat.Defs
import Mathlib.Tactic.Ring
import SeeHandshake.Lib.Text

/-!
# Numerals

Numbers of a fixed width read in a radix, as `from_str_radix` and `parse` of the Rust standard library read
them, and numbers printed in decimal and in hexadecimal of a fixed width. A number that is printed is read
back, whatever the bound of the reader above it.
-/

namespace SeeHandshake.Lib

/-! ## Reading -/

/-- `char::to_digit`. -/
def toDigit (radix : ℕ) (c : Char) : Option ℕ :=
  let n := c.toNat
  let digit :=
    if 48 ≤ n ∧ n ≤ 57 then some (n - 48)
    else if 97 ≤ n ∧ n ≤ 122 then some (n - 87)
    else if 65 ≤ n ∧ n ≤ 90 then some (n - 55)
    else none
  digit.filter (· < radix)

/-- The digits of a number below `bound` behind those of the value `value`. -/
def digitsValue (radix bound : ℕ) (value : ℕ) : List Char → Option ℕ
  | [] => some value
  | c :: rest => do
    let digit ← toDigit radix c
    if value * radix + digit < bound then digitsValue radix bound (value * radix + digit) rest else none

/-- `from_str_radix` of the unsigned integers below `bound`: one or more digits, behind a plus sign or
not. -/
def fromStrRadix (radix bound : ℕ) : List Char → Option ℕ
  | [] => none
  | '+' :: c :: rest => digitsValue radix bound 0 (c :: rest)
  | digits => digitsValue radix bound 0 digits

theorem digitsValue_append (radix bound value : ℕ) (s t : List Char) :
    digitsValue radix bound value (s ++ t) =
      (digitsValue radix bound value s).bind fun value' => digitsValue radix bound value' t := by
  induction s generalizing value with
  | nil => rfl
  | cons c s ih =>
    rw [List.cons_append, digitsValue, digitsValue]
    cases toDigit radix c with
    | none => rfl
    | some digit =>
      show (if _ then _ else none) = (if _ then _ else none : Option ℕ).bind _
      by_cases h : value * radix + digit < bound
      · rw [if_pos h, if_pos h, ih]
      · rw [if_neg h, if_neg h]
        rfl

theorem digitsValue_singleton {radix bound value digit : ℕ} {c : Char}
    (hc : toDigit radix c = some digit) (h : value * radix + digit < bound) :
    digitsValue radix bound value [c] = some (value * radix + digit) := by
  rw [digitsValue, hc]
  exact if_pos h

/-- Without a sign. -/
theorem fromStrRadix_eq {radix bound : ℕ} {c : Char} (hc : c ≠ '+') (rest : List Char) :
    fromStrRadix radix bound (c :: rest) = digitsValue radix bound 0 (c :: rest) := by
  unfold fromStrRadix
  split
  · contradiction
  · rename_i h
    exact absurd (List.cons.inj h).1 hc
  · rfl

/-! ## Printing -/

/-- A digit of a hexadecimal number in upper case. -/
def hexDigit (n : ℕ) : Char := if n < 10 then Char.ofNat (48 + n) else Char.ofNat (55 + n)

/-- The last `w` hexadecimal digits of `n`, as `%0wX` prints them. -/
def hexFixed : ℕ → ℕ → List Char
  | 0, _ => []
  | w + 1, n => hexFixed w (n / 16) ++ [hexDigit (n % 16)]

/-- The decimal digits of `n`, as `%u` prints them. -/
def decimal (n : ℕ) : List Char := Nat.toDigits 10 n

theorem toDigit_hexDigit {n : ℕ} (h : n < 16) : toDigit 16 (hexDigit n) = some n := by
  have hall : ∀ m : Fin 16, toDigit 16 (hexDigit m) = some m.val := by decide
  exact hall ⟨n, h⟩

theorem hexFixed_length (w n : ℕ) : (hexFixed w n).length = w := by
  induction w generalizing n with
  | zero => rfl
  | succ w ih => rw [hexFixed, List.length_append, ih, List.length_singleton]

theorem mem_hexFixed {w n : ℕ} {c : Char} (h : c ∈ hexFixed w n) : ∃ m < 16, c = hexDigit m := by
  induction w generalizing n with
  | zero => exact absurd h List.not_mem_nil
  | succ w ih =>
    rw [hexFixed, List.mem_append, List.mem_singleton] at h
    rcases h with h | h
    · exact ih h
    · exact ⟨n % 16, Nat.mod_lt n (by omega), h⟩

/-- The hexadecimal digits behind those of the value `value`. -/
theorem digitsValue_hexFixed {bound value w n : ℕ} (hn : n < 16 ^ w) (h : value * 16 ^ w + n < bound) :
    digitsValue 16 bound value (hexFixed w n) = some (value * 16 ^ w + n) := by
  induction w generalizing n with
  | zero =>
    rw [pow_zero] at hn
    obtain rfl : n = 0 := by omega
    rw [hexFixed, digitsValue, pow_zero, Nat.mul_one, Nat.add_zero]
  | succ w ih =>
    rw [pow_succ] at hn h
    have hsplit : value * (16 ^ w * 16) + n = (value * 16 ^ w + n / 16) * 16 + n % 16 := by
      have hn' := Nat.div_add_mod n 16
      ring_nf at hn' ⊢
      omega
    rw [hsplit] at h
    rw [hexFixed, digitsValue_append, ih (by omega) (by omega)]
    show digitsValue 16 bound (value * 16 ^ w + n / 16) [hexDigit (n % 16)] = _
    rw [digitsValue_singleton (toDigit_hexDigit (Nat.mod_lt n (by omega))) h, pow_succ, hsplit]

theorem fromStrRadix_hexFixed {bound w n : ℕ} (hn : n < 16 ^ (w + 1)) (h : n < bound) :
    fromStrRadix 16 bound (hexFixed (w + 1) n) = some n := by
  have hread := @digitsValue_hexFixed bound 0 (w + 1) n hn (by omega)
  rw [Nat.zero_mul, Nat.zero_add] at hread
  cases hs : hexFixed (w + 1) n with
  | nil =>
    have hlen := hexFixed_length (w + 1) n
    rw [hs] at hlen
    cases hlen
  | cons c rest =>
    have hc : c ≠ '+' := by
      obtain ⟨m, hm, rfl⟩ := mem_hexFixed (hs ▸ List.mem_cons_self : c ∈ hexFixed (w + 1) n)
      have hall : ∀ m : Fin 16, hexDigit m ≠ '+' := by decide
      exact hall ⟨m, hm⟩
    rw [fromStrRadix_eq hc, ← hs, hread]

theorem toDigit_digitChar {n : ℕ} (h : n < 10) : toDigit 10 n.digitChar = some n := by
  have hall : ∀ m : Fin 10, toDigit 10 (Nat.digitChar m) = some m.val := by decide
  exact hall ⟨n, h⟩

/-- The digits of `n`: those of `n / 10`, if there are any, and the last one. -/
theorem decimal_eq (n : ℕ) :
    decimal n = (if n < 10 then [] else decimal (n / 10)) ++ [(n % 10).digitChar] := by
  unfold decimal
  by_cases h : n < 10
  · rw [if_pos h, Nat.toDigits_of_lt_base h, Nat.mod_eq_of_lt h, List.nil_append]
  · rw [if_neg h, Nat.toDigits_of_base_le (by omega) (by omega)]

theorem decimal_ne_nil (n : ℕ) : decimal n ≠ [] := by
  rw [decimal_eq]
  exact List.append_ne_nil_of_right_ne_nil _ (List.cons_ne_nil _ _)

theorem mem_decimal {n : ℕ} {c : Char} (h : c ∈ decimal n) : ∃ m < 10, c = m.digitChar := by
  induction n using Nat.strong_induction_on with
  | _ n ih =>
    rw [decimal_eq, List.mem_append, List.mem_singleton] at h
    rcases h with h | h
    · by_cases hn : n < 10
      · rw [if_pos hn] at h
        exact absurd h List.not_mem_nil
      · rw [if_neg hn] at h
        exact ih (n / 10) (by omega) h
    · exact ⟨n % 10, Nat.mod_lt n (by omega), h⟩

theorem digitsValue_decimal {bound n : ℕ} (h : n < bound) :
    digitsValue 10 bound 0 (decimal n) = some n := by
  induction n using Nat.strong_induction_on with
  | _ n ih =>
    have hdigit := toDigit_digitChar (Nat.mod_lt n (by omega : 0 < 10))
    rw [decimal_eq, digitsValue_append]
    by_cases hn : n < 10
    · rw [if_pos hn, digitsValue, Option.bind_some,
        digitsValue_singleton hdigit (by omega)]
      exact congrArg some (by omega)
    · rw [if_neg hn, ih (n / 10) (by omega) (by omega), Option.bind_some,
        digitsValue_singleton hdigit (by omega)]
      exact congrArg some (by omega)

theorem fromStrRadix_decimal {bound n : ℕ} (h : n < bound) : fromStrRadix 10 bound (decimal n) = some n := by
  cases hs : decimal n with
  | nil => exact absurd hs (decimal_ne_nil n)
  | cons c rest =>
    have hc : c ≠ '+' := by
      obtain ⟨m, hm, rfl⟩ := mem_decimal (hs ▸ List.mem_cons_self : c ∈ decimal n)
      have hall : ∀ m : Fin 10, Nat.digitChar m ≠ '+' := by decide
      exact hall ⟨m, hm⟩
    rw [fromStrRadix_eq hc, ← hs, digitsValue_decimal h]

/-! ## Numbers as fields -/

theorem isAsciiWhitespace_hexDigit {n : ℕ} (h : n < 16) : isAsciiWhitespace (hexDigit n) = false := by
  have hall : ∀ m : Fin 16, isAsciiWhitespace (hexDigit m) = false := by decide
  exact hall ⟨n, h⟩

theorem hexFixed_no_space {w n : ℕ} : ∀ c ∈ hexFixed w n, isAsciiWhitespace c = false := by
  intro c hc
  obtain ⟨m, hm, rfl⟩ := mem_hexFixed hc
  exact isAsciiWhitespace_hexDigit hm

theorem hexFixed_ne_nil (w n : ℕ) : hexFixed (w + 1) n ≠ [] :=
  List.append_ne_nil_of_right_ne_nil _ (List.cons_ne_nil _ _)

theorem utf8Len_hexFixed (w n : ℕ) : utf8Len (hexFixed w n) = w := by
  have hall : ∀ m : Fin 16, (hexDigit m).utf8Size = 1 := by decide
  induction w generalizing n with
  | zero => rfl
  | succ w ih =>
    rw [hexFixed, utf8Len_append, ih, utf8Len_cons, utf8Len_nil]
    exact congrArg (w + ·) (hall ⟨n % 16, Nat.mod_lt n (by omega)⟩)

/-- A hexadecimal number of `w + 1` digits. -/
def hexField (w n : ℕ) : Field := ⟨hexFixed (w + 1) n, hexFixed_ne_nil w n, hexFixed_no_space⟩

theorem decimal_no_space {n : ℕ} : ∀ c ∈ decimal n, isAsciiWhitespace c = false := by
  have hall : ∀ m : Fin 10, isAsciiWhitespace (Nat.digitChar m) = false := by decide
  intro c hc
  obtain ⟨m, hm, rfl⟩ := mem_decimal hc
  exact hall ⟨m, hm⟩

/-- A decimal number. -/
def decimalField (n : ℕ) : Field := ⟨decimal n, decimal_ne_nil n, decimal_no_space⟩

end SeeHandshake.Lib

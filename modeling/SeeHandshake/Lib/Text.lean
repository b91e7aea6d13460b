import Mathlib.Data.List.DropRight
import SeeHandshake.Lib.Checked

/-!
# Text

Strings as lists of characters, with the operations of the Rust standard library: lines, fields between
white space, white space at the ends, and lengths and cuts in UTF-8 bytes. What is printed line by line and
field by field is read back so.
-/

namespace SeeHandshake.Lib

/-! ## White space -/

/-- `char::is_ascii_whitespace`. -/
def isAsciiWhitespace (c : Char) : Bool :=
  c = ' ' || c = '\t' || c = '\n' || c = '\x0C' || c = '\r'

/-- `char::is_whitespace`: the Unicode property White_Space. -/
def isWhitespace (c : Char) : Bool :=
  let n := c.toNat
  (9 ≤ n && n ≤ 13) || n = 0x20 || n = 0x85 || n = 0xA0 || n = 0x1680 || (0x2000 ≤ n && n ≤ 0x200A) ||
    n = 0x2028 || n = 0x2029 || n = 0x202F || n = 0x205F || n = 0x3000

/-- `str::trim_end`. -/
def trimEnd (s : List Char) : List Char := s.rdropWhile isWhitespace

/-- `str::trim`. -/
def trim (s : List Char) : List Char := trimEnd (s.dropWhile isWhitespace)

/-- White space is trimmed off a text as far as it reaches. -/
theorem trimEnd_append (s t : List Char) :
    trimEnd (s ++ t) = if trimEnd t = [] then trimEnd s else s ++ trimEnd t := by
  unfold trimEnd List.rdropWhile
  rw [List.reverse_append, List.dropWhile_append]
  simp only [List.isEmpty_iff, List.reverse_eq_nil_iff]
  by_cases h : t.reverse.dropWhile isWhitespace = []
  · rw [if_pos h, if_pos h]
  · rw [if_neg h, if_neg h, List.reverse_append, List.reverse_reverse]

/-- A character is kept if it or one behind it is no white space. -/
theorem concat_isPrefix_trimEnd_iff {s t : List Char} {c : Char} :
    s ++ [c] <+: trimEnd (s ++ c :: t) ↔ ∃ c' ∈ c :: t, ¬ isWhitespace c' = true := by
  have hall : trimEnd (c :: t) = [] ↔ ∀ c' ∈ c :: t, isWhitespace c' = true :=
    List.rdropWhile_eq_nil_iff
  rw [trimEnd_append]
  constructor
  · intro h
    by_contra hno
    have hnil : trimEnd (c :: t) = [] := hall.mpr fun c' hc' => by_contra fun hw => hno ⟨c', hc', hw⟩
    rw [if_pos hnil] at h
    have hlen := (h.trans (List.rdropWhile_prefix isWhitespace s)).length_le
    rw [List.length_append, List.length_singleton] at hlen
    omega
  · rintro ⟨c', hc', hw⟩
    have hne : trimEnd (c :: t) ≠ [] := fun hnil => hw (hall.mp hnil c' hc')
    rw [if_neg hne]
    obtain ⟨c'', r, hcons⟩ := List.exists_cons_of_ne_nil hne
    obtain ⟨u, hu⟩ := List.rdropWhile_prefix isWhitespace (c :: t)
    have hhead : c'' :: (r ++ u) = c :: t := by
      rw [← List.cons_append, ← hcons]
      exact hu
    obtain rfl := (List.cons.inj hhead).1
    rw [hcons]
    exact ⟨r, by rw [List.append_assoc, List.singleton_append]⟩

/-! ## Lines -/

/-- A line without the carriage return at its end. -/
def stripCr (line : List Char) : List Char :=
  if line.getLast? = some '\r' then line.dropLast else line

/-- The lines of a text, the first of which has begun. -/
def linesFrom (line : List Char) : List Char → List (List Char)
  | [] => if line.isEmpty then [] else [line]
  | c :: rest => if c = '\n' then stripCr line :: linesFrom [] rest else linesFrom (line ++ [c]) rest

/-- `str::lines`: a line ends at a line feed, with or without a carriage return before it; the last one may
lack it. -/
def lines (text : List Char) : List (List Char) := linesFrom [] text

theorem linesFrom_append {line l : List Char} (hl : '\n' ∉ l) (rest : List Char) :
    linesFrom line (l ++ rest) = linesFrom (line ++ l) rest := by
  induction l generalizing line with
  | nil => rw [List.nil_append, List.append_nil]
  | cons c l ih =>
    have hc : c ≠ '\n' := fun h => hl (h ▸ List.mem_cons_self)
    rw [List.cons_append, linesFrom, if_neg hc, ih fun h => hl (List.mem_cons_of_mem c h),
      List.append_assoc, List.singleton_append]

/-- A line and its line feed. -/
theorem lines_append {l : List Char} (hl : '\n' ∉ l) (rest : List Char) :
    lines (l ++ '\n' :: rest) = stripCr l :: lines rest := by
  unfold lines
  rw [linesFrom_append hl, List.nil_append, linesFrom, if_pos rfl]

/-- A text of lines. -/
theorem lines_flatMap {ls : List (List Char)} (hls : ∀ l ∈ ls, '\n' ∉ l) :
    lines (ls.flatMap fun l => l ++ ['\n']) = ls.map stripCr := by
  induction ls with
  | nil => rfl
  | cons l ls ih =>
    rw [List.flatMap_cons, List.append_assoc, List.singleton_append,
      lines_append (hls l List.mem_cons_self), ih fun l' h => hls l' (List.mem_cons_of_mem l h),
      List.map_cons]

/-! ## Fields -/

/-- The fields of a text, the first of which has begun. -/
def fieldsFrom (field : List Char) : List Char → List (List Char)
  | [] => if field.isEmpty then [] else [field]
  | c :: rest =>
    if isAsciiWhitespace c then
      if field.isEmpty then fieldsFrom [] rest else field :: fieldsFrom [] rest
    else fieldsFrom (field ++ [c]) rest

/-- `str::split_ascii_whitespace`. -/
def splitAsciiWhitespace (text : List Char) : List (List Char) := fieldsFrom [] text

/-- A field: it is not empty and has no white space in it. -/
structure Field where
  chars : List Char
  ne_nil : chars ≠ []
  no_space : ∀ c ∈ chars, isAsciiWhitespace c = false

/-- White space inside a line. -/
structure Pad where
  chars : List Char
  space : ∀ c ∈ chars, isAsciiWhitespace c = true
  no_feed : '\n' ∉ chars

/-- White space inside a line that separates two fields. -/
structure Gap extends Pad where
  ne_nil : chars ≠ []

/-- No white space. -/
def Pad.empty : Pad := ⟨[], List.forall_mem_nil _, List.not_mem_nil⟩

theorem space_mem : ∀ c ∈ [' '], isAsciiWhitespace c = true := List.forall_mem_singleton.mpr rfl

theorem feed_notMem_space : '\n' ∉ [' '] := by
  rw [List.mem_singleton]
  decide

/-- One space. -/
def Gap.one : Gap := ⟨⟨[' '], space_mem, feed_notMem_space⟩, List.cons_ne_nil _ _⟩

theorem Field.no_feed (f : Field) : '\n' ∉ f.chars :=
  fun h => absurd (f.no_space _ h) (by decide)

theorem fieldsFrom_pad {pad : List Char} (hpad : ∀ c ∈ pad, isAsciiWhitespace c = true)
    (rest : List Char) : fieldsFrom [] (pad ++ rest) = fieldsFrom [] rest := by
  induction pad with
  | nil => rfl
  | cons c pad ih =>
    have hc := hpad c List.mem_cons_self
    rw [List.cons_append, fieldsFrom, if_pos hc, if_pos List.isEmpty_nil,
      ih fun c' h => hpad c' (List.mem_cons_of_mem c h)]

theorem fieldsFrom_chars {chars : List Char} (hchars : ∀ c ∈ chars, isAsciiWhitespace c = false)
    (field rest : List Char) :
    fieldsFrom field (chars ++ rest) = fieldsFrom (field ++ chars) rest := by
  induction chars generalizing field with
  | nil => rw [List.nil_append, List.append_nil]
  | cons c chars ih =>
    have hc : ¬ isAsciiWhitespace c = true := by
      rw [hchars c List.mem_cons_self]
      exact Bool.false_ne_true
    rw [List.cons_append, fieldsFrom, if_neg hc, ih fun c' h => hchars c' (List.mem_cons_of_mem c h),
      List.append_assoc, List.singleton_append]

/-- Where a field can end. -/
def Ends (rest : List Char) : Prop := ∀ c, rest.head? = some c → isAsciiWhitespace c = true

/-- A field behind white space. -/
theorem splitAsciiWhitespace_cons (pad : Pad) (f : Field) {rest : List Char} (hrest : Ends rest) :
    splitAsciiWhitespace (pad.chars ++ f.chars ++ rest) = f.chars :: splitAsciiWhitespace rest := by
  have hfull : ¬ f.chars.isEmpty = true := by
    rw [List.isEmpty_iff]
    exact f.ne_nil
  unfold splitAsciiWhitespace
  rw [List.append_assoc, fieldsFrom_pad pad.space, fieldsFrom_chars f.no_space, List.nil_append]
  cases rest with
  | nil => rw [fieldsFrom, if_neg hfull, fieldsFrom, if_pos List.isEmpty_nil]
  | cons c rest =>
    have hc := hrest c rfl
    rw [fieldsFrom, if_pos hc, if_neg hfull, fieldsFrom, if_pos hc, if_pos List.isEmpty_nil]

theorem splitAsciiWhitespace_pad (pad : Pad) : splitAsciiWhitespace pad.chars = [] := by
  have h := fieldsFrom_pad pad.space []
  rw [List.append_nil] at h
  exact h

/-- Fields with white space before, between and behind them. -/
def spaced (lead : Pad) (first : Field) (others : List (Gap × Field)) (tail : Pad) : List Char :=
  lead.chars ++ first.chars ++ (others.flatMap (fun p => p.1.chars ++ p.2.chars) ++ tail.chars)

theorem ends_pad (pad : Pad) : Ends pad.chars :=
  fun c hc => pad.space c (List.mem_of_mem_head? hc)

theorem ends_gap (gap : Gap) (rest : List Char) : Ends (gap.chars ++ rest) := by
  intro c hc
  cases hgap : gap.chars with
  | nil => exact absurd hgap gap.ne_nil
  | cons c' chars =>
    rw [hgap, List.cons_append, List.head?_cons] at hc
    obtain rfl := Option.some.inj hc
    exact gap.space c' (hgap ▸ List.mem_cons_self)

/-- Fields are read back, whatever the white space around them. -/
theorem splitAsciiWhitespace_spaced (lead : Pad) (first : Field) (others : List (Gap × Field)) (tail : Pad) :
    splitAsciiWhitespace (spaced lead first others tail) =
      first.chars :: others.map fun p => p.2.chars := by
  induction others generalizing lead first with
  | nil =>
    have hend : Ends tail.chars := ends_pad tail
    rw [spaced, List.flatMap_nil, List.nil_append, splitAsciiWhitespace_cons lead first hend,
      splitAsciiWhitespace_pad, List.map_nil]
  | cons p others ih =>
    obtain ⟨gap, f⟩ := p
    have hrest : ((gap, f) :: others).flatMap (fun p => p.1.chars ++ p.2.chars) ++ tail.chars =
        spaced gap.toPad f others tail := by
      rw [List.flatMap_cons, List.append_assoc]
      rfl
    have hend : Ends (spaced gap.toPad f others tail) := by
      unfold spaced
      rw [List.append_assoc]
      exact ends_gap gap _
    rw [spaced, hrest, splitAsciiWhitespace_cons lead first hend, ih, List.map_cons]

theorem spaced_no_feed (lead : Pad) (first : Field) (others : List (Gap × Field)) (tail : Pad) :
    '\n' ∉ spaced lead first others tail := by
  unfold spaced
  simp only [List.mem_append, List.mem_flatMap, not_or, not_exists, not_and]
  exact ⟨⟨lead.no_feed, first.no_feed⟩, fun p _ => ⟨p.1.no_feed, p.2.no_feed⟩, tail.no_feed⟩

/-- White space at the end is no field. -/
theorem fieldsFrom_space {c : Char} (hc : isAsciiWhitespace c = true) (field text : List Char) :
    fieldsFrom field (text ++ [c]) = fieldsFrom field text := by
  induction text generalizing field with
  | nil =>
    have hend : fieldsFrom [] [] = [] := rfl
    have hstep : fieldsFrom field [c] = if field.isEmpty then [] else [field] := by
      rw [fieldsFrom, if_pos hc, hend]
    rw [List.nil_append, hstep, fieldsFrom]
  | cons c' text ih =>
    rw [List.cons_append, fieldsFrom, fieldsFrom, ih, ih]

theorem splitAsciiWhitespace_stripCr (line : List Char) :
    splitAsciiWhitespace (stripCr line) = splitAsciiWhitespace line := by
  unfold stripCr
  by_cases hlast : line.getLast? = some '\r'
  · rw [if_pos hlast]
    have hline := List.dropLast_append_getLast? '\r' hlast
    rw [← hline, List.dropLast_concat]
    exact (fieldsFrom_space (by decide) [] _).symm
  · rw [if_neg hlast]

/-- `str::split_once`, at the first `sep`. -/
def splitOnce (sep : Char) : List Char → Option (List Char × List Char)
  | [] => none
  | c :: rest => if c = sep then some ([], rest) else (splitOnce sep rest).map fun p => (c :: p.1, p.2)

theorem splitOnce_append {sep : Char} {l : List Char} (hl : sep ∉ l) (rest : List Char) :
    splitOnce sep (l ++ sep :: rest) = some (l, rest) := by
  induction l with
  | nil => rw [List.nil_append, splitOnce, if_pos rfl]
  | cons c l ih =>
    have hc : c ≠ sep := fun h => hl (h ▸ List.mem_cons_self)
    rw [List.cons_append, splitOnce, if_neg hc, ih fun h => hl (List.mem_cons_of_mem c h), Option.map_some]

/-! ## UTF-8 lengths -/

/-- `str::len`: the length in UTF-8 bytes. -/
def utf8Len : List Char → ℕ
  | [] => 0
  | c :: s => c.utf8Size + utf8Len s

@[simp] theorem utf8Len_nil : utf8Len [] = 0 := rfl

@[simp] theorem utf8Len_cons (c : Char) (s : List Char) : utf8Len (c :: s) = c.utf8Size + utf8Len s := rfl

@[simp] theorem utf8Len_append (s t : List Char) : utf8Len (s ++ t) = utf8Len s + utf8Len t := by
  induction s with
  | nil => rw [List.nil_append, utf8Len_nil, Nat.zero_add]
  | cons c s ih => rw [List.cons_append, utf8Len_cons, utf8Len_cons, ih, Nat.add_assoc]

/-- A text at a byte offset that is a character boundary, cut in two. -/
def splitAtByte : List Char → ℕ → Option (List Char × List Char)
  | s, 0 => some ([], s)
  | [], _ + 1 => none
  | c :: s, n + 1 =>
    if c.utf8Size ≤ n + 1 then (splitAtByte s (n + 1 - c.utf8Size)).map fun p => (c :: p.1, p.2)
    else none

theorem splitAtByte_append (s t : List Char) : splitAtByte (s ++ t) (utf8Len s) = some (s, t) := by
  induction s with
  | nil => cases t <;> rfl
  | cons c s ih =>
    have hpos : utf8Len (c :: s) = utf8Len (c :: s) - 1 + 1 := by
      have hc := c.utf8Size_pos
      rw [utf8Len_cons]
      omega
    rw [List.cons_append, hpos, splitAtByte, ← hpos, utf8Len_cons, if_pos (Nat.le_add_right _ _),
      Nat.add_sub_cancel_left, ih, Option.map_some]

theorem splitAtByte_eq {s : List Char} {n : ℕ} {p : List Char × List Char}
    (h : splitAtByte s n = some p) : p.1 ++ p.2 = s ∧ utf8Len p.1 = n := by
  induction s, n using splitAtByte.induct generalizing p with
  | case1 s =>
    rw [splitAtByte] at h
    cases h
    exact ⟨rfl, rfl⟩
  | case2 n => cases h
  | case3 c s n hc ih =>
    rw [splitAtByte, if_pos hc] at h
    obtain ⟨q, hq, rfl⟩ := Option.map_eq_some_iff.mp h
    obtain ⟨happ, hlen⟩ := ih hq
    refine ⟨by rw [List.cons_append, happ], ?_⟩
    rw [utf8Len_cons, hlen]
    omega
  | case4 c s n hc =>
    rw [splitAtByte, if_neg hc] at h
    cases h

/-- A text of at least `n` bytes has a boundary at `n` or a character across it. -/
theorem splitAtByte_none {s : List Char} {n : ℕ} (hn : n ≤ utf8Len s) :
    splitAtByte s n = none ↔
      ∃ p c q, s = p ++ c :: q ∧ utf8Len p < n ∧ n < utf8Len p + c.utf8Size := by
  constructor
  · intro h
    induction s, n using splitAtByte.induct with
    | case1 s =>
      rw [splitAtByte] at h
      cases h
    | case2 n => exact absurd hn (Nat.not_succ_le_zero n)
    | case3 c s n hc ih =>
      rw [splitAtByte, if_pos hc, Option.map_eq_none_iff] at h
      rw [utf8Len_cons] at hn
      obtain ⟨p, c', q, rfl, hlt, hgt⟩ := ih (by omega) h
      refine ⟨c :: p, c', q, rfl, ?_, ?_⟩ <;> rw [utf8Len_cons] <;> omega
    | case4 c s n hc => exact ⟨[], c, s, rfl, Nat.succ_pos n, by rw [utf8Len_nil]; omega⟩
  · rintro ⟨p, c, q, rfl, hlt, hgt⟩
    by_contra hne
    obtain ⟨⟨l, r⟩, hsplit⟩ := Option.ne_none_iff_exists'.mp hne
    obtain ⟨happ, hlen⟩ := splitAtByte_eq hsplit
    -- The two prefixes of one text: neither can end between the ends of the other's characters.
    have happ' : l ++ r = p ++ c :: q := happ
    have hlen' : utf8Len l = n := hlen
    rcases List.append_eq_append_iff.mp happ' with ⟨m, rfl, -⟩ | ⟨m, rfl, hm⟩
    · rw [utf8Len_append] at hlt
      omega
    · cases m with
      | nil =>
        rw [List.append_nil] at hlen'
        omega
      | cons c' m =>
        rw [List.cons_append] at hm
        obtain ⟨rfl, -⟩ := List.cons.inj hm
        rw [utf8Len_append, utf8Len_cons] at hlen'
        omega

/-- `String::truncate`. -/
def truncate (s : List Char) (n : ℕ) : Panicking (List Char) :=
  if n ≤ utf8Len s then
    match splitAtByte s n with
    | some p => .ok p.1
    | none => .error .slice
  else .ok s

theorem truncate_append (s t : List Char) : truncate (s ++ t) (utf8Len s) = .ok s := by
  unfold truncate
  rw [if_pos (by rw [utf8Len_append]; exact Nat.le_add_right _ _), splitAtByte_append]

/-- Cutting to the length of a beginning. -/
theorem truncate_of_isPrefix {s t : List Char} (h : s <+: t) : truncate t (utf8Len s) = .ok s := by
  obtain ⟨r, rfl⟩ := h
  exact truncate_append s r

end SeeHandshake.Lib

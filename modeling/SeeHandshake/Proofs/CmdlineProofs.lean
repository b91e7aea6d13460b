import SeeHandshake.Origin.Linux

/-!
# Reading a command line

A command line is cut after 256 bytes of text, while a byte of 0x80 or more is a character of two bytes.
-/

namespace SeeHandshake

open Lib

/-! ## The text of a command line -/

/-- The text of a command line: bytes as characters, NUL as a space, white space at the end removed. -/
def cmdlineText (raw : Bytes) : List Char := trimEnd (raw.map cmdlineChar)

/-- The length of the text of some bytes. -/
def cmdlineLen (raw : Bytes) : ℕ := raw.length + raw.countP (0x80 ≤ ·)

/-- A character of two bytes lies across the cut: 255 bytes of text are in front of it, and not all of the
rest is white space. -/
def Straddles (raw : Bytes) : Prop :=
  ∃ front b rest, raw = front ++ b :: rest ∧ cmdlineLen front = 255 ∧ 0x80 ≤ b ∧
    ∃ b' ∈ b :: rest, ¬ isWhitespace (cmdlineChar b') = true

/-- What is shown of a command line: a beginning of its text, in at most 256 bytes, and three dots if it is
not the whole text. -/
def ShowsCmdline (raw : Bytes) (shown : List Char) : Prop :=
  ∃ p, p <+: cmdlineText raw ∧ utf8Len p ≤ CMDLINE_MAX_LEN ∧
    shown = p ++ if p = cmdlineText raw then [] else ['.', '.', '.']

theorem utf8Size_cmdlineChar (b : UInt8) : (cmdlineChar b).utf8Size = if 0x80 ≤ b then 2 else 1 := by
  have hall : ∀ n : Fin 256, (cmdlineChar (UInt8.ofNat n)).utf8Size = if 0x80 ≤ UInt8.ofNat n then 2 else 1 := by
    decide +kernel
  have hb := hall ⟨b.toNat, b.toNat_lt⟩
  rw [UInt8.ofNat_toNat] at hb
  exact hb

theorem utf8Len_map_cmdlineChar (raw : Bytes) : utf8Len (raw.map cmdlineChar) = cmdlineLen raw := by
  induction raw with
  | nil => rfl
  | cons b raw ih =>
    unfold cmdlineLen at ih ⊢
    rw [List.map_cons, utf8Len_cons, ih, utf8Size_cmdlineChar, List.countP_cons, List.length_cons]
    by_cases hb : 0x80 ≤ b
    · rw [if_pos hb, if_pos (decide_eq_true hb)]
      omega
    · rw [if_neg hb, if_neg (by rw [decide_eq_true_iff]; exact hb)]
      omega

theorem cmdlineText_isPrefix (raw : Bytes) : cmdlineText raw <+: raw.map cmdlineChar :=
  List.rdropWhile_prefix isWhitespace _

/-- `readCmdline` cuts a text that is too long. -/
theorem readCmdline_eq (raw : Bytes) :
    readCmdline (some raw) =
      if utf8Len (cmdlineText raw) > CMDLINE_MAX_LEN then
        (· ++ ['.', '.', '.']) <$> truncate (cmdlineText raw) CMDLINE_MAX_LEN
      else .ok (cmdlineText raw) := by
  have htrim : truncate (raw.map cmdlineChar) (utf8Len (cmdlineText raw)) = .ok (cmdlineText raw) :=
    truncate_of_isPrefix (cmdlineText_isPrefix raw)
  unfold readCmdline
  simp only [Option.getD_some]
  show (truncate (raw.map cmdlineChar) (utf8Len (cmdlineText raw))).bind _ = _
  rw [htrim]
  show (if _ then _ else _) = _
  by_cases hlen : utf8Len (cmdlineText raw) > CMDLINE_MAX_LEN
  · rw [if_pos hlen, if_pos hlen]
    cases truncate (cmdlineText raw) CMDLINE_MAX_LEN <;> rfl
  · rw [if_neg hlen, if_neg hlen]
    rfl

/-! ## The cut -/

/-- A byte is in the text if it or one behind it is no white space. -/
theorem concat_isPrefix_cmdlineText_iff {front rest : Bytes} {b : UInt8} :
    front.map cmdlineChar ++ [cmdlineChar b] <+: cmdlineText (front ++ b :: rest) ↔
      ∃ b' ∈ b :: rest, ¬ isWhitespace (cmdlineChar b') = true := by
  rw [cmdlineText, List.map_append, List.map_cons, concat_isPrefix_trimEnd_iff, ← List.map_cons]
  constructor
  · rintro ⟨c, hc, hw⟩
    obtain ⟨b', hb', rfl⟩ := List.mem_map.mp hc
    exact ⟨b', hb', hw⟩
  · rintro ⟨b', hb', hw⟩
    exact ⟨cmdlineChar b', List.mem_map_of_mem hb', hw⟩

variable {raw : Bytes}

/-- With a character across the cut, the text is too long and has no boundary there. -/
theorem Straddles.no_boundary (h : Straddles raw) :
    utf8Len (cmdlineText raw) > CMDLINE_MAX_LEN ∧ splitAtByte (cmdlineText raw) CMDLINE_MAX_LEN = none := by
  obtain ⟨front, b, rest, rfl, hfront, hb, hrest⟩ := h
  obtain ⟨q, hq⟩ := concat_isPrefix_cmdlineText_iff.mpr hrest
  rw [List.append_assoc, List.singleton_append] at hq
  have hlen : utf8Len (front.map cmdlineChar) = 255 := by rw [utf8Len_map_cmdlineChar, hfront]
  have hsize : (cmdlineChar b).utf8Size = 2 := by rw [utf8Size_cmdlineChar, if_pos hb]
  have hlong : utf8Len (cmdlineText (front ++ b :: rest)) > CMDLINE_MAX_LEN := by
    rw [← hq, utf8Len_append, utf8Len_cons, hlen, hsize]
    unfold CMDLINE_MAX_LEN
    omega
  refine ⟨hlong, (splitAtByte_none (Nat.le_of_lt hlong)).mpr ⟨_, _, q, hq.symm, ?_, ?_⟩⟩
  · rw [hlen]
    decide
  · rw [hlen, hsize]
    decide

/-- A text that is too long has a boundary at the cut or a character across it. -/
theorem straddles_of_no_boundary (hlong : utf8Len (cmdlineText raw) > CMDLINE_MAX_LEN)
    (hnone : splitAtByte (cmdlineText raw) CMDLINE_MAX_LEN = none) : Straddles raw := by
  obtain ⟨p, c, q, htext, hlt, hgt⟩ := (splitAtByte_none (Nat.le_of_lt hlong)).mp hnone
  -- The bytes of the text in front of the cut, and those from it on.
  obtain ⟨r, hr⟩ := cmdlineText_isPrefix raw
  rw [htext, List.append_assoc, List.cons_append] at hr
  obtain ⟨front, tail, rfl, rfl, htail⟩ := List.map_eq_append_iff.mp hr.symm
  obtain ⟨b, rest, rfl, rfl, -⟩ := List.map_eq_cons_iff.mp htail
  have hkept : front.map cmdlineChar ++ [cmdlineChar b] <+: cmdlineText (front ++ b :: rest) := by
    rw [htext]
    exact ⟨q, by rw [List.append_assoc, List.singleton_append]⟩
  rw [utf8Len_map_cmdlineChar, utf8Size_cmdlineChar] at hgt
  rw [utf8Len_map_cmdlineChar] at hlt
  unfold CMDLINE_MAX_LEN at hlt hgt
  by_cases hb : 0x80 ≤ b
  · rw [if_pos hb] at hgt
    exact ⟨front, b, rest, rfl, by omega, hb, concat_isPrefix_cmdlineText_iff.mp hkept⟩
  · rw [if_neg hb] at hgt
    omega

/-- A text whose cut is a boundary is shown as it should be. -/
theorem readCmdline_ok (h : ¬ Straddles raw) :
    ∃ shown, readCmdline (some raw) = .ok shown ∧ ShowsCmdline raw shown := by
  rw [readCmdline_eq]
  by_cases hlong : utf8Len (cmdlineText raw) > CMDLINE_MAX_LEN
  · obtain ⟨⟨p, q⟩, hsplit⟩ :=
      Option.ne_none_iff_exists'.mp fun hnone => h (straddles_of_no_boundary hlong hnone)
    obtain ⟨happ, hlen⟩ := splitAtByte_eq hsplit
    have hcut : truncate (cmdlineText raw) CMDLINE_MAX_LEN = .ok p := by
      rw [truncate, if_pos (Nat.le_of_lt hlong), hsplit]
    have hne : p ≠ cmdlineText raw := by
      rintro rfl
      exact absurd hlen (Nat.ne_of_gt hlong)
    rw [if_pos hlong, hcut]
    refine ⟨_, rfl, p, ⟨q, happ⟩, Nat.le_of_eq hlen, ?_⟩
    rw [if_neg hne]
  · rw [if_neg hlong]
    refine ⟨_, rfl, cmdlineText raw, List.prefix_rfl, Nat.le_of_not_lt hlong, ?_⟩
    rw [if_pos rfl, List.append_nil]

theorem readCmdline_panics (h : Straddles raw) : readCmdline (some raw) = .error .slice := by
  obtain ⟨hlong, hnone⟩ := h.no_boundary
  rw [readCmdline_eq, if_pos hlong, truncate, if_pos (Nat.le_of_lt hlong), hnone]
  rfl

/-- A command line is shown as it should be unless a character lies across the cut. -/
theorem readCmdline_shows_iff (raw : Bytes) :
    (∃ shown, readCmdline (some raw) = .ok shown ∧ ShowsCmdline raw shown) ↔ ¬ Straddles raw := by
  constructor
  · rintro ⟨shown, hok, -⟩ h
    rw [readCmdline_panics h] at hok
    cases hok
  · exact readCmdline_ok

/-- A letter, and behind it 128 letters that are not ASCII, in Latin-1. -/
theorem readCmdline_panics_latin1 :
    ¬ ∀ raw : Bytes, ∃ shown, readCmdline (some raw) = .ok shown ∧ ShowsCmdline raw shown := by
  intro h
  obtain ⟨shown, hok, -⟩ := h (0x61 :: List.replicate 128 0xE4)
  have hsplit : (0x61 :: List.replicate 128 0xE4 : Bytes) = (0x61 :: List.replicate 127 0xE4) ++ [0xE4] := by
    rw [List.cons_append, ← List.replicate_succ']
  have hfront : cmdlineLen (0x61 :: List.replicate 127 0xE4) = 255 := by decide +kernel
  have hstraddles : Straddles (0x61 :: List.replicate 128 0xE4) :=
    ⟨_, 0xE4, [], hsplit, hfront, by decide, 0xE4, List.mem_singleton_self _, by decide⟩
  rw [readCmdline_panics hstraddles] at hok
  cases hok

end SeeHandshake

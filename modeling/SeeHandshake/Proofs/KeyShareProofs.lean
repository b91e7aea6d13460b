import SeeHandshake.Proofs.TextSizeProofs

/-!
# The lines of key shares

The structured view of a key share does not panic, whatever the length of the key, and its lines are few. The
key can be read off it, but for compressed points and for hybrid keys that are abridged.
-/

namespace SeeHandshake

open Lib Panicking

/-! ## The size of the lines -/

/-- The size of lines about a key. -/
def keySize (ls : List KeyShareLine) : ℕ := total (fun l => l.text.length + 1) ls

theorem keySize_nil : keySize [] = 0 := rfl

theorem keySize_cons (l : KeyShareLine) (ls : List KeyShareLine) :
    keySize (l :: ls) = l.text.length + 1 + keySize ls := rfl

theorem keySize_append (ls ls' : List KeyShareLine) : keySize (ls ++ ls') = keySize ls + keySize ls' :=
  total_append _ ls ls'

theorem length_namedBytes_le {name : String} {bytes : Bytes} (hname : name.toList.length ≤ 16)
    (h : bytes.length < 65536) : (namedBytes name bytes).text.length ≤ 28 + 3 * bytes.length := by
  have hcount := length_byteCount_le (by omega : bytes.length < 100000)
  have hhex := length_hexInline_le bytes
  have hcolon : ": ".toList.length = 2 := rfl
  show (name.toList ++ ' ' :: byteCount bytes.length ++ ": ".toList ++ hexInline bytes).length ≤ _
  simp only [List.length_append, List.length_cons, hcolon]
  omega

theorem length_rawBytes_le (bytes : Bytes) : (rawBytes bytes).text.length ≤ 5 + 3 * bytes.length := by
  have hhex := length_hexInline_le bytes
  have hraw : "raw: ".toList.length = 5 := rfl
  show ("raw: ".toList ++ hexInline bytes).length ≤ _
  rw [List.length_append, hraw]
  omega

theorem keySize_montgomery_le {format curve : String} (hformat : format.toList.length ≤ 80)
    (hcurve : curve.toList.length ≤ 80) {n : ℕ} (hn : n < 100000) {bytes : Bytes} (h : bytes.length < 65536) :
    keySize (montgomeryStructure format curve n bytes) ≤ 1024 + 3 * bytes.length := by
  have hname : (namedBytes "u" bytes).text.length ≤ 28 + 3 * bytes.length :=
    length_namedBytes_le (by decide) h
  have hraw := length_rawBytes_le bytes
  have hexpected := length_decimal_le hn
  have hgot := length_decimal_le (by omega : bytes.length < 100000)
  unfold montgomeryStructure
  simp only
  split
  · simp only [keySize_append, keySize_cons, keySize_nil, KeyShareLine.ofText]
    omega
  · have h1 : "expected ".toList.length = 9 := rfl
    have h2 : " B, got ".toList.length = 8 := rfl
    have h3 : " B — non-standard encoding".toList.length = 26 := rfl
    simp only [keySize_append, keySize_cons, keySize_nil, KeyShareLine.ofText, List.length_append, h1, h2, h3]
    omega

theorem keySize_ffdhe_le {pBytes : ℕ} (hp : pBytes < 10000) {groupName : String}
    (hgroup : groupName.toList.length ≤ 16) {bytes : Bytes} (h : bytes.length < 65536) :
    keySize (ffdheStructure bytes pBytes groupName) ≤ 1024 + 3 * bytes.length := by
  have hname : (namedBytes "y" bytes).text.length ≤ 28 + 3 * bytes.length :=
    length_namedBytes_le (by decide) h
  have hraw := length_rawBytes_le bytes
  have hgot := length_decimal_le (by omega : bytes.length < 100000)
  have hexpected := length_decimal_le (by omega : pBytes < 100000)
  have hbits := length_decimal_le (by omega : pBytes * 8 < 100000)
  have h1 : "format: ".toList.length = 8 := rfl
  have h2 : " public value y = g^x mod p, big-endian".toList.length = 39 := rfl
  have h3 : "expected size: ".toList.length = 15 := rfl
  have h4 : " B (p is a ".toList.length = 11 := rfl
  have h5 : "-bit safe prime)".toList.length = 16 := rfl
  unfold ffdheStructure
  simp only
  split
  · simp only [keySize_append, keySize_cons, keySize_nil, KeyShareLine.ofText, List.length_append, h1, h2, h3,
      h4, h5]
    omega
  · have h6 : "size mismatch: got ".toList.length = 19 := rfl
    have h7 : " B — stripped leading zeros?".toList.length = 28 := rfl
    simp only [keySize_append, keySize_cons, keySize_nil, KeyShareLine.ofText, List.length_append, h1, h2, h3,
      h4, h5, h6, h7]
    omega

/-- The forms of a SEC1 point: what its structure says of it. -/
theorem sec1PointStructure_ok {bytes : Bytes} {coordLen : ℕ} (hcoord : coordLen < 1000) {curveDesc : String}
    (hcurve : curveDesc.toList.length ≤ 80) (h : bytes.length < 65536) :
    ∃ ls, sec1PointStructure bytes coordLen curveDesc = .ok ls ∧ keySize ls ≤ 1024 + 3 * bytes.length := by
  have hraw := length_rawBytes_le bytes
  have hgot := length_decimal_le (by omega : bytes.length < 100000)
  have hlen := length_decimal_le (by omega : coordLen < 100000)
  have htotal := length_decimal_le (by omega : 1 + 2 * coordLen < 100000)
  have h1 : "format: SEC1 point on ".toList.length = 22 := rfl
  have h2 : ", big-endian coordinates".toList.length = 24 := rfl
  have h3 : "unrecognized SEC1 prefix; expected 0x04/0x02/0x03 — length ".toList.length = 59 := rfl
  have h4 : " B".toList.length = 2 := rfl
  unfold sec1PointStructure
  simp only
  cases hhead : bytes.head? with
  | none =>
    refine ⟨_, rfl, ?_⟩
    simp only [keySize_append, keySize_cons, keySize_nil, KeyShareLine.ofText, List.length_append, h1, h2, h3,
      h4]
    omega
  | some p =>
    simp only
    by_cases huncompressed : p = 0x04 ∧ bytes.length = 1 + 2 * coordLen
    · have hlength := huncompressed.2
      rw [if_pos huncompressed, slice_eq (by omega) (by omega), ok_bind, sliceFrom_eq (by omega), ok_bind]
      refine ⟨_, rfl, ?_⟩
      have hx : ((bytes.drop 1).take (1 + coordLen - 1)).length ≤ coordLen := by
        rw [List.length_take]
        omega
      have hy : (bytes.drop (1 + coordLen)).length ≤ coordLen := by
        rw [List.length_drop]
        omega
      have hX := @length_namedBytes_le "X" _ (by decide) (Nat.lt_of_le_of_lt hx (by omega))
      have hY := @length_namedBytes_le "Y" _ (by decide) (Nat.lt_of_le_of_lt hy (by omega))
      have h5 : "encoding: uncompressed (0x04 || X || Y), 1+2*".toList.length = 45 := rfl
      have h6 : " = ".toList.length = 3 := rfl
      have h7 : " bytes".toList.length = 6 := rfl
      have h8 : "prefix: 0x04".toList.length = 12 := rfl
      simp only [keySize_append, keySize_cons, keySize_nil, KeyShareLine.ofText, KeyShareLine.ofBytes,
        List.length_append, h1, h2, h5, h6, h7, h8]
      omega
    rw [if_neg huncompressed]
    by_cases hcompressed : (p = 0x02 ∨ p = 0x03) ∧ bytes.length = 1 + coordLen
    · have hlength := hcompressed.2
      rw [if_pos hcompressed, sliceFrom_eq (by omega), ok_bind]
      refine ⟨_, rfl, ?_⟩
      have hx : (bytes.drop 1).length ≤ coordLen := by
        rw [List.length_drop]
        omega
      have hX := @length_namedBytes_le "X" _ (by decide) (Nat.lt_of_le_of_lt hx (by omega))
      have hsign : (if p = 0x02 then "even" else "odd" : String).toList.length ≤ 4 := by
        split <;> decide
      have h5 : "encoding: compressed (".toList.length = 22 := rfl
      have h6 : " || X), Y is the ".toList.length = 17 := rfl
      have h7 : " root of the curve equation".toList.length = 27 := rfl
      simp only [keySize_append, keySize_cons, keySize_nil, KeyShareLine.ofText, List.length_append,
        length_hexByte, h1, h2, h5, h6, h7]
      omega
    · rw [if_neg hcompressed]
      refine ⟨_, rfl, ?_⟩
      simp only [keySize_append, keySize_cons, keySize_nil, KeyShareLine.ofText, List.length_append, h1, h2, h3,
        h4]
      omega

/-- The preview of bytes that are more than what it shows. -/
theorem previewHeadTail_ok {bytes : Bytes} {head tail : ℕ} (h : head + tail < bytes.length) :
    previewHeadTail bytes head tail = .ok (hexInline (bytes.take head) ++ " ... (".toList ++
      decimal (bytes.length - head - tail) ++ " B elided) ... ".toList ++
        hexInline (bytes.drop (bytes.length - tail))) := by
  unfold previewHeadTail
  rw [if_neg (by omega), sliceTo_eq (by omega), ok_bind, sub_eq (by omega), ok_bind, sub_eq (by omega), ok_bind,
    sub_eq (by omega), ok_bind, sliceFrom_eq (by omega)]
  rfl

/-- A hybrid key of the right length, and any other. -/
theorem hybridPqStructure_ok {bytes : Bytes} {classicalLen pqLen : ℕ} (hclassical : classicalLen < 1000)
    (hpq : 32 < pqLen ∧ pqLen < 10000) {classicalName pqName : String}
    (hclassicalName : classicalName.toList.length ≤ 16) (hpqName : pqName.toList.length ≤ 16)
    (h : bytes.length < 65536) :
    ∃ ls, hybridPqStructure bytes classicalLen pqLen classicalName pqName = .ok ls ∧
      keySize ls ≤ 1024 + 3 * bytes.length := by
  obtain ⟨hpqLow, hpqHigh⟩ := hpq
  have hc := length_decimal_le (by omega : classicalLen < 100000)
  have hp := length_decimal_le (by omega : pqLen < 100000)
  have ht := length_decimal_le (by omega : classicalLen + pqLen < 100000)
  have h1 : "format: hybrid = ".toList.length = 17 := rfl
  have h2 : " pubkey (".toList.length = 9 := rfl
  have h3 : " B) || ".toList.length = 7 := rfl
  have h4 : " encapsulation key (".toList.length = 20 := rfl
  have h5 : " B)".toList.length = 3 := rfl
  have h6 : "why hybrid: ".toList.length = 12 := rfl
  have h7 : " is safe against classical attackers; ".toList.length = 38 := rfl
  have h8 : " is safe against quantum attackers. ".toList.length = 36 := rfl
  have h9 : "Both must break for the session to be broken.".toList.length = 45 := rfl
  have h10 : "expected total: ".toList.length = 16 := rfl
  have h11 : " B".toList.length = 2 := rfl
  unfold hybridPqStructure
  simp only
  split_ifs with hlength
  · have hbehind : (bytes.drop classicalLen).length = pqLen := by
      rw [List.length_drop]
      omega
    have hfront : (bytes.take classicalLen).length ≤ bytes.length := List.length_take_le' _ _
    rw [splitAt_eq (by omega), ok_bind]
    simp only
    rw [previewHeadTail_ok (by omega), ok_bind]
    refine ⟨_, rfl, ?_⟩
    have hnamed := length_namedBytes_le hclassicalName (Nat.lt_of_le_of_lt hfront h)
    have hcount := length_byteCount_le (by omega : (bytes.drop classicalLen).length < 100000)
    have helided := length_decimal_le (by omega : (bytes.drop classicalLen).length - 16 - 16 < 100000)
    have hhead := length_hexInline_le ((bytes.drop classicalLen).take 16)
    have htail := length_hexInline_le ((bytes.drop classicalLen).drop ((bytes.drop classicalLen).length - 16))
    have hheadLen : ((bytes.drop classicalLen).take 16).length ≤ 16 := List.length_take_le _ _
    have htailLen : ((bytes.drop classicalLen).drop ((bytes.drop classicalLen).length - 16)).length ≤ 16 := by
      rw [List.length_drop]
      omega
    have h12 : ": ".toList.length = 2 := rfl
    have h13 : " ... (".toList.length = 6 := rfl
    have h14 : " B elided) ... ".toList.length = 15 := rfl
    simp only [keySize_append, keySize_cons, keySize_nil, KeyShareLine.ofText, KeyShareLine.ofBytes,
      List.length_append, List.length_cons, h1, h2, h3, h4, h5, h6, h7, h8, h9, h10, h11, h12, h13, h14]
    omega
  · rw [sliceTo_eq (Nat.min_le_left _ _), ok_bind]
    refine ⟨_, rfl, ?_⟩
    have hgot := length_decimal_le (by omega : bytes.length < 100000)
    have hhead := length_hexInline_le (bytes.take (min bytes.length 48))
    have hheadLen : (bytes.take (min bytes.length 48)).length ≤ bytes.length := List.length_take_le' _ _
    have h12 : "size mismatch: got ".toList.length = 19 := rfl
    have h13 : " B — draft version may not match".toList.length = 32 := rfl
    have h14 : "raw head: ".toList.length = 10 := rfl
    simp only [keySize_append, keySize_cons, keySize_nil, KeyShareLine.ofText, KeyShareLine.ofBytes,
      List.length_append, h1, h2, h3, h4, h5, h6, h7, h8, h9, h10, h11, h12, h13, h14]
    omega

/-- The structure of a key, whatever its bytes. -/
theorem keyShareStructure_ok {e : KeyShareEntry} (h : e.keyExchange.length < 65536) :
    ∃ ls, keyShareStructure e = .ok ls ∧ keySize ls ≤ 1024 + 3 * e.keyExchange.length := by
  unfold keyShareStructure
  simp only
  cases e.group with
  | x25519 => exact ⟨_, rfl, keySize_montgomery_le (by decide) (by decide) (by omega) h⟩
  | x448 => exact ⟨_, rfl, keySize_montgomery_le (by decide) (by decide) (by omega) h⟩
  | secp256r1 => exact sec1PointStructure_ok (by omega) (by decide) h
  | secp384r1 => exact sec1PointStructure_ok (by omega) (by decide) h
  | secp521r1 => exact sec1PointStructure_ok (by omega) (by decide) h
  | ffdhe2048 => exact ⟨_, rfl, keySize_ffdhe_le (by omega) (by decide) h⟩
  | ffdhe3072 => exact ⟨_, rfl, keySize_ffdhe_le (by omega) (by decide) h⟩
  | ffdhe4096 => exact ⟨_, rfl, keySize_ffdhe_le (by omega) (by decide) h⟩
  | x25519MlKem768 => exact hybridPqStructure_ok (by omega) (by omega) (by decide) (by decide) h
  | secP256r1MlKem768 => exact hybridPqStructure_ok (by omega) (by omega) (by decide) (by decide) h
  | x25519Kyber768Draft00 => exact hybridPqStructure_ok (by omega) (by omega) (by decide) (by decide) h
  | other v =>
    have hname := @length_namedBytes_le "public key" _ (by decide) h
    refine ⟨_, rfl, ?_⟩
    rw [keySize_cons, keySize_nil]
    omega

/-! ## Reading a key -/

/-- Digits without the mark of a number in front. -/
def stripHexMark : List Char → List Char
  | '0' :: 'x' :: digits => digits
  | digits => digits

/-- The bytes that a line about a key tells, behind its colon. -/
def KeyShareLine.told (l : KeyShareLine) : Option Bytes :=
  if l.isBytes then readPairs (stripHexMark ((l.text.dropWhile (· ≠ ':')).drop 2)) else some []

/-- The key that lines tell. -/
def readKey : List KeyShareLine → Option Bytes
  | [] => some []
  | l :: ls => do
    let bytes ← l.told
    let rest ← readKey ls
    return bytes ++ rest

theorem readKey_cons {l : KeyShareLine} {bytes : Bytes} (h : l.told = some bytes) (ls : List KeyShareLine) :
    readKey (l :: ls) = (readKey ls).map fun rest => bytes ++ rest := by
  rw [readKey, h]
  cases readKey ls <;> rfl

/-- A comment tells nothing. -/
theorem readKey_ofText (s : List Char) (ls : List KeyShareLine) : readKey (.ofText s :: ls) = readKey ls := by
  have htold : (KeyShareLine.ofText s).told = some [] := rfl
  rw [readKey_cons htold]
  cases readKey ls <;> rfl

theorem stripHexMark_hexInline (bytes : Bytes) (rest : List Char) (h : bytes ≠ []) :
    stripHexMark (hexInline bytes ++ rest) = hexInline bytes ++ rest := by
  obtain ⟨b, bytes, rfl⟩ := List.exists_cons_of_ne_nil h
  obtain ⟨tail, htail⟩ : ∃ tail, hexInline (b :: bytes) = hexPair b ++ tail := by
    unfold hexInline
    cases bytes with
    | nil => exact ⟨[], by rw [List.append_nil]; exact List.intercalate_singleton ..⟩
    | cons c bytes => exact ⟨_, spacedPairs_cons b c bytes⟩
  have hall : ∀ m : Fin 16, Nat.digitChar m ≠ 'x' := by decide
  have hb := b.toNat_lt
  have hlow := hall ⟨b.toNat % 16, by omega⟩
  rw [htail]
  unfold hexPair
  simp only [List.cons_append, List.nil_append]
  unfold stripHexMark
  split
  · next hcons =>
    have hx := (List.cons.inj (List.cons.inj hcons).2).1
    exact absurd hx hlow
  · rfl

/-- Behind a text without a colon, a colon and a space. -/
theorem drop_behind_colon {front : List Char} (h : ':' ∉ front) (rest : List Char) :
    ((front ++ ':' :: ' ' :: rest).dropWhile (· ≠ ':')).drop 2 = rest := by
  have hfront : ∀ c ∈ front, decide (c ≠ ':') = true := by
    intro c hc
    refine decide_eq_true ?_
    rintro rfl
    exact h hc
  rw [List.dropWhile_append_of_pos hfront]
  rfl

theorem decimal_no_colon (n : ℕ) : ':' ∉ decimal n := by
  intro h
  obtain ⟨m, hm, hc⟩ := mem_decimal h
  exact (digit_ne (by omega : m < 16)).2.1 hc.symm

theorem colon_not_mem_byteCount (n : ℕ) : ':' ∉ byteCount n := by
  intro h
  unfold byteCount at h
  rcases List.mem_append.mp h with h | h
  · rcases List.mem_cons.mp h with h | h
    · exact absurd h (by decide)
    · exact decimal_no_colon n h
  · exact absurd h (by decide)

theorem told_eq {front : List Char} (h : ':' ∉ front) (rest : List Char) :
    (KeyShareLine.ofBytes (front ++ ':' :: ' ' :: rest)).told = readPairs (stripHexMark rest) := by
  show readPairs (stripHexMark (((front ++ ':' :: ' ' :: rest).dropWhile _).drop 2)) = _
  rw [drop_behind_colon h]

/-- Bytes behind a label. -/
theorem told_labelled {front : List Char} (h : ':' ∉ front) (bytes : Bytes) :
    (KeyShareLine.ofBytes (front ++ ':' :: ' ' :: hexInline bytes)).told = some bytes := by
  rw [told_eq h]
  by_cases hbytes : bytes = []
  · subst hbytes
    rfl
  · have hstrip := stripHexMark_hexInline bytes [] hbytes
    rw [List.append_nil] at hstrip
    rw [hstrip]
    exact readPairs_spacedPairs bytes

theorem told_namedBytes {name : String} (h : ':' ∉ name.toList) (bytes : Bytes) :
    (namedBytes name bytes).told = some bytes := by
  have hfront : ':' ∉ name.toList ++ ' ' :: byteCount bytes.length := by
    rw [List.mem_append, List.mem_cons]
    rintro (hname | hspace | hcount)
    · exact h hname
    · exact absurd hspace (by decide)
    · exact colon_not_mem_byteCount _ hcount
  have hline : namedBytes name bytes =
      .ofBytes ((name.toList ++ ' ' :: byteCount bytes.length) ++ ':' :: ' ' :: hexInline bytes) := by
    have hcolon : ": ".toList = [':', ' '] := rfl
    unfold namedBytes
    rw [hcolon, List.append_assoc]
    rfl
  rw [hline, told_labelled hfront]

theorem told_rawBytes (bytes : Bytes) : (rawBytes bytes).told = some bytes := by
  have hfront : ':' ∉ "raw".toList := by decide
  exact told_labelled hfront bytes

/-- The last line tells what it tells. -/
theorem readKey_singleton {l : KeyShareLine} {bytes : Bytes} (h : l.told = some bytes) :
    readKey [l] = some bytes := by
  rw [readKey_cons h]
  exact congrArg some (List.append_nil bytes)

/-- A compressed point with a coordinate of `n` bytes. -/
def Compressed (bytes : Bytes) (n : ℕ) : Prop :=
  (bytes.head? = some 0x02 ∨ bytes.head? = some 0x03) ∧ bytes.length = 1 + n

/-- Whether the lines about a key tell all of it: the first byte of a compressed point is told in a comment
only, and a hybrid key is abridged. -/
def KeyShareEntry.ToldWhole (e : KeyShareEntry) : Prop :=
  match e.group with
  | .secp256r1 => ¬ Compressed e.keyExchange 32
  | .secp384r1 => ¬ Compressed e.keyExchange 48
  | .secp521r1 => ¬ Compressed e.keyExchange 66
  | .x25519MlKem768 | .secP256r1MlKem768 | .x25519Kyber768Draft00 => e.keyExchange.length ≤ 48
  | _ => True

theorem readKey_montgomery (format curve : String) (n : ℕ) (bytes : Bytes) :
    readKey (montgomeryStructure format curve n bytes) = some bytes := by
  unfold montgomeryStructure
  simp only
  split
  · rw [List.cons_append, List.cons_append, readKey_ofText, readKey_ofText]
    exact readKey_singleton (told_namedBytes (by decide) bytes)
  · rw [List.cons_append, List.cons_append, readKey_ofText, readKey_ofText]
    exact (readKey_ofText _ _).trans (readKey_singleton (told_rawBytes bytes))

theorem readKey_ffdhe (pBytes : ℕ) (groupName : String) (bytes : Bytes) :
    readKey (ffdheStructure bytes pBytes groupName) = some bytes := by
  unfold ffdheStructure
  simp only
  split
  · rw [List.cons_append, List.cons_append, readKey_ofText, readKey_ofText]
    exact readKey_singleton (told_namedBytes (by decide) bytes)
  · rw [List.cons_append, List.cons_append, readKey_ofText, readKey_ofText]
    exact (readKey_ofText _ _).trans (readKey_singleton (told_rawBytes bytes))

/-- A key that is not told whole is not told. -/
theorem drop_ne_self {bytes : Bytes} {n : ℕ} (hn : 0 < n) (hle : n ≤ bytes.length) : bytes.drop n ≠ bytes := by
  intro h
  have hlength := congrArg List.length h
  rw [List.length_drop] at hlength
  omega

theorem readKey_sec1Point (bytes : Bytes) {coordLen : ℕ} (hcoord : 0 < coordLen) (curveDesc : String) :
    ∃ ls, sec1PointStructure bytes coordLen curveDesc = .ok ls ∧
      (readKey ls = some bytes ↔ ¬ Compressed bytes coordLen) := by
  unfold sec1PointStructure Compressed
  simp only
  cases bytes with
  | nil =>
    refine ⟨_, rfl, iff_of_true ?_ ?_⟩
    · exact (readKey_ofText _ _).trans ((readKey_ofText _ _).trans (readKey_singleton (told_rawBytes [])))
    · rintro ⟨h | h, -⟩ <;> cases h
  | cons p bytes =>
    simp only [List.head?_cons, Option.some.injEq]
    by_cases huncompressed : p = 0x04 ∧ (p :: bytes).length = 1 + 2 * coordLen
    · obtain ⟨rfl, hlength⟩ := huncompressed
      rw [if_pos ⟨rfl, hlength⟩, slice_eq (by omega) (by omega), ok_bind, sliceFrom_eq (by omega), ok_bind]
      refine ⟨_, rfl, iff_of_true ?_ ?_⟩
      · have hmark : (KeyShareLine.ofBytes "prefix: 0x04".toList).told = some [0x04] := rfl
        have hsplit : (((4 : UInt8) :: bytes).drop 1).take (1 + coordLen - 1) ++
            (((4 : UInt8) :: bytes).drop (1 + coordLen)) = bytes := by
          have hdrop : ((4 : UInt8) :: bytes).drop (1 + coordLen) = bytes.drop coordLen := by
            rw [Nat.add_comm, List.drop_succ_cons]
          rw [hdrop, List.drop_succ_cons, List.drop_zero, Nat.add_sub_cancel_left, List.take_append_drop]
        rw [List.cons_append, readKey_ofText]
        refine (readKey_ofText _ _).trans ?_
        rw [readKey_cons hmark, readKey_cons (told_namedBytes (by decide) _),
          readKey_singleton (told_namedBytes (by decide) _), Option.map_some, Option.map_some, hsplit]
        rfl
      · rintro ⟨h | h, -⟩ <;> exact absurd h (by decide)
    rw [if_neg huncompressed]
    by_cases hcompressed : (p = 0x02 ∨ p = 0x03) ∧ (p :: bytes).length = 1 + coordLen
    · have hlength := hcompressed.2
      rw [if_pos hcompressed, sliceFrom_eq (by omega), ok_bind]
      refine ⟨_, rfl, iff_of_false ?_ (not_not.mpr hcompressed)⟩
      rw [List.cons_append, readKey_ofText]
      refine fun h => drop_ne_self (by omega : 0 < 1) (by omega : 1 ≤ (p :: bytes).length) (Option.some.inj ?_)
      rw [← h]
      exact ((readKey_ofText _ _).trans (readKey_singleton (told_namedBytes (by decide) _))).symm
    · rw [if_neg hcompressed]
      refine ⟨_, rfl, iff_of_true ?_ hcompressed⟩
      exact (readKey_ofText _ _).trans ((readKey_ofText _ _).trans (readKey_singleton (told_rawBytes _)))

/-- What is elided cannot be read. -/
theorem readPairs_elided {bytes : Bytes} (h : bytes ≠ []) (rest : List Char) :
    readPairs (hexInline bytes ++ ' ' :: '.' :: '.' :: '.' :: rest) = none := by
  have hdots : readPairs ('.' :: '.' :: '.' :: rest) = none := rfl
  unfold hexInline
  induction bytes with
  | nil => exact absurd rfl h
  | cons b bytes ih =>
    cases bytes with
    | nil =>
      have hone : spacedPairs [b] = hexPair b := List.intercalate_singleton ..
      rw [hone, readPairs_cons, hdots, Option.map_none]
    | cons c bytes =>
      have htail := ih (List.cons_ne_nil c bytes)
      rw [spacedPairs_cons, List.append_assoc, List.cons_append, readPairs_cons, htail, Option.map_none]

theorem readKey_hybridPq (bytes : Bytes) {classicalLen pqLen : ℕ} (hpq : 48 < pqLen)
    {classicalName pqName : String} (hclassicalName : ':' ∉ classicalName.toList)
    (hpqName : ':' ∉ pqName.toList) :
    ∃ ls, hybridPqStructure bytes classicalLen pqLen classicalName pqName = .ok ls ∧
      (readKey ls = some bytes ↔ bytes.length ≤ 48) := by
  unfold hybridPqStructure
  simp only
  by_cases hlength : bytes.length = classicalLen + pqLen
  · have hbehind : (bytes.drop classicalLen).length = pqLen := by
      rw [List.length_drop]
      omega
    have hhead : (bytes.drop classicalLen).take 16 ≠ [] := by
      refine List.ne_nil_of_length_pos ?_
      rw [List.length_take]
      omega
    rw [if_pos hlength, splitAt_eq (by omega), ok_bind]
    simp only
    rw [previewHeadTail_ok (by omega), ok_bind]
    refine ⟨_, rfl, iff_of_false ?_ (by omega)⟩
    have hfront : ':' ∉ pqName.toList ++ ' ' :: byteCount (bytes.drop classicalLen).length := by
      rw [List.mem_append, List.mem_cons]
      rintro (hname | hspace | hcount)
      · exact hpqName hname
      · exact absurd hspace (by decide)
      · exact colon_not_mem_byteCount _ hcount
    have hcolon : ": ".toList = [':', ' '] := rfl
    have hdots : " ... (".toList = [' ', '.', '.', '.', ' ', '('] := rfl
    rw [List.cons_append, List.cons_append, List.cons_append, List.nil_append, readKey_ofText, readKey_ofText,
      readKey_ofText, readKey_cons (told_namedBytes hclassicalName _), hcolon, hdots]
    intro h
    -- The line of the preview tells nothing that can be read.
    have hnone : (KeyShareLine.ofBytes (pqName.toList ++ ' ' :: byteCount (bytes.drop classicalLen).length ++
        [':', ' '] ++ (hexInline ((bytes.drop classicalLen).take 16) ++ [' ', '.', '.', '.', ' ', '('] ++
          decimal ((bytes.drop classicalLen).length - 16 - 16) ++ " B elided) ... ".toList ++
            hexInline ((bytes.drop classicalLen).drop ((bytes.drop classicalLen).length - 16))))).told = none := by
      rw [List.append_assoc (pqName.toList ++ _), List.cons_append, List.cons_append, List.nil_append,
        told_eq hfront]
      simp only [List.append_assoc, List.cons_append, List.nil_append]
      rw [stripHexMark_hexInline _ _ hhead, readPairs_elided hhead]
    rw [readKey, hnone] at h
    cases h
  · rw [if_neg hlength, sliceTo_eq (Nat.min_le_left _ _), ok_bind]
    refine ⟨_, rfl, ?_⟩
    have hlabel : "raw head: ".toList = "raw head".toList ++ [':', ' '] := rfl
    have htold := told_labelled (by decide : ':' ∉ "raw head".toList) (bytes.take (min bytes.length 48))
    rw [List.cons_append, List.cons_append, List.cons_append, List.nil_append, readKey_ofText, readKey_ofText,
      readKey_ofText, readKey_ofText, hlabel, List.append_assoc, List.cons_append, List.cons_append,
      List.nil_append, readKey_singleton htold, Option.some.injEq]
    constructor
    · intro h
      have htake := congrArg List.length h
      rw [List.length_take] at htake
      omega
    · intro h
      exact List.take_of_length_le (by omega)

/-- The bytes of a key can be read off its lines, whatever its group and its length, but for compressed points
and for hybrid keys of more than 48 bytes. -/
theorem keyShare_told_iff (e : KeyShareEntry) :
    ∃ ls, keyShareStructure e = .ok ls ∧ (readKey ls = some e.keyExchange ↔ e.ToldWhole) := by
  unfold keyShareStructure KeyShareEntry.ToldWhole
  simp only
  cases e.group with
  | x25519 => exact ⟨_, rfl, iff_of_true (readKey_montgomery _ _ _ _) trivial⟩
  | x448 => exact ⟨_, rfl, iff_of_true (readKey_montgomery _ _ _ _) trivial⟩
  | secp256r1 => exact readKey_sec1Point _ (by omega) _
  | secp384r1 => exact readKey_sec1Point _ (by omega) _
  | secp521r1 => exact readKey_sec1Point _ (by omega) _
  | ffdhe2048 => exact ⟨_, rfl, iff_of_true (readKey_ffdhe _ _ _) trivial⟩
  | ffdhe3072 => exact ⟨_, rfl, iff_of_true (readKey_ffdhe _ _ _) trivial⟩
  | ffdhe4096 => exact ⟨_, rfl, iff_of_true (readKey_ffdhe _ _ _) trivial⟩
  | x25519MlKem768 => exact readKey_hybridPq _ (by omega) (by decide) (by decide)
  | secP256r1MlKem768 => exact readKey_hybridPq _ (by omega) (by decide) (by decide)
  | x25519Kyber768Draft00 => exact readKey_hybridPq _ (by omega) (by decide) (by decide)
  | other v => exact ⟨_, rfl, iff_of_true (readKey_singleton (told_namedBytes (by decide) _)) trivial⟩

end SeeHandshake

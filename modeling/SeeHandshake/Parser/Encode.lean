import SeeHandshake.Parser.Agreement

/-!
# Wire encodings

How the values that the decoders return are written on the wire: vectors behind their length, the
extension bodies in the forms of RFC 8446 and RFC 6066, and the hello messages. Nothing here is
translated from the source, which only reads; the decoders are compared with these definitions.
-/

namespace SeeHandshake

/-! ## Vectors -/

/-- Big-endian encoding of a `u32`. -/
def u32ToBe (v : UInt32) : Bytes :=
  [UInt8.ofNat (v.toNat / 16777216), UInt8.ofNat (v.toNat / 65536), UInt8.ofNat (v.toNat / 256),
    UInt8.ofNat v.toNat]

/-- Big-endian encoding of a number below `2 ^ 24`. -/
def u24ToBe (n : Nat) : Bytes :=
  [UInt8.ofNat (n / 65536), UInt8.ofNat (n / 256), UInt8.ofNat n]

/-- Bytes behind their one-byte length. -/
def vec8 (bytes : Bytes) : Bytes := UInt8.ofNat bytes.length :: bytes

/-- Bytes behind their two-byte length. -/
def vec16 (bytes : Bytes) : Bytes := u16ToBe (UInt16.ofNat bytes.length) ++ bytes

/-- A list of two-byte numbers. -/
def u16List (vs : List UInt16) : Bytes := (vs.map u16ToBe).flatten

/-- Short bytes stand behind two bytes that say their length. -/
theorem vec16_eq {bytes : Bytes} (h : bytes.length < 65536) :
    ∃ l1 l2, vec16 bytes = l1 :: l2 :: bytes ∧ (u16FromBe l1 l2).toNat = bytes.length := by
  refine ⟨_, _, rfl, ?_⟩
  rw [u16FromBe_u16ToBe, UInt16.toNat_ofNat']
  omega

/-- Bytes behind two bytes that say their length are the encoding. -/
theorem vec16_of_length {bytes : Bytes} {l1 l2 : UInt8}
    (h : bytes.length = (u16FromBe l1 l2).toNat) : vec16 bytes = l1 :: l2 :: bytes := by
  unfold vec16
  rw [h, UInt16.ofNat_toNat, u16ToBe_u16FromBe]
  rfl

/-- A vector at the front of an input is read in one way. -/
theorem cons_eq_vec16_append_iff {bytes tail rest : Bytes} {l1 l2 : UInt8}
    (h : bytes.length < 65536) :
    l1 :: l2 :: rest = vec16 bytes ++ tail ↔
      rest = bytes ++ tail ∧ bytes.length = (u16FromBe l1 l2).toNat := by
  constructor
  · intro heq
    obtain ⟨b1, b2, hvec, hlen⟩ := vec16_eq h
    rw [hvec] at heq
    obtain ⟨rfl, hcons⟩ := List.cons.inj heq
    obtain ⟨rfl, hrest⟩ := List.cons.inj hcons
    exact ⟨hrest, hlen.symm⟩
  · rintro ⟨rfl, hlen⟩
    rw [vec16_of_length hlen]
    rfl

theorem cons_eq_vec16_iff {bytes rest : Bytes} {l1 l2 : UInt8} (h : bytes.length < 65536) :
    l1 :: l2 :: rest = vec16 bytes ↔ rest = bytes ∧ bytes.length = (u16FromBe l1 l2).toNat := by
  simpa using @cons_eq_vec16_append_iff bytes [] rest l1 l2 h

theorem vec8_eq {bytes : Bytes} (h : bytes.length < 256) :
    ∃ l, vec8 bytes = l :: bytes ∧ l.toNat = bytes.length := by
  refine ⟨_, rfl, ?_⟩
  rw [UInt8.toNat_ofNat']
  omega

theorem vec8_of_length {bytes : Bytes} {l : UInt8} (h : bytes.length = l.toNat) :
    vec8 bytes = l :: bytes := by
  unfold vec8
  rw [h, UInt8.ofNat_toNat]

@[simp] theorem vec16_length (bytes : Bytes) : (vec16 bytes).length = bytes.length + 2 := by
  simp [vec16]
  omega

@[simp] theorem vec8_length (bytes : Bytes) : (vec8 bytes).length = bytes.length + 1 := rfl

theorem u16FromBe_lt (hi lo : UInt8) : (u16FromBe hi lo).toNat < 65536 :=
  UInt16.toNat_lt _

theorem u32FromBe_u32ToBe (v : UInt32) :
    ∃ a b c d, u32ToBe v = [a, b, c, d] ∧ u32FromBe a b c d = v := by
  refine ⟨_, _, _, _, rfl, ?_⟩
  have hv := v.toNat_lt
  apply UInt32.toNat_inj.mp
  simp only [u32FromBe_toNat, UInt8.toNat_ofNat']
  omega

theorem ofNat_eq_of_mod {n : ℕ} {b : UInt8} (h : n % 256 = b.toNat) : UInt8.ofNat n = b := by
  apply UInt8.toNat_inj.mp
  rw [UInt8.toNat_ofNat']
  exact h

theorem u32ToBe_u32FromBe (a b c d : UInt8) : u32ToBe (u32FromBe a b c d) = [a, b, c, d] := by
  have ha := a.toNat_lt
  have hb := b.toNat_lt
  have hc := c.toNat_lt
  have hd := d.toNat_lt
  unfold u32ToBe
  rw [u32FromBe_toNat, @ofNat_eq_of_mod _ a (by omega), @ofNat_eq_of_mod _ b (by omega),
    @ofNat_eq_of_mod _ c (by omega), @ofNat_eq_of_mod _ d (by omega)]

@[simp] theorem u16List_nil : u16List [] = [] := rfl

@[simp] theorem u16List_cons (v : UInt16) (vs : List UInt16) :
    u16List (v :: vs) = u16ToBe v ++ u16List vs := rfl

theorem u16List_length (vs : List UInt16) : (u16List vs).length = 2 * vs.length := by
  induction vs with
  | nil => rfl
  | cons v vs ih =>
    rw [u16List_cons, List.length_append, ih, u16ToBe_length, List.length_cons]
    omega

/-- Decoding a list of numbers undoes encoding it. -/
@[simp] theorem u16Chunks_u16List (vs : List UInt16) : u16Chunks (u16List vs) = vs := by
  induction vs with
  | nil => rfl
  | cons v vs ih =>
    show u16FromBe _ _ :: u16Chunks (u16List vs) = _
    rw [u16FromBe_u16ToBe, ih]

/-- Encoding undoes decoding a byte string of even length. -/
theorem u16List_u16Chunks : ∀ {bytes : Bytes}, bytes.length % 2 = 0 →
    u16List (u16Chunks bytes) = bytes
  | [], _ => rfl
  | [_], h => absurd h (by simp)
  | hi :: lo :: rest, h => by
    have hrest : rest.length % 2 = 0 := by
      simp only [List.length_cons] at h
      omega
    rw [u16Chunks, u16List_cons, u16ToBe_u16FromBe, u16List_u16Chunks hrest]
    rfl

end SeeHandshake

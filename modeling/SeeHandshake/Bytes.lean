import Mathlib.Data.List.Basic

/-!
# Byte strings

The wire format is read from byte slices. A slice is a list of bytes; the big-endian conversions and
the lossy UTF-8 conversion are the ones the Rust standard library documents for
`u16::from_be_bytes`, `u32::from_be_bytes`, `u16::to_be_bytes` and `String::from_utf8_lossy`.
-/

namespace SeeHandshake

/-- A byte slice `&[u8]` or byte vector `Vec<u8>`. -/
abbrev Bytes := List UInt8

/-- `u16::from_be_bytes([hi, lo])`. -/
def u16FromBe (hi lo : UInt8) : UInt16 := UInt16.ofNat (hi.toNat * 256 + lo.toNat)

/-- `u32::from_be_bytes([a, b, c, d])`. -/
def u32FromBe (a b c d : UInt8) : UInt32 :=
  UInt32.ofNat (((a.toNat * 256 + b.toNat) * 256 + c.toNat) * 256 + d.toNat)

/-- `v.to_be_bytes()` for a `u16`. -/
def u16ToBe (v : UInt16) : Bytes := [UInt8.ofNat (v.toNat / 256), UInt8.ofNat (v.toNat % 256)]

@[simp] theorem u16FromBe_toNat (hi lo : UInt8) :
    (u16FromBe hi lo).toNat = hi.toNat * 256 + lo.toNat := by
  have := hi.toNat_lt
  have := lo.toNat_lt
  simp [u16FromBe]
  omega

@[simp] theorem u32FromBe_toNat (a b c d : UInt8) :
    (u32FromBe a b c d).toNat =
      ((a.toNat * 256 + b.toNat) * 256 + c.toNat) * 256 + d.toNat := by
  have := a.toNat_lt
  have := b.toNat_lt
  have := c.toNat_lt
  have := d.toNat_lt
  simp [u32FromBe]
  omega

@[simp] theorem u16ToBe_length (v : UInt16) : (u16ToBe v).length = 2 := rfl

/-- Big-endian encoding undoes big-endian decoding. -/
@[simp] theorem u16ToBe_u16FromBe (hi lo : UInt8) : u16ToBe (u16FromBe hi lo) = [hi, lo] := by
  have h1 : (hi.toNat * 256 + lo.toNat) / 256 = hi.toNat := by
    have := lo.toNat_lt
    omega
  have h2 : (hi.toNat * 256 + lo.toNat) % 256 = lo.toNat := by
    have := lo.toNat_lt
    omega
  simp [u16ToBe, h1, h2]

/-- Big-endian decoding undoes big-endian encoding. -/
@[simp] theorem u16FromBe_u16ToBe (v : UInt16) :
    u16FromBe (UInt8.ofNat (v.toNat / 256)) (UInt8.ofNat (v.toNat % 256)) = v := by
  have := v.toNat_lt
  apply UInt16.toNat_inj.mp
  simp
  omega

/-- `u16::from_be_bytes` over `chunks_exact(2)`: a trailing odd byte is ignored. -/
def u16Chunks : Bytes → List UInt16
  | hi :: lo :: rest => u16FromBe hi lo :: u16Chunks rest
  | _ => []

/-! ## Lossy UTF-8 -/

/-- Whether `b` is a UTF-8 continuation byte. -/
def isCont (b : UInt8) : Bool := 0x80 ≤ b && b < 0xC0

/-- The payload of a continuation byte. -/
def contBits (b : UInt8) : Nat := b.toNat - 0x80

/-- The number of bytes of the UTF-8 sequence that starts with `b`; `0` when none does. -/
def utf8CharWidth (b : UInt8) : Nat :=
  if b < 0x80 then 1
  else if b < 0xC2 then 0
  else if b < 0xE0 then 2
  else if b < 0xF0 then 3
  else if b < 0xF5 then 4
  else 0

/-- Whether `b1` may follow the first byte `b0` of a three- or four-byte sequence: overlong forms,
surrogates and code points beyond `10FFFF` are cut off at the second byte. -/
def secondByteOk (b0 b1 : UInt8) : Bool :=
  if b0 = 0xE0 then 0xA0 ≤ b1 && b1 < 0xC0
  else if b0 = 0xED then 0x80 ≤ b1 && b1 < 0xA0
  else if b0 = 0xF0 then 0x90 ≤ b1 && b1 < 0xC0
  else if b0 = 0xF4 then 0x80 ≤ b1 && b1 < 0x90
  else isCont b1

/-- The characters of `String::from_utf8_lossy`: every maximal prefix of an ill-formed sequence
becomes one U+FFFD. -/
def utf8LossyChars : Bytes → List Char
  | [] => []
  | b0 :: rest =>
    match utf8CharWidth b0 with
    | 1 => Char.ofNat b0.toNat :: utf8LossyChars rest
    | 2 =>
      match rest with
      | b1 :: rest1 =>
        if isCont b1 then
          Char.ofNat ((b0.toNat - 0xC0) * 64 + contBits b1) :: utf8LossyChars rest1
        else Char.ofNat 0xFFFD :: utf8LossyChars (b1 :: rest1)
      | [] => [Char.ofNat 0xFFFD]
    | 3 =>
      match rest with
      | b1 :: rest1 =>
        if secondByteOk b0 b1 then
          match rest1 with
          | b2 :: rest2 =>
            if isCont b2 then
              Char.ofNat (((b0.toNat - 0xE0) * 64 + contBits b1) * 64 + contBits b2) ::
                utf8LossyChars rest2
            else Char.ofNat 0xFFFD :: utf8LossyChars (b2 :: rest2)
          | [] => [Char.ofNat 0xFFFD]
        else Char.ofNat 0xFFFD :: utf8LossyChars (b1 :: rest1)
      | [] => [Char.ofNat 0xFFFD]
    | 4 =>
      match rest with
      | b1 :: rest1 =>
        if secondByteOk b0 b1 then
          match rest1 with
          | b2 :: rest2 =>
            if isCont b2 then
              match rest2 with
              | b3 :: rest3 =>
                if isCont b3 then
                  Char.ofNat ((((b0.toNat - 0xF0) * 64 + contBits b1) * 64 + contBits b2) * 64 +
                    contBits b3) :: utf8LossyChars rest3
                else Char.ofNat 0xFFFD :: utf8LossyChars (b3 :: rest3)
              | [] => [Char.ofNat 0xFFFD]
            else Char.ofNat 0xFFFD :: utf8LossyChars (b2 :: rest2)
          | [] => [Char.ofNat 0xFFFD]
        else Char.ofNat 0xFFFD :: utf8LossyChars (b1 :: rest1)
      | [] => [Char.ofNat 0xFFFD]
    | _ => Char.ofNat 0xFFFD :: utf8LossyChars rest

/-- `String::from_utf8_lossy(bytes).into_owned()`. -/
def fromUtf8Lossy (bytes : Bytes) : String := String.ofList (utf8LossyChars bytes)

example : utf8LossyChars [0x68, 0xC3, 0xA9, 0xE2, 0x82, 0xFF] =
    ['h', 'é', Char.ofNat 0xFFFD, Char.ofNat 0xFFFD] := by decide

end SeeHandshake

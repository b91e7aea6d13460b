import SeeHandshake.Lib.Framing
import SeeHandshake.Parser.Encode

/-!
# Extension bodies on the wire

The entry loops of the extension decoders are framings: each cuts off what its entries are written
as. `Encodes` says how the decoded bodies are written, in every form the RFCs give them.
-/

namespace SeeHandshake

open Lib

/-! ## Entries -/

namespace ServerNameEntry

/-- The bytes of an entry: the name type, and the name behind its length. -/
def encode (e : ServerNameEntry) : Bytes := e.nameType :: vec16 e.name

/-- What an entry is cut off. -/
theorem cut_eq_frame {xs : Bytes} {e : ServerNameEntry} {n : ℕ} (h : cutServerName xs = .frame e n) :
    ∃ l1 l2 rest, xs = e.nameType :: l1 :: l2 :: (e.name ++ rest) ∧
      e.name.length = (u16FromBe l1 l2).toNat ∧ n = 3 + e.name.length := by
  unfold cutServerName at h
  split at h
  · rename_i nameType l1 l2 rest
    simp only at h
    split_ifs at h with hshort
    obtain ⟨rfl, rfl⟩ := Cut.frame.inj h
    have hname := List.length_take_of_le (Nat.not_lt.mp hshort)
    exact ⟨l1, l2, _, by rw [List.take_append_drop], hname, by rw [hname]⟩
  · cases h

/-- The loop of `decodeServerName` as a framing. -/
def framing : Framing UInt8 ServerNameEntry Unit where
  cut := cutServerName
  write := encode
  Fits e := e.name.length < 65536
  frame_bounds := by
    intro xs e n h
    obtain ⟨l1, l2, rest, rfl, -, rfl⟩ := cut_eq_frame h
    simp only [List.length_cons, List.length_append]
    omega
  cut_write := by
    intro e rest he
    obtain ⟨l1, l2, hvec, hlen⟩ := vec16_eq he
    rw [encode, hvec]
    simp only [List.cons_append, cutServerName, hlen, List.length_append, List.length_cons]
    rw [if_neg (by omega), List.take_left, Nat.add_comm]
  fits_of_cut := by
    intro xs e n h
    obtain ⟨l1, l2, rest, -, hlen, -⟩ := cut_eq_frame h
    rw [hlen]
    exact u16FromBe_lt l1 l2
  write_of_cut := by
    intro xs e n h
    obtain ⟨l1, l2, rest, rfl, hlen, rfl⟩ := cut_eq_frame h
    rw [encode, vec16_of_length hlen]
    exact (List.take_left' (by simp only [List.length_cons]; omega)).symm

end ServerNameEntry

namespace KeyShareEntry

/-- The bytes of an entry: the group, and the key behind its length. -/
def encode (e : KeyShareEntry) : Bytes := u16ToBe e.groupCode ++ vec16 e.keyExchange

/-- The group is the one of the code, and the key has a length. -/
def Fits (e : KeyShareEntry) : Prop :=
  e.group = NamedGroup.fromU16 e.groupCode ∧ e.keyExchange.length < 65536

/-- The entry of a group code and a key. -/
def ofCode (groupCode : UInt16) (keyExchange : Bytes) : KeyShareEntry :=
  ⟨NamedGroup.fromU16 groupCode, groupCode, keyExchange⟩

theorem fits_ofCode {groupCode : UInt16} {keyExchange : Bytes} (h : keyExchange.length < 65536) :
    (ofCode groupCode keyExchange).Fits := ⟨rfl, h⟩

/-- An entry is read in one way. -/
theorem cons_eq_encode_iff {e : KeyShareEntry} (he : e.Fits) {b0 b1 b2 b3 : UInt8} {rest : Bytes} :
    b0 :: b1 :: b2 :: b3 :: rest = e.encode ↔
      e = ofCode (u16FromBe b0 b1) rest ∧ rest.length = (u16FromBe b2 b3).toNat := by
  obtain ⟨group, code, key⟩ := e
  obtain ⟨hgroup, hkey⟩ := he
  simp only at hgroup hkey
  subst hgroup
  constructor
  · intro heq
    obtain ⟨h0, heq⟩ := List.cons.inj heq
    obtain ⟨h1, heq⟩ := List.cons.inj heq
    have hcode : u16FromBe b0 b1 = code := by rw [h0, h1, u16FromBe_u16ToBe]
    obtain ⟨rfl, hlen⟩ := (cons_eq_vec16_iff hkey).mp heq
    rw [hcode]
    exact ⟨rfl, hlen⟩
  · rintro ⟨heq, hlen⟩
    obtain ⟨-, rfl, rfl⟩ := KeyShareEntry.mk.inj heq
    simp only [encode, u16ToBe_u16FromBe, vec16_of_length hlen]
    rfl

/-- What an entry is cut off. -/
theorem cut_eq_frame {xs : Bytes} {e : KeyShareEntry} {n : ℕ} (h : cutKeyShare xs = .frame e n) :
    ∃ g1 g2 l1 l2 rest, xs = g1 :: g2 :: l1 :: l2 :: (e.keyExchange ++ rest) ∧
      e = ofCode (u16FromBe g1 g2) e.keyExchange ∧
      e.keyExchange.length = (u16FromBe l1 l2).toNat ∧ n = 4 + e.keyExchange.length := by
  unfold cutKeyShare at h
  split at h
  · rename_i g1 g2 l1 l2 rest
    simp only at h
    split_ifs at h with hshort
    obtain ⟨rfl, rfl⟩ := Cut.frame.inj h
    have hkey := List.length_take_of_le (Nat.not_lt.mp hshort)
    exact ⟨g1, g2, l1, l2, _, by rw [List.take_append_drop], rfl, hkey, by rw [hkey]⟩
  · cases h

/-- The loop of `parseKeyShareEntries` as a framing. -/
def framing : Framing UInt8 KeyShareEntry Unit where
  cut := cutKeyShare
  write := encode
  Fits := Fits
  frame_bounds := by
    intro xs e n h
    obtain ⟨g1, g2, l1, l2, rest, rfl, -, -, rfl⟩ := cut_eq_frame h
    simp only [List.length_cons, List.length_append]
    omega
  cut_write := by
    rintro ⟨group, code, key⟩ rest ⟨hgroup, hkey⟩
    obtain ⟨l1, l2, hvec, hlen⟩ := vec16_eq hkey
    simp only at hgroup hvec hlen
    simp only [encode, hvec, u16ToBe, List.cons_append, List.nil_append, cutKeyShare, hlen,
      u16FromBe_u16ToBe, List.length_append, List.length_cons]
    rw [if_neg (by omega), List.take_left, hgroup, Nat.add_comm]
  fits_of_cut := by
    intro xs e n h
    obtain ⟨g1, g2, l1, l2, rest, -, he, hlen, -⟩ := cut_eq_frame h
    have hlt := u16FromBe_lt l1 l2
    rw [he]
    exact fits_ofCode (by omega)
  write_of_cut := by
    intro xs e n h
    obtain ⟨g1, g2, l1, l2, rest, rfl, he, hlen, rfl⟩ := cut_eq_frame h
    have hcode : u16ToBe e.groupCode = [g1, g2] := by
      rw [he]
      exact u16ToBe_u16FromBe g1 g2
    rw [encode, hcode, vec16_of_length hlen]
    exact (List.take_left' (by
      simp only [List.length_append, List.length_cons, List.length_nil]
      omega)).symm

end KeyShareEntry

namespace PskIdentity

/-- The bytes of an identity: the identity behind its length, and the age. -/
def encode (p : PskIdentity) : Bytes := vec16 p.identity ++ u32ToBe p.obfuscatedTicketAge

theorem cutPskIdentity_eq_frame {xs : Bytes} {p : PskIdentity} {n : ℕ}
    (h : cutPskIdentity xs = .frame p n) :
    ∃ l1 l2 a b c d rest, xs = l1 :: l2 :: (p.identity ++ a :: b :: c :: d :: rest) ∧
      p.identity.length = (u16FromBe l1 l2).toNat ∧
      p.obfuscatedTicketAge = u32FromBe a b c d ∧ n = 2 + (u16FromBe l1 l2).toNat + 4 := by
  unfold cutPskIdentity at h
  split at h
  · rename_i l1 l2 rest
    simp only at h
    split at h
    · rename_i a b c d tail hdrop
      obtain ⟨rfl, rfl⟩ := Cut.frame.inj h
      have hlen : (u16FromBe l1 l2).toNat < rest.length := by
        have hdroplen := congrArg List.length hdrop
        simp only [List.length_drop, List.length_cons] at hdroplen
        omega
      refine ⟨l1, l2, a, b, c, d, tail, ?_, ?_, rfl, rfl⟩
      · rw [← hdrop, List.take_append_drop]
      · rw [List.length_take]
        omega
    · cases h
  · cases h

/-- The loop of `decodePreSharedKey` as a framing. -/
def framing : Framing UInt8 PskIdentity Unit where
  cut := cutPskIdentity
  write := encode
  Fits p := p.identity.length < 65536
  frame_bounds := by
    intro xs p n h
    obtain ⟨l1, l2, a, b, c, d, rest, rfl, hlen, -, rfl⟩ := cutPskIdentity_eq_frame h
    simp only [List.length_cons, List.length_append]
    omega
  cut_write := by
    rintro ⟨identity, age⟩ rest hfits
    obtain ⟨l1, l2, hvec, hlen⟩ := vec16_eq hfits
    obtain ⟨a, b, c, d, hage, hage'⟩ := u32FromBe_u32ToBe age
    simp only at hvec hlen
    simp only [encode, hvec, hage, List.cons_append, List.append_assoc, List.nil_append,
      cutPskIdentity, hlen, List.drop_left, List.take_left, hage', List.length_cons,
      List.length_append, List.length_nil]
    congr 1
    omega
  fits_of_cut := by
    intro xs p n h
    obtain ⟨l1, l2, a, b, c, d, rest, -, hlen, -, -⟩ := cutPskIdentity_eq_frame h
    have hlt := u16FromBe_lt l1 l2
    omega
  write_of_cut := by
    intro xs p n h
    obtain ⟨l1, l2, a, b, c, d, rest, rfl, hlen, hage, rfl⟩ := cutPskIdentity_eq_frame h
    rw [encode, vec16_of_length hlen, hage, u32ToBe_u32FromBe]
    have hsplit : l1 :: l2 :: (p.identity ++ a :: b :: c :: d :: rest) =
        (l1 :: l2 :: p.identity ++ [a, b, c, d]) ++ rest := by simp
    have htotal : 2 + (u16FromBe l1 l2).toNat + 4 =
        (l1 :: l2 :: p.identity ++ [a, b, c, d]).length := by
      simp only [List.length_append, List.length_cons, List.length_nil]
      omega
    rw [hsplit, htotal, List.take_left]

end PskIdentity

/-- What a protocol is cut off. -/
theorem cutAlpn_eq_frame {xs p : Bytes} {n : ℕ} (h : cutAlpn xs = .frame p n) :
    ∃ l rest, xs = l :: (p ++ rest) ∧ p.length = l.toNat ∧ n = 1 + p.length := by
  unfold cutAlpn at h
  split at h
  · rename_i l rest
    split_ifs at h with hshort
    obtain ⟨rfl, rfl⟩ := Cut.frame.inj h
    have hlen := List.length_take_of_le (Nat.not_lt.mp hshort)
    exact ⟨l, _, by rw [List.take_append_drop], hlen, by rw [hlen]⟩
  · cases h

/-- The loop of `decodeAlpn` as a framing. -/
def alpnFraming : Framing UInt8 Bytes Unit where
  cut := cutAlpn
  write := vec8
  Fits protocol := protocol.length < 256
  frame_bounds := by
    intro xs p n h
    obtain ⟨l, rest, rfl, -, rfl⟩ := cutAlpn_eq_frame h
    simp only [List.length_cons, List.length_append]
    omega
  cut_write := by
    intro p rest hp
    obtain ⟨l, hvec, hlen⟩ := vec8_eq hp
    rw [hvec]
    simp only [List.cons_append, cutAlpn, hlen, List.length_append, List.length_cons]
    rw [if_neg (by omega), List.take_left, Nat.add_comm]
  fits_of_cut := by
    intro xs p n h
    obtain ⟨l, rest, -, hlen, -⟩ := cutAlpn_eq_frame h
    rw [hlen]
    exact l.toNat_lt
  write_of_cut := by
    intro xs p n h
    obtain ⟨l, rest, rfl, hlen, rfl⟩ := cutAlpn_eq_frame h
    rw [vec8_of_length hlen]
    exact (List.take_left' (Nat.add_comm _ _)).symm

namespace DecodedExtension

/-- The bytes of an extension: the type, and the body behind its length. -/
def encode (e : DecodedExtension) : Bytes := u16ToBe e.extType ++ vec16 e.raw

/-- The extension is what its type and body decode to, and the body has a length. -/
def Fits (e : DecodedExtension) : Prop :=
  e = decodeExtension e.extType e.raw ∧ e.raw.length < 65536

/-- What an extension is cut off. -/
theorem cut_eq_frame {xs : Bytes} {e : DecodedExtension} {n : ℕ} (h : cutExtension xs = .frame e n) :
    ∃ t1 t2 l1 l2 rest, xs = t1 :: t2 :: l1 :: l2 :: (e.raw ++ rest) ∧
      e = decodeExtension (u16FromBe t1 t2) e.raw ∧
      e.raw.length = (u16FromBe l1 l2).toNat ∧ n = 4 + e.raw.length := by
  unfold cutExtension at h
  split at h
  · rename_i t1 t2 l1 l2 rest
    simp only at h
    split_ifs at h with hshort
    obtain ⟨rfl, rfl⟩ := Cut.frame.inj h
    have hraw := List.length_take_of_le (Nat.not_lt.mp hshort)
    refine ⟨t1, t2, l1, l2, rest.drop (u16FromBe l1 l2).toNat, ?_, rfl, hraw, ?_⟩
    · show _ = t1 :: t2 :: l1 :: l2 :: (rest.take (u16FromBe l1 l2).toNat ++ _)
      rw [List.take_append_drop]
    · exact congrArg (4 + ·) hraw.symm
  · cases h

theorem encode_of_cut {xs : Bytes} {e : DecodedExtension} {n : ℕ} (h : cutExtension xs = .frame e n) :
    encode e = xs.take n := by
  obtain ⟨t1, t2, l1, l2, rest, rfl, he, hlen, rfl⟩ := cut_eq_frame h
  have htype : u16ToBe e.extType = [t1, t2] := by
    rw [he]
    exact u16ToBe_u16FromBe t1 t2
  rw [encode, htype, vec16_of_length hlen]
  exact (List.take_left' (by
      simp only [List.length_append, List.length_cons, List.length_nil]
      omega)).symm

/-- The loop of `walkExtensionBodies` as a framing. -/
def framing : Framing UInt8 DecodedExtension Unit where
  cut := cutExtension
  write := encode
  Fits := Fits
  frame_bounds := by
    intro xs e n h
    obtain ⟨t1, t2, l1, l2, rest, rfl, -, -, rfl⟩ := cut_eq_frame h
    simp only [List.length_cons, List.length_append]
    omega
  cut_write := by
    rintro e rest ⟨he, hraw⟩
    obtain ⟨l1, l2, hvec, hlen⟩ := vec16_eq hraw
    simp only [encode, hvec, u16ToBe, List.cons_append, List.nil_append, cutExtension, hlen,
      u16FromBe_u16ToBe, List.length_append, List.length_cons]
    rw [if_neg (by omega), List.take_left, ← he, Nat.add_comm]
  fits_of_cut := by
    intro xs e n h
    obtain ⟨t1, t2, l1, l2, rest, -, he, hlen, -⟩ := cut_eq_frame h
    have hlt := u16FromBe_lt l1 l2
    refine ⟨?_, by omega⟩
    have htype : e.extType = u16FromBe t1 t2 := congrArg DecodedExtension.extType he
    rw [htype]
    exact he
  write_of_cut := fun _ _ _ h => encode_of_cut h

end DecodedExtension

/-! ## Bodies -/

/-- The code of a group. -/
def NamedGroup.code : NamedGroup → UInt16
  | .secp256r1 => 0x0017
  | .secp384r1 => 0x0018
  | .secp521r1 => 0x0019
  | .x25519 => 0x001d
  | .x448 => 0x001e
  | .ffdhe2048 => 0x0100
  | .ffdhe3072 => 0x0101
  | .ffdhe4096 => 0x0102
  | .x25519Kyber768Draft00 => 0x6399
  | .x25519MlKem768 => 0x11ec
  | .secP256r1MlKem768 => 0x11eb
  | .other v => v

/-- The group is what its code decodes to. -/
def NamedGroup.Fits (g : NamedGroup) : Prop := NamedGroup.fromU16 g.code = g

/-- No code is lost in decoding, whether it has a name or not. -/
@[simp] theorem NamedGroup.code_fromU16 (v : UInt16) : (NamedGroup.fromU16 v).code = v := by
  unfold NamedGroup.fromU16
  split <;> rfl

theorem NamedGroup.fits_fromU16 (v : UInt16) : (NamedGroup.fromU16 v).Fits := by
  unfold NamedGroup.Fits
  rw [NamedGroup.code_fromU16]

/-- The bytes are the wire encoding of an extension body, in one of the forms of its type. -/
inductive Encodes : UInt16 → ExtensionBody → Bytes → Prop where
  | serverName {entries : List ServerNameEntry}
      (hentries : ∀ e ∈ entries, ServerNameEntry.framing.Fits e)
      (hlen : (ServerNameEntry.framing.writeAll entries).length < 65536) :
      Encodes 0 (.serverName entries) (vec16 (ServerNameEntry.framing.writeAll entries))
  | supportedGroups {groups : List NamedGroup} (hgroups : ∀ g ∈ groups, g.Fits)
      (hlen : (u16List (groups.map NamedGroup.code)).length < 65536) :
      Encodes 10 (.supportedGroups groups) (vec16 (u16List (groups.map NamedGroup.code)))
  | signatureAlgorithms {schemes : List UInt16} (hlen : (u16List schemes).length < 65536) :
      Encodes 13 (.signatureAlgorithms schemes) (vec16 (u16List schemes))
  | signatureAlgorithmsCert {schemes : List UInt16} (hlen : (u16List schemes).length < 65536) :
      Encodes 50 (.signatureAlgorithms schemes) (vec16 (u16List schemes))
  | alpn {protocols : List Bytes} (hprotocols : ∀ p ∈ protocols, p.length < 256)
      (hlen : (alpnFraming.writeAll protocols).length < 65536) :
      Encodes 16 (.alpn protocols) (vec16 (alpnFraming.writeAll protocols))
  /-- The ClientHello form: the identities, and the binders. -/
  | preSharedKey {identities : List PskIdentity} {binders : Bytes}
      (hidentities : ∀ p ∈ identities, PskIdentity.framing.Fits p)
      (hlen : (PskIdentity.framing.writeAll identities).length < 65536)
      (hbinders : binders.length < 65536) :
      Encodes 41 (.preSharedKey identities binders.length)
        (vec16 (PskIdentity.framing.writeAll identities) ++ vec16 binders)
  | earlyData : Encodes 42 .earlyData []
  /-- The ClientHello form: a list. -/
  | clientVersions {versions : List UInt16} (hlen : versions.length ≤ 127) :
      Encodes 43 (.supportedVersions versions) (vec8 (u16List versions))
  /-- The ServerHello form: one version. -/
  | serverVersion (version : UInt16) :
      Encodes 43 (.supportedVersions [version]) (u16ToBe version)
  | cookie {cookie : Bytes} (hlen : cookie.length < 65536) :
      Encodes 44 (.cookie cookie) (vec16 cookie)
  | pskKeyExchangeModes {modes : Bytes} (hlen : modes.length < 256) :
      Encodes 45 (.pskKeyExchangeModes modes) (vec8 modes)
  /-- The ClientHello form: a list. -/
  | clientKeyShare {entries : List KeyShareEntry} (hentries : ∀ e ∈ entries, e.Fits)
      (hlen : (KeyShareEntry.framing.writeAll entries).length < 65536) :
      Encodes 51 (.keyShare entries) (vec16 (KeyShareEntry.framing.writeAll entries))
  /-- The ServerHello form: one entry. -/
  | serverKeyShare {entry : KeyShareEntry} (hentry : entry.Fits) :
      Encodes 51 (.keyShare [entry]) entry.encode

/-- Every byte of an accepted body belongs to what is decoded: nothing stands behind or between the
entries, and a bare `key_share` has one entry. -/
def ReadsWhole (extType : UInt16) (body : Bytes) : Prop :=
  match extType with
  | 0 =>
    match body with
    | b0 :: b1 :: rest => rest.length = (u16FromBe b0 b1).toNat ∧ Whole cutServerName rest
    | _ => True
  | 41 =>
    match body with
    | b0 :: b1 :: rest =>
      Whole cutPskIdentity (rest.take (u16FromBe b0 b1).toNat) ∧
        match rest.drop (u16FromBe b0 b1).toNat with
        | n0 :: n1 :: binders => binders.length = (u16FromBe n0 n1).toNat
        | _ => True
    | _ => True
  | 42 => body = []
  | 51 =>
    match body with
    | b0 :: b1 :: b2 :: b3 :: rest =>
      rest.length + 2 = (u16FromBe b0 b1).toNat ∨ rest.length = (u16FromBe b2 b3).toNat
    | _ => False
  | _ => True

end SeeHandshake

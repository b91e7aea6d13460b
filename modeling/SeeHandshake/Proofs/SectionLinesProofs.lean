import SeeHandshake.Proofs.ExtensionProofs
import SeeHandshake.Proofs.KeyShareProofs

/-!
# The lines of a section

What is decoded from bytes is no more than these bytes, and so are the lines that show it, up to a constant
factor: of an extension, and of the sections of a record.
-/

namespace SeeHandshake

open Lib Panicking

/-! ## What an extension holds -/

/-- The entries of a decoded body take no more than `n` bytes. -/
def ExtensionBody.Within (n : ℕ) : ExtensionBody → Prop
  | .serverName entries => total (fun e => 3 + e.name.length) entries ≤ n
  | .supportedVersions versions => versions.length ≤ n
  | .signatureAlgorithms codes => codes.length ≤ n
  | .keyShare entries => total (fun e => 4 + e.keyExchange.length) entries ≤ n
  | .supportedGroups groups => groups.length ≤ n
  | .alpn protos => total (fun p => 1 + p.length) protos ≤ n
  | .pskKeyExchangeModes modes => modes.length ≤ n
  | .cookie bytes => bytes.length ≤ n
  | .preSharedKey identities bindersLen =>
    total (fun id => 6 + id.identity.length) identities ≤ n ∧ bindersLen < 65536
  | .earlyData => True
  | .opaqueBody => True

theorem length_u16Chunks_le (bytes : Bytes) : (u16Chunks bytes).length ≤ bytes.length := by
  fun_induction u16Chunks bytes <;> simp only [List.length_cons, List.length_nil] at * <;> omega

theorem length_readOpaqueU16 {body list : Bytes} (h : readOpaqueU16 body = some list) :
    list.length ≤ body.length := by
  unfold readOpaqueU16 at h
  split at h
  · split_ifs at h
    obtain rfl := Option.some.inj h
    simp only [List.length_cons]
    omega
  · cases h

theorem decodeServerName_within {body : Bytes} {entries : List ServerNameEntry}
    (h : decodeServerName body = some entries) : total (fun e => 3 + e.name.length) entries ≤ body.length := by
  unfold decodeServerName at h
  split at h
  · rename_i b0 b1 rest
    simp only at h
    split_ifs at h
    split at h
    · cases h
    · obtain rfl := Option.some.inj h
      have hcut : ∀ xs (e : ServerNameEntry) n, cutServerName xs = .frame e n →
          3 + e.name.length ≤ n ∧ n ≤ xs.length := by
        intro xs e n hcut
        obtain ⟨l1, l2, tail, rfl, -, rfl⟩ := ServerNameEntry.cut_eq_frame hcut
        simp only [List.length_cons, List.length_append]
        omega
      have hframes := total_frames_le hcut ((b0 :: b1 :: rest).length + 1) (rest.take (u16FromBe b0 b1).toNat)
      have htake := List.length_take_le' (u16FromBe b0 b1).toNat rest
      simp only [List.length_cons] at hframes ⊢
      omega
  · cases h

theorem parseKeyShareEntries_within {cursor : Bytes} {entries : List KeyShareEntry}
    (h : parseKeyShareEntries cursor = some entries) :
    total (fun e => 4 + e.keyExchange.length) entries ≤ cursor.length := by
  unfold parseKeyShareEntries at h
  simp only at h
  split at h
  · cases h
  · split_ifs at h
    obtain rfl := Option.some.inj h
    refine total_frames_le ?_ _ _
    intro xs e n hcut
    obtain ⟨g1, g2, l1, l2, tail, rfl, -, -, rfl⟩ := KeyShareEntry.cut_eq_frame hcut
    simp only [List.length_cons, List.length_append]
    omega

theorem decodeKeyShare_within {body : Bytes} {entries : List KeyShareEntry}
    (h : decodeKeyShare body = some entries) :
    total (fun e => 4 + e.keyExchange.length) entries ≤ body.length := by
  unfold decodeKeyShare at h
  split at h
  · split_ifs at h
    · have hentries := parseKeyShareEntries_within h
      simp only [List.length_cons] at hentries ⊢
      omega
    · exact parseKeyShareEntries_within h
  · exact parseKeyShareEntries_within h

theorem decodeAlpn_within {body : Bytes} {protos : List Bytes} (h : decodeAlpn body = some protos) :
    total (fun p => 1 + p.length) protos ≤ body.length := by
  unfold decodeAlpn at h
  obtain ⟨list, hlist, h⟩ := Option.bind_eq_some_iff.mp h
  have hle := length_readOpaqueU16 hlist
  simp only at h
  split at h
  · cases h
  · obtain rfl := Option.some.inj h
    have hcut : ∀ xs (p : Bytes) n, cutAlpn xs = .frame p n → 1 + p.length ≤ n ∧ n ≤ xs.length := by
      intro xs p n hcut
      obtain ⟨len, tail, rfl, -, rfl⟩ := cutAlpn_eq_frame hcut
      simp only [List.length_cons, List.length_append]
      omega
    exact (total_frames_le hcut (list.length + 1) list).trans hle

theorem decodePreSharedKey_within {body : Bytes} {decoded : ExtensionBody}
    (h : decodePreSharedKey body = some decoded) : decoded.Within body.length := by
  unfold decodePreSharedKey at h
  split at h
  · rename_i b0 b1 rest
    simp only at h
    split at h
    · rename_i n0 n1 tail hdrop
      split at h
      · cases h
      · obtain rfl := Option.some.inj h
        refine ⟨?_, u16FromBe_lt n0 n1⟩
        have hcut : ∀ xs (id : PskIdentity) n, cutPskIdentity xs = .frame id n →
            6 + id.identity.length ≤ n ∧ n ≤ xs.length := by
          intro xs id n hcut
          obtain ⟨l1, l2, a, b, c, d, tail, rfl, hlen, -, rfl⟩ := PskIdentity.cutPskIdentity_eq_frame hcut
          simp only [List.length_cons, List.length_append]
          omega
        have hframes := total_frames_le hcut ((b0 :: b1 :: rest).length + 1) (rest.take (u16FromBe b0 b1).toNat)
        have htake := List.length_take_le' (u16FromBe b0 b1).toNat rest
        simp only [List.length_cons] at hframes ⊢
        omega
    · cases h
  · cases h

theorem length_decodeSignatureAlgorithms {body : Bytes} {codes : List UInt16}
    (h : decodeSignatureAlgorithms body = some codes) : codes.length ≤ body.length := by
  obtain ⟨list, hlist, h⟩ := Option.bind_eq_some_iff.mp h
  split_ifs at h
  obtain rfl := Option.some.inj h
  exact (length_u16Chunks_le list).trans (length_readOpaqueU16 hlist)

theorem length_decodePskKeyExchangeModes {body modes : Bytes}
    (h : decodePskKeyExchangeModes body = some modes) : modes.length ≤ body.length := by
  unfold decodePskKeyExchangeModes at h
  split at h
  · cases h
  · split_ifs at h
    obtain rfl := Option.some.inj h
    exact Nat.le_succ _

theorem length_decodeSupportedVersions {body : Bytes} {versions : List UInt16}
    (h : decodeSupportedVersions body = some versions) : versions.length ≤ body.length := by
  unfold decodeSupportedVersions at h
  split at h
  · obtain rfl := Option.some.inj h
    simp only [List.length_cons, List.length_nil]
    omega
  · cases h
  · rename_i b0 rest _
    split_ifs at h
    obtain rfl := Option.some.inj h
    have hchunks := length_u16Chunks_le rest
    rw [List.length_cons]
    omega

/-- A decoded body takes no more than the bytes it was decoded from. -/
theorem decodeBody_within {extType : UInt16} {raw : Bytes} {body : ExtensionBody}
    (h : decodeBody extType raw = some body) : body.Within raw.length := by
  unfold decodeBody at h
  split at h
  · obtain ⟨entries, hentries, rfl⟩ := Option.map_eq_some_iff.mp h
    exact decodeServerName_within hentries
  · obtain ⟨groups, hgroups, rfl⟩ := Option.map_eq_some_iff.mp h
    obtain ⟨list, hlist, hgroups⟩ := Option.bind_eq_some_iff.mp hgroups
    split_ifs at hgroups
    obtain rfl := Option.some.inj hgroups
    show ((u16Chunks list).map NamedGroup.fromU16).length ≤ raw.length
    rw [List.length_map]
    exact (length_u16Chunks_le list).trans (length_readOpaqueU16 hlist)
  · obtain ⟨codes, hcodes, rfl⟩ := Option.map_eq_some_iff.mp h
    exact length_decodeSignatureAlgorithms hcodes
  · obtain ⟨codes, hcodes, rfl⟩ := Option.map_eq_some_iff.mp h
    exact length_decodeSignatureAlgorithms hcodes
  · obtain ⟨protos, hprotos, rfl⟩ := Option.map_eq_some_iff.mp h
    exact decodeAlpn_within hprotos
  · exact decodePreSharedKey_within h
  · obtain rfl := Option.some.inj h
    trivial
  · obtain ⟨versions, hversions, rfl⟩ := Option.map_eq_some_iff.mp h
    exact length_decodeSupportedVersions hversions
  · obtain ⟨bytes, hbytes, rfl⟩ := Option.map_eq_some_iff.mp h
    exact length_readOpaqueU16 hbytes
  · obtain ⟨modes, hmodes, rfl⟩ := Option.map_eq_some_iff.mp h
    exact length_decodePskKeyExchangeModes hmodes
  · obtain ⟨entries, hentries, rfl⟩ := Option.map_eq_some_iff.mp h
    exact decodeKeyShare_within hentries
  · cases h

/-! ## The lines of an extension -/

theorem length_keyShareHeader_le {e : KeyShareEntry} {i : ℕ} (hi : i + 1 < 100000)
    (h : e.keyExchange.length < 65536) (isClient : Bool) : (keyShareHeader e i isClient).length ≤ 100 := by
  have hgroup := e.group.length_display_le
  have hposition := length_decimal_le hi
  have hlength := length_decimal_le (by omega : e.keyExchange.length < 100000)
  have h1 : "● Offer #".toList.length = 9 := rfl
  have h2 : ": ".toList.length = 2 := rfl
  have h3 : "● Server pick: ".toList.length = 15 := rfl
  have h4 : " (0x".toList.length = 4 := rfl
  have h5 : ")  —  key_len ".toList.length = 14 := rfl
  have h6 : " B".toList.length = 2 := rfl
  unfold keyShareHeader
  cases isClient with
  | true =>
    simp only [if_true, List.length_append, length_hexWord, h1, h2, h4, h5, h6]
    omega
  | false =>
    simp only [Bool.false_eq_true, if_false, List.length_append, length_hexWord, h3, h4, h5, h6]
    omega

/-- The lines of the entries from a position on. -/
theorem keyShareLinesFrom_ok (isClient : Bool) {entries : List KeyShareEntry} {i : ℕ}
    (hentries : ∀ e ∈ entries, e.keyExchange.length < 65536) (hi : i + entries.length < 100000) :
    ∃ ls, keyShareLinesFrom isClient i entries = .ok ls ∧
      linesSize ls ≤ 512 * total (fun e => 4 + e.keyExchange.length) entries := by
  induction entries generalizing i with
  | nil => exact ⟨[], rfl, Nat.le_refl 0⟩
  | cons e entries ih =>
    have hkey := hentries e List.mem_cons_self
    rw [List.length_cons] at hi
    obtain ⟨body, hbody, hsize⟩ := keyShareStructure_ok hkey
    obtain ⟨rest, hrest, hrestSize⟩ := @ih (i + 1) (fun e he => hentries e (List.mem_cons_of_mem _ he)) (by omega)
    unfold keyShareLinesFrom keyShareEntryLines
    rw [hbody, ok_bind, hrest]
    refine ⟨_, rfl, ?_⟩
    have hlines : linesSize (body.map KeyShareLine.render) ≤ keySize body :=
      linesSize_map_le fun l _ => Nat.succ_le_succ l.length_render_le
    have hblank : linesSize (if i > 0 then [rawLine []] else []) ≤ 1 := by
      split
      · exact Nat.le_refl 1
      · exact Nat.zero_le 1
    have hheader := length_keyShareHeader_le (by omega : i + 1 < 100000) hkey isClient
    rw [linesSize_append, linesSize_append, linesSize_cons, length_headerLine, total_cons]
    omega

/-- One line with a text behind a label. -/
theorem linesSize_wireLine (s : List Char) : linesSize [wireLine s] = s.length + 1 := by
  rw [linesSize_cons, linesSize_nil, length_wireLine]

theorem length_sniLine_le (e : ServerNameEntry) : (sniLine e).chars.length + 1 ≤ 512 * (3 + e.name.length) := by
  have hname := length_utf8LossyChars_le e.name
  have h1 : "name_type=".toList.length = 10 := rfl
  have h2 : "  name=".toList.length = 7 := rfl
  unfold sniLine
  rw [length_wireLine]
  simp only [List.length_append, length_hexByte, h1, h2]
  omega

theorem length_pskIdentityLine_le {id : PskIdentity} (h : id.identity.length < 65536) :
    (pskIdentityLine id).chars.length + 1 ≤ 512 * (6 + id.identity.length) := by
  have hage := length_hexPadded (by omega : 0 < 8) (id.obfuscatedTicketAge.toNat_lt : _ < 16 ^ 8)
  have hcount := length_byteCount_le (by omega : id.identity.length < 100000)
  have hhex := length_hexInline_le id.identity
  have h1 : "  identity ".toList.length = 11 := rfl
  have h2 : " age=0x".toList.length = 7 := rfl
  have h3 : ": ".toList.length = 2 := rfl
  unfold pskIdentityLine
  rw [length_wireLine]
  simp only [List.length_append, hage, h1, h2, h3]
  omega

/-- A label and some values behind it, with commas between them. -/
theorem linesSize_joined_le {α : Type} {label : List Char} (hlabel : label.length ≤ 16) {f : α → List Char}
    {xs : List α} {n : ℕ} (h : total (fun x => (f x).length + 2) xs ≤ 256 * n) :
    linesSize [wireLine (label ++ joinComma (xs.map f))] ≤ 512 * (n + 1) := by
  have hjoin := length_joinComma_le f xs
  rw [linesSize_wireLine, List.length_append]
  omega

/-- Values of bounded length. -/
theorem total_bounded_le {α : Type} {f : α → List Char} (hf : ∀ x, (f x).length ≤ 23) {xs : List α} {n : ℕ}
    (hxs : xs.length ≤ n) : total (fun x => (f x).length + 2) xs ≤ 256 * n := by
  have hall : total (fun x => (f x).length + 2) xs ≤ 25 * xs.length :=
    total_le_mul fun x _ => Nat.add_le_add_right (hf x) 2
  omega

/-- The lines of a body whose entries take up to `n` bytes. -/
theorem extensionLines_ok {ext : DecodedExtension} {n : ℕ} (hn : n < 65536) (hraw : ext.raw.length ≤ n)
    (h : ext.body.Within n) :
    ∃ ls, extensionLines ext = .ok ls ∧ linesSize ls ≤ 512 * (n + 1) := by
  unfold extensionLines
  cases hbody : ext.body with
  | serverName entries =>
    rw [hbody] at h
    have hsize := linesSize_map_le fun e (_ : e ∈ entries) => length_sniLine_le e
    rw [total_mul] at hsize
    exact ⟨_, rfl, hsize.trans (Nat.mul_le_mul_left 512 (Nat.le_succ_of_le h))⟩
  | supportedVersions versions =>
    rw [hbody] at h
    have hversion (v : UInt16) : (TlsVersion.fromU16 v).display.toList.length ≤ 23 :=
      (TlsVersion.length_display_le _).trans (by omega)
    exact ⟨_, rfl, linesSize_joined_le (by decide) (total_bounded_le hversion h)⟩
  | signatureAlgorithms codes =>
    rw [hbody] at h
    have hcode (c : UInt16) : ("0x".toList ++ (hexWord c).toList).length ≤ 23 := by
      have hmark : "0x".toList.length = 2 := rfl
      rw [List.length_append, length_hexWord, hmark]
      omega
    exact ⟨_, rfl, linesSize_joined_le (by decide) (total_bounded_le hcode h)⟩
  | keyShare entries =>
    rw [hbody] at h
    have hentries : ∀ e ∈ entries, e.keyExchange.length < 65536 := by
      intro e he
      have hle := le_total (w := fun e : KeyShareEntry => 4 + e.keyExchange.length) he
      have htotal : total (fun e => 4 + e.keyExchange.length) entries ≤ n := h
      omega
    have hcount : entries.length ≤ total (fun e => 4 + e.keyExchange.length) entries :=
      length_le_total fun e _ => by omega
    obtain ⟨ls, hls, hsize⟩ := keyShareLinesFrom_ok true hentries (i := 0) (by
      have htotal : total (fun e => 4 + e.keyExchange.length) entries ≤ n := h
      omega)
    exact ⟨ls, hls, hsize.trans (Nat.mul_le_mul_left 512 (Nat.le_succ_of_le h))⟩
  | supportedGroups groups =>
    rw [hbody] at h
    exact ⟨_, rfl, linesSize_joined_le (by decide) (total_bounded_le NamedGroup.length_display_le h)⟩
  | alpn protos =>
    rw [hbody] at h
    have htotal : total (fun p : Bytes => (AlpnProtocol.fromBytes p).display.toList.length + 2) protos ≤
        256 * total (fun p => 1 + p.length) protos := by
      rw [← total_mul]
      refine total_mono fun p _ => ?_
      have hp := AlpnProtocol.length_display_le p
      omega
    exact ⟨_, rfl, linesSize_joined_le (by decide) (htotal.trans (Nat.mul_le_mul_left 256 h))⟩
  | pskKeyExchangeModes modes =>
    rw [hbody] at h
    have hmode (mode : UInt8) : (pskModeText mode).length ≤ 23 := (length_pskModeText_le mode).trans (by omega)
    exact ⟨_, rfl, linesSize_joined_le (by decide) (total_bounded_le hmode h)⟩
  | cookie bytes =>
    rw [hbody] at h
    have hbytes : bytes.length ≤ n := h
    have hcount := length_byteCount_le (by omega : bytes.length < 100000)
    have hhex := length_hexInline_le bytes
    have h1 : "cookie ".toList.length = 7 := rfl
    have h2 : ": ".toList.length = 2 := rfl
    refine ⟨_, rfl, ?_⟩
    rw [linesSize_wireLine]
    simp only [List.length_append, h1, h2]
    omega
  | preSharedKey identities bindersLen =>
    rw [hbody] at h
    obtain ⟨htotal, hbinders⟩ := h
    have hidentity : ∀ id ∈ identities, (pskIdentityLine id).chars.length + 1 ≤ 512 * (6 + id.identity.length) := by
      intro id hid
      have hle := le_total (w := fun id : PskIdentity => 6 + id.identity.length) hid
      exact length_pskIdentityLine_le (by omega)
    have hcount : identities.length ≤ total (fun id => 6 + id.identity.length) identities :=
      length_le_total fun id _ => by omega
    have hsize := linesSize_map_le hidentity
    rw [total_mul] at hsize
    have hnumber := length_decimal_le (by omega : identities.length < 100000)
    have hlen := length_decimal_le (by omega : bindersLen < 100000)
    have h1 : "identities: ".toList.length = 12 := rfl
    have h2 : ", binders_len: ".toList.length = 15 := rfl
    have h3 : " B".toList.length = 2 := rfl
    refine ⟨_, rfl, ?_⟩
    rw [linesSize_cons, length_wireLine]
    simp only [List.length_append, h1, h2, h3]
    omega
  | earlyData =>
    have hempty : linesSize [rawLine "(empty body)".toList] ≤ 512 := by decide
    exact ⟨_, rfl, hempty.trans (by omega)⟩
  | opaqueBody =>
    simp only
    split
    · have hempty : linesSize [rawLine "(empty body)".toList] ≤ 512 := by decide
      exact ⟨_, rfl, hempty.trans (by omega)⟩
    · have hhex := length_hexInline_le ext.raw
      have hlabel : "raw: ".toList.length = 5 := rfl
      refine ⟨_, rfl, ?_⟩
      rw [linesSize_wireLine, List.length_append, hlabel]
      omega

end SeeHandshake

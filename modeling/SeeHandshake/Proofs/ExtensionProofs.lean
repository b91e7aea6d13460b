import SeeHandshake.Parser.ExtensionForms

/-!
# Proofs: the extension decoders

Decoding an extension body undoes encoding it, and an accepted body is an encoding exactly when every
byte of it is read. The forms of `key_share` are told apart by their lengths alone, which is right for
some values only.
-/

namespace SeeHandshake

open Lib

/-! ## Vectors -/

theorem readOpaqueU16_eq_some_iff {body list : Bytes} :
    readOpaqueU16 body = some list ↔ list.length < 65536 ∧ body = vec16 list := by
  constructor
  · intro h
    unfold readOpaqueU16 at h
    split at h
    · rename_i b0 b1 rest
      split_ifs at h with hlen
      obtain rfl := Option.some.inj h
      have hlt := u16FromBe_lt b0 b1
      exact ⟨by omega, (vec16_of_length (by omega)).symm⟩
    · cases h
  · rintro ⟨hlen, rfl⟩
    obtain ⟨l1, l2, hvec, hlen'⟩ := vec16_eq hlen
    rw [hvec, readOpaqueU16, if_neg (by omega)]

/-- A vector of two-byte numbers. -/
theorem readOpaqueU16_u16List {vs : List UInt16} (h : (u16List vs).length < 65536) :
    readOpaqueU16 (vec16 (u16List vs)) = some (u16List vs) ∧ (u16List vs).length % 2 = 0 := by
  refine ⟨readOpaqueU16_eq_some_iff.mpr ⟨h, rfl⟩, ?_⟩
  rw [u16List_length]
  omega

/-! ## Decoding undoes encoding -/

theorem decodeSupportedGroups_encode {groups : List NamedGroup} (hgroups : ∀ g ∈ groups, g.Fits)
    (hlen : (u16List (groups.map NamedGroup.code)).length < 65536) :
    decodeSupportedGroups (vec16 (u16List (groups.map NamedGroup.code))) = some groups := by
  obtain ⟨hread, heven⟩ := readOpaqueU16_u16List hlen
  have hmap : (groups.map NamedGroup.code).map NamedGroup.fromU16 = groups := by
    rw [List.map_map]
    exact (List.map_congr_left hgroups).trans (List.map_id groups)
  unfold decodeSupportedGroups
  rw [hread]
  show (if _ then _ else _) = _
  rw [if_neg (by omega), u16Chunks_u16List, hmap]

theorem NamedGroup.map_code_fromU16 (codes : List UInt16) :
    (codes.map fromU16).map code = codes :=
  Function.LeftInverse.list_map code_fromU16 codes

/-- Any list of codes encodes the groups that it is decoded to. -/
theorem encodes_groups {codes : List UInt16} (hlen : (u16List codes).length < 65536) :
    Encodes 10 (.supportedGroups (codes.map NamedGroup.fromU16)) (vec16 (u16List codes)) := by
  have hfits : ∀ g ∈ codes.map NamedGroup.fromU16, g.Fits := by
    intro g hg
    obtain ⟨v, -, rfl⟩ := List.mem_map.mp hg
    exact NamedGroup.fits_fromU16 v
  have hcodes := NamedGroup.map_code_fromU16 codes
  have henc := Encodes.supportedGroups hfits (by rwa [hcodes])
  rwa [hcodes] at henc

theorem decodeSignatureAlgorithms_encode {schemes : List UInt16}
    (hlen : (u16List schemes).length < 65536) :
    decodeSignatureAlgorithms (vec16 (u16List schemes)) = some schemes := by
  obtain ⟨hread, heven⟩ := readOpaqueU16_u16List hlen
  unfold decodeSignatureAlgorithms
  rw [hread]
  show (if _ then _ else _) = _
  rw [if_neg (by omega), u16Chunks_u16List]

theorem decodeServerName_encode {entries : List ServerNameEntry}
    (hentries : ∀ e ∈ entries, ServerNameEntry.framing.Fits e)
    (hlen : (ServerNameEntry.framing.writeAll entries).length < 65536) :
    decodeServerName (vec16 (ServerNameEntry.framing.writeAll entries)) = some entries := by
  obtain ⟨l1, l2, hvec, hlen'⟩ := vec16_eq hlen
  rw [hvec]
  unfold decodeServerName
  simp only [hlen', List.take_length, List.length_cons]
  rw [if_neg (Nat.lt_irrefl _)]
  have hpeel := ServerNameEntry.framing.peelLoop_writeAll rfl hentries
    (show _ < (ServerNameEntry.framing.writeAll entries).length + 1 + 1 + 1 by omega)
  change peelLoop cutServerName _ _ = _ at hpeel
  rw [hpeel]
  simp [Function.comp_def]

theorem decodeAlpn_encode {protocols : List Bytes} (hprotocols : ∀ p ∈ protocols, p.length < 256)
    (hlen : (alpnFraming.writeAll protocols).length < 65536) :
    decodeAlpn (vec16 (alpnFraming.writeAll protocols)) = some protocols := by
  unfold decodeAlpn
  rw [readOpaqueU16_eq_some_iff.mpr ⟨hlen, rfl⟩]
  have hpeel := alpnFraming.peelLoop_writeAll rfl hprotocols (Nat.lt_succ_self _)
  change peelLoop cutAlpn _ _ = _ at hpeel
  simp only [Option.bind_eq_bind, Option.bind_some, hpeel]
  simp [Function.comp_def]

theorem decodePreSharedKey_encode {identities : List PskIdentity} {binders : Bytes}
    (hidentities : ∀ p ∈ identities, PskIdentity.framing.Fits p)
    (hlen : (PskIdentity.framing.writeAll identities).length < 65536)
    (hbinders : binders.length < 65536) :
    decodePreSharedKey (vec16 (PskIdentity.framing.writeAll identities) ++ vec16 binders) =
      some (.preSharedKey identities binders.length) := by
  obtain ⟨l1, l2, hvec, hlen'⟩ := vec16_eq hlen
  obtain ⟨n1, n2, hbvec, hblen⟩ := vec16_eq hbinders
  rw [hvec, hbvec]
  unfold decodePreSharedKey
  simp only [List.cons_append, hlen', List.drop_left, List.take_left, hblen]
  have hpeel := PskIdentity.framing.peelLoop_writeAll rfl hidentities
    (show _ < (l1 :: l2 :: (PskIdentity.framing.writeAll identities ++
      n1 :: n2 :: binders)).length + 1 by simp only [List.length_cons, List.length_append]; omega)
  change peelLoop cutPskIdentity _ _ = _ at hpeel
  rw [hpeel]
  simp [Function.comp_def]

/-- A list of versions takes an odd number of bytes, so it is not taken for a single version. -/
theorem decodeSupportedVersions_encode {versions : List UInt16} (hlen : versions.length ≤ 127) :
    decodeSupportedVersions (vec8 (u16List versions)) = some versions := by
  have heven := u16List_length versions
  have hshort : (u16List versions).length < 256 := by omega
  obtain ⟨l, hvec, hl⟩ := vec8_eq hshort
  rw [hvec]
  unfold decodeSupportedVersions
  split
  · rename_i b0 b1 hbytes
    have hone := congrArg List.length hbytes
    simp only [List.length_cons, List.length_nil] at hone
    omega
  · rename_i hbytes
    cases hbytes
  · rename_i b0 rest _ hbytes
    obtain ⟨rfl, rfl⟩ := List.cons.inj hbytes
    rw [if_neg (by omega), u16Chunks_u16List]

theorem decodePskKeyExchangeModes_encode {modes : Bytes} (hlen : modes.length < 256) :
    decodePskKeyExchangeModes (vec8 modes) = some modes := by
  obtain ⟨l, hvec, hl⟩ := vec8_eq hlen
  rw [hvec, decodePskKeyExchangeModes, if_neg (by omega)]

/-- A value of any type but `key_share` is decoded from each of its encodings. -/
theorem decodeBody_of_encodes {extType : UInt16} {value : ExtensionBody} {body : Bytes}
    (h : Encodes extType value body) (htype : extType ≠ 51) :
    decodeBody extType body = some value := by
  cases h with
  | serverName hentries hlen =>
    exact congrArg (Option.map ExtensionBody.serverName) (decodeServerName_encode hentries hlen)
  | supportedGroups hgroups hlen =>
    exact congrArg (Option.map ExtensionBody.supportedGroups) (decodeSupportedGroups_encode hgroups hlen)
  | signatureAlgorithms hlen =>
    exact congrArg (Option.map ExtensionBody.signatureAlgorithms) (decodeSignatureAlgorithms_encode hlen)
  | signatureAlgorithmsCert hlen =>
    exact congrArg (Option.map ExtensionBody.signatureAlgorithms) (decodeSignatureAlgorithms_encode hlen)
  | alpn hprotocols hlen =>
    exact congrArg (Option.map ExtensionBody.alpn) (decodeAlpn_encode hprotocols hlen)
  | preSharedKey hidentities hlen hbinders =>
    exact decodePreSharedKey_encode hidentities hlen hbinders
  | earlyData => rfl
  | clientVersions hlen =>
    exact congrArg (Option.map ExtensionBody.supportedVersions) (decodeSupportedVersions_encode hlen)
  | serverVersion version =>
    show some (ExtensionBody.supportedVersions [u16FromBe _ _]) = _
    rw [u16FromBe_u16ToBe]
  | cookie hlen =>
    exact congrArg (Option.map ExtensionBody.cookie) (readOpaqueU16_eq_some_iff.mpr ⟨hlen, rfl⟩)
  | pskKeyExchangeModes hlen =>
    exact congrArg (Option.map ExtensionBody.pskKeyExchangeModes) (decodePskKeyExchangeModes_encode hlen)
  | clientKeyShare _ _ => exact absurd rfl htype
  | serverKeyShare _ => exact absurd rfl htype

/-- Decoding an extension undoes encoding it, for every type but `key_share`; no group code is lost,
and what a ClientHello carries is never what a ServerHello carries. -/
theorem decodeExtension_encode :
    (∀ extType value body, Encodes extType value body → extType ≠ 51 →
      (decodeExtension extType body).body = value) ∧
    (∀ codes, (u16List codes).length < 65536 →
      (decodeExtension 10 (vec16 (u16List codes))).body =
        .supportedGroups (codes.map NamedGroup.fromU16) ∧
      (codes.map NamedGroup.fromU16).map NamedGroup.code = codes) ∧
    (∀ versions version, versions.length ≤ 127 → vec8 (u16List versions) ≠ u16ToBe version) ∧
    (∀ identities binders selected,
      vec16 (PskIdentity.framing.writeAll identities) ++ vec16 binders ≠ u16ToBe selected) := by
  have hdecode : ∀ extType value body, Encodes extType value body → extType ≠ 51 →
      (decodeExtension extType body).body = value := by
    intro extType value body h htype
    rw [decodeExtension, decodeBody_of_encodes h htype]
    rfl
  refine ⟨hdecode, ?_, ?_, ?_⟩
  · intro codes hlen
    exact ⟨hdecode _ _ _ (encodes_groups hlen) (by decide), NamedGroup.map_code_fromU16 codes⟩
  · intro versions version hlen heq
    have heven := u16List_length versions
    have hlens := congrArg List.length heq
    rw [vec8_length, u16ToBe_length] at hlens
    omega
  · intro identities binders selected heq
    have hlens := congrArg List.length heq
    rw [List.length_append, vec16_length, vec16_length, u16ToBe_length] at hlens
    omega

/-- The host name `a`, and the two forms of `supported_versions`. -/
theorem decodeExtension_encode_hostName :
    (decodeExtension 0 [0, 4, 0, 0, 1, 0x61]).body = .serverName [⟨0, [0x61]⟩] ∧
      (decodeExtension 43 [2, 3, 4]).body = .supportedVersions [0x0304] ∧
      (decodeExtension 43 [3, 4]).body = .supportedVersions [0x0304] := by
  refine ⟨?_, ?_, ?_⟩
  · exact decodeExtension_encode.1 0 (.serverName [⟨0, [0x61]⟩]) _
      (Encodes.serverName (by simp [ServerNameEntry.framing]) (by decide)) (by decide)
  · exact decodeExtension_encode.1 43 (.supportedVersions [0x0304]) _
      (Encodes.clientVersions (by decide)) (by decide)
  · exact decodeExtension_encode.1 43 (.supportedVersions [0x0304]) _
      (Encodes.serverVersion 0x0304) (by decide)

/-! ## Encoding undoes decoding -/

/-- A vector of an even number of bytes is a vector of numbers. -/
theorem vec16_u16List_of_read {body list : Bytes} (h : readOpaqueU16 body = some list)
    (heven : list.length % 2 = 0) :
    (u16List (u16Chunks list)).length < 65536 ∧ vec16 (u16List (u16Chunks list)) = body := by
  obtain ⟨hlen, rfl⟩ := readOpaqueU16_eq_some_iff.mp h
  rw [u16List_u16Chunks heven]
  exact ⟨hlen, rfl⟩

theorem decodeSupportedGroups_sound {body : Bytes} {groups : List NamedGroup}
    (h : decodeSupportedGroups body = some groups) : Encodes 10 (.supportedGroups groups) body := by
  unfold decodeSupportedGroups at h
  obtain ⟨list, hread, h⟩ := Option.bind_eq_some_iff.mp h
  split_ifs at h with hodd
  obtain rfl := Option.some.inj h
  obtain ⟨hlen, hbody⟩ := vec16_u16List_of_read hread (by omega)
  rw [← hbody]
  exact encodes_groups hlen

theorem decodeSignatureAlgorithms_sound {body : Bytes} {schemes : List UInt16}
    (h : decodeSignatureAlgorithms body = some schemes) :
    (u16List schemes).length < 65536 ∧ vec16 (u16List schemes) = body := by
  unfold decodeSignatureAlgorithms at h
  obtain ⟨list, hread, h⟩ := Option.bind_eq_some_iff.mp h
  split_ifs at h with hodd
  obtain rfl := Option.some.inj h
  exact vec16_u16List_of_read hread (by omega)

theorem decodeSupportedVersions_sound {body : Bytes} {versions : List UInt16}
    (h : decodeSupportedVersions body = some versions) :
    Encodes 43 (.supportedVersions versions) body := by
  unfold decodeSupportedVersions at h
  split at h
  · rename_i b0 b1
    obtain rfl := Option.some.inj h
    have henc := Encodes.serverVersion (u16FromBe b0 b1)
    rwa [u16ToBe_u16FromBe] at henc
  · cases h
  · rename_i b0 rest _
    split_ifs at h with hlen
    obtain rfl := Option.some.inj h
    obtain ⟨hlen, heven⟩ := not_or.mp hlen
    have hlist := u16List_u16Chunks (show rest.length % 2 = 0 by omega)
    have hshort : (u16Chunks rest).length ≤ 127 := by
      have hb0 := b0.toNat_lt
      have hcount := u16List_length (u16Chunks rest)
      rw [hlist] at hcount
      omega
    have hrest : rest.length = b0.toNat := by omega
    have henc := Encodes.clientVersions hshort
    rwa [hlist, vec8_of_length hrest] at henc

theorem decodePskKeyExchangeModes_sound {body modes : Bytes}
    (h : decodePskKeyExchangeModes body = some modes) :
    Encodes 45 (.pskKeyExchangeModes modes) body := by
  unfold decodePskKeyExchangeModes at h
  split at h
  · cases h
  · rename_i b0 rest
    split_ifs at h with hlen
    obtain rfl := Option.some.inj h
    have hb0 := b0.toNat_lt
    have hrest : rest.length = b0.toNat := by omega
    have henc := @Encodes.pskKeyExchangeModes rest (by omega)
    rwa [vec8_of_length hrest] at henc

/-- The loop of `decodeAlpn` stops at the end of the list only. -/
theorem whole_cutAlpn {list : Bytes} (h : (peelLoop cutAlpn (list.length + 1) list).stop = none) :
    Whole cutAlpn list := by
  have hcut := alpnFraming.cut_rest list
  rw [← Cutter.peelLoop_eq_peel (Nat.lt_succ_self _),
    show (peelLoop alpnFraming.cut (list.length + 1) list).stop = none from h] at hcut
  change cutAlpn (peelLoop cutAlpn (list.length + 1) list).rest = .need at hcut
  unfold Whole
  cases hrest : (peelLoop cutAlpn (list.length + 1) list).rest with
  | nil => rfl
  | cons len rest =>
    rw [hrest, cutAlpn] at hcut
    split_ifs at hcut

theorem decodeAlpn_sound {body : Bytes} {protocols : List Bytes}
    (h : decodeAlpn body = some protocols) : Encodes 16 (.alpn protocols) body := by
  unfold decodeAlpn at h
  obtain ⟨list, hread, hloop⟩ := Option.bind_eq_some_iff.mp h
  obtain ⟨hlen, hbody⟩ := readOpaqueU16_eq_some_iff.mp hread
  simp only at hloop
  split at hloop
  · cases hloop
  · rename_i hstop
    obtain rfl := Option.some.inj hloop
    obtain ⟨hfits, hwrite⟩ := alpnFraming.writeAll_peelLoop (whole_cutAlpn hstop) (Nat.lt_succ_self _)
    have henc := Encodes.alpn hfits (by rwa [hwrite])
    rw [hwrite, ← hbody] at henc
    exact henc

/-! ## What the lenient decoders skip -/

theorem encodes_serverName_iff {entries : List ServerNameEntry} {body : Bytes} :
    Encodes 0 (.serverName entries) body ↔
      (∀ e ∈ entries, ServerNameEntry.framing.Fits e) ∧
      (ServerNameEntry.framing.writeAll entries).length < 65536 ∧
      body = vec16 (ServerNameEntry.framing.writeAll entries) := by
  constructor
  · intro h
    cases h with
    | serverName hentries hlen => exact ⟨hentries, hlen, rfl⟩
  · rintro ⟨hentries, hlen, rfl⟩
    exact .serverName hentries hlen

/-- An accepted `server_name` body is an encoding iff nothing stands behind its list or in it behind
the last entry. -/
theorem encodes_iff_of_decodeServerName {body : Bytes} {entries : List ServerNameEntry}
    (h : decodeServerName body = some entries) :
    Encodes 0 (.serverName entries) body ↔ ReadsWhole 0 body := by
  rw [encodes_serverName_iff]
  unfold decodeServerName at h
  split at h
  · rename_i b0 b1 rest
    simp only at h
    split_ifs at h with hshort
    split at h
    · cases h
    · obtain rfl := Option.some.inj h
      show _ ↔ rest.length = (u16FromBe b0 b1).toNat ∧ Whole cutServerName rest
      constructor
      · rintro ⟨hfits, hlen, hbody⟩
        obtain ⟨hrest, hcount⟩ := (cons_eq_vec16_iff hlen).mp hbody
        rw [← hrest] at hcount
        exact ⟨hcount, (ServerNameEntry.framing.whole_iff rfl).mpr ⟨_, hfits, hrest⟩⟩
      · rintro ⟨hcount, hwhole⟩
        have htake : rest.take (u16FromBe b0 b1).toNat = rest := List.take_of_length_le (by omega)
        obtain ⟨hfits, hwrite⟩ := ServerNameEntry.framing.writeAll_peelLoop hwhole
          (show rest.length < (b0 :: b1 :: rest).length + 1 by simp only [List.length_cons]; omega)
        change ServerNameEntry.framing.writeAll ((peelLoop cutServerName _ rest).frames.map Prod.fst) =
          rest at hwrite
        have hlt := u16FromBe_lt b0 b1
        rw [htake, hwrite]
        exact ⟨hfits, by omega, (vec16_of_length hcount).symm⟩
  · cases h

theorem encodes_preSharedKey_iff {identities : List PskIdentity} {bindersLen : ℕ} {body : Bytes} :
    Encodes 41 (.preSharedKey identities bindersLen) body ↔
      (∀ p ∈ identities, PskIdentity.framing.Fits p) ∧
      (PskIdentity.framing.writeAll identities).length < 65536 ∧
      ∃ binders : Bytes, binders.length = bindersLen ∧ bindersLen < 65536 ∧
        body = vec16 (PskIdentity.framing.writeAll identities) ++ vec16 binders := by
  constructor
  · intro h
    cases h with
    | preSharedKey hidentities hlen hbinders => exact ⟨hidentities, hlen, _, rfl, hbinders, rfl⟩
  · rintro ⟨hidentities, hlen, binders, rfl, hbinders, rfl⟩
    exact .preSharedKey hidentities hlen hbinders

/-- An accepted `pre_shared_key` body is an encoding iff nothing stands behind the last identity, and
the binders end the body. -/
theorem encodes_iff_of_decodePreSharedKey {body : Bytes} {value : ExtensionBody}
    (h : decodePreSharedKey body = some value) : Encodes 41 value body ↔ ReadsWhole 41 body := by
  unfold decodePreSharedKey at h
  split at h
  · rename_i b0 b1 rest
    simp only at h
    split at h
    · rename_i n0 n1 binders hdrop
      split at h
      · cases h
      · obtain rfl := Option.some.inj h
        rw [encodes_preSharedKey_iff]
        show _ ↔ Whole cutPskIdentity (rest.take (u16FromBe b0 b1).toNat) ∧ _
        rw [hdrop]
        have hlen : (rest.take (u16FromBe b0 b1).toNat).length = (u16FromBe b0 b1).toNat := by
          have hdroplen := congrArg List.length hdrop
          simp only [List.length_drop, List.length_cons] at hdroplen
          rw [List.length_take]
          omega
        constructor
        · rintro ⟨hfits, hlist, tail, htail, hbinders, hbody⟩
          obtain ⟨hrest, hl⟩ := (cons_eq_vec16_append_iff hlist).mp hbody
          have hdrop' := List.drop_left.symm.trans (congrArg (List.drop _) hrest.symm)
          have htake := List.take_left.symm.trans (congrArg (List.take _) hrest.symm)
          rw [hl] at hdrop' htake
          obtain ⟨rfl, hcount⟩ := (cons_eq_vec16_iff (by omega)).mp (hdrop.symm.trans hdrop'.symm)
          exact ⟨(PskIdentity.framing.whole_iff rfl).mpr ⟨_, hfits, htake.symm⟩, hcount⟩
        · rintro ⟨hwhole, hbinders⟩
          obtain ⟨hfits, hwrite⟩ := PskIdentity.framing.writeAll_peelLoop hwhole
            (show _ < (b0 :: b1 :: rest).length + 1 by
              rw [List.length_take]; simp only [List.length_cons]; omega)
          change PskIdentity.framing.writeAll ((peelLoop cutPskIdentity _ _).frames.map Prod.fst) =
            _ at hwrite
          have hlt := u16FromBe_lt b0 b1
          refine ⟨hfits, by rw [hwrite]; omega, binders, hbinders, u16FromBe_lt n0 n1, ?_⟩
          rw [hwrite, vec16_of_length hlen, vec16_of_length hbinders, ← hdrop, List.cons_append,
            List.cons_append, List.take_append_drop]
    · cases h
  · cases h

theorem parseKeyShareEntries_eq_some_iff {cursor : Bytes} {entries : List KeyShareEntry} :
    parseKeyShareEntries cursor = some entries ↔
      (∀ e ∈ entries, e.Fits) ∧ cursor = KeyShareEntry.framing.writeAll entries := by
  constructor
  · intro h
    unfold parseKeyShareEntries at h
    simp only at h
    split at h
    · cases h
    · split_ifs at h with hrest
      obtain rfl := Option.some.inj h
      have hwhole : Whole cutKeyShare cursor := List.isEmpty_iff.mp hrest
      obtain ⟨hfits, hwrite⟩ := KeyShareEntry.framing.writeAll_peelLoop hwhole (Nat.lt_succ_self _)
      exact ⟨hfits, hwrite.symm⟩
  · rintro ⟨hfits, rfl⟩
    unfold parseKeyShareEntries
    have hpeel := KeyShareEntry.framing.peelLoop_writeAll rfl hfits (Nat.lt_succ_self _)
    change peelLoop cutKeyShare _ _ = _ at hpeel
    rw [hpeel]
    simp [Function.comp_def]

theorem encodes_keyShare_iff {entries : List KeyShareEntry} {body : Bytes} :
    Encodes 51 (.keyShare entries) body ↔
      (∀ e ∈ entries, e.Fits) ∧
      ((KeyShareEntry.framing.writeAll entries).length < 65536 ∧
          body = vec16 (KeyShareEntry.framing.writeAll entries) ∨
        ∃ e, entries = [e] ∧ body = e.encode) := by
  constructor
  · intro h
    cases h with
    | clientKeyShare hentries hlen => exact ⟨hentries, .inl ⟨hlen, rfl⟩⟩
    | serverKeyShare hentry => exact ⟨by simpa using hentry, .inr ⟨_, rfl, rfl⟩⟩
  · rintro ⟨hentries, ⟨hlen, rfl⟩ | ⟨e, rfl, rfl⟩⟩
    · exact .clientKeyShare hentries hlen
    · exact .serverKeyShare (hentries e (List.mem_singleton_self e))

theorem writeAll_singleton (e : KeyShareEntry) : KeyShareEntry.framing.writeAll [e] = e.encode :=
  List.append_nil _

theorem KeyShareEntry.encode_length (e : KeyShareEntry) : e.encode.length = e.keyExchange.length + 4 := by
  rw [encode, List.length_append, u16ToBe_length, vec16_length]
  omega

theorem ReadsWhole.four_le {body : Bytes} (h : ReadsWhole 51 body) : 4 ≤ body.length := by
  rcases body with _ | ⟨b0, _ | ⟨b1, _ | ⟨b2, _ | ⟨b3, rest⟩⟩⟩⟩
  · exact h.elim
  · exact h.elim
  · exact h.elim
  · exact h.elim
  · simp only [List.length_cons]
    omega

/-- A body of less than four bytes is the ClientHello form of nothing, and has no bare entry. -/
theorem not_encodes_of_short {body : Bytes} {entries : List KeyShareEntry} (hshort : body.length < 4)
    (h : parseKeyShareEntries body = some entries) : ¬ Encodes 51 (.keyShare entries) body := by
  obtain ⟨-, hbody⟩ := parseKeyShareEntries_eq_some_iff.mp h
  rw [encodes_keyShare_iff]
  rintro ⟨-, ⟨-, hvec⟩ | ⟨e, rfl, henc⟩⟩
  · have hlen := congrArg List.length hvec
    rw [vec16_length, ← hbody] at hlen
    omega
  · have hlen := congrArg List.length henc
    rw [e.encode_length] at hlen
    omega

/-- An accepted `key_share` body is an encoding iff it is a list or has one entry. -/
theorem encodes_iff_of_decodeKeyShare {body : Bytes} {entries : List KeyShareEntry}
    (h : decodeKeyShare body = some entries) :
    Encodes 51 (.keyShare entries) body ↔ ReadsWhole 51 body := by
  unfold decodeKeyShare at h
  split at h
  · rename_i b0 b1 b2 b3 rest
    rw [encodes_keyShare_iff]
    show _ ↔ rest.length + 2 = (u16FromBe b0 b1).toNat ∨ rest.length = (u16FromBe b2 b3).toNat
    constructor
    · rintro ⟨hfits, ⟨hlen, hbody⟩ | ⟨e, rfl, hbody⟩⟩
      · obtain ⟨hrest, hcount⟩ := (cons_eq_vec16_iff hlen).mp hbody
        rw [← hrest] at hcount
        exact .inl hcount
      · have he : e.Fits := hfits e (List.mem_singleton_self e)
        exact .inr ((KeyShareEntry.cons_eq_encode_iff he).mp hbody).2
    · intro hread
      split_ifs at h with hlist
      · obtain ⟨hfits, hbody⟩ := parseKeyShareEntries_eq_some_iff.mp h
        have hcount : (b2 :: b3 :: rest).length = (u16FromBe b0 b1).toNat := hlist
        have hlt := u16FromBe_lt b0 b1
        rw [← hbody]
        exact ⟨hfits, .inl ⟨by omega, (vec16_of_length hcount).symm⟩⟩
      · obtain hcount := hread.resolve_left hlist
        have hlt := u16FromBe_lt b2 b3
        have he := @KeyShareEntry.fits_ofCode (u16FromBe b0 b1) rest (by omega)
        have hbody := (KeyShareEntry.cons_eq_encode_iff he).mpr ⟨rfl, hcount⟩
        obtain rfl : [KeyShareEntry.ofCode (u16FromBe b0 b1) rest] = entries := by
          rw [parseKeyShareEntries_eq_some_iff.mpr
            ⟨List.forall_mem_singleton.mpr he, hbody.trans (writeAll_singleton _).symm⟩] at h
          exact Option.some.inj h
        exact ⟨List.forall_mem_singleton.mpr he, .inr ⟨_, rfl, hbody⟩⟩
  · rename_i hshort
    have hlen : body.length < 4 := by
      rcases body with _ | ⟨b0, _ | ⟨b1, _ | ⟨b2, _ | ⟨b3, rest⟩⟩⟩⟩
      · simp
      · simp
      · simp
      · simp
      · exact absurd rfl (hshort b0 b1 b2 b3 rest)
    exact iff_of_false (not_encodes_of_short hlen h) fun hread => absurd hread.four_le (by omega)

/-- A body that is not opaque is the wire encoding of what it is decoded to iff the decoder reads all
of it. -/
theorem encodes_iff_readsWhole (extType : UInt16) (body : Bytes)
    (h : (decodeExtension extType body).body ≠ .opaqueBody) :
    Encodes extType (decodeExtension extType body).body body ↔ ReadsWhole extType body := by
  simp only [decodeExtension] at h ⊢
  obtain ⟨value, hvalue⟩ : ∃ value, decodeBody extType body = some value := by
    cases hbody : decodeBody extType body with
    | none => exact absurd (by rw [hbody]; rfl) h
    | some value => exact ⟨value, rfl⟩
  rw [hvalue, Option.getD_some]
  unfold decodeBody at hvalue
  split at hvalue
  · obtain ⟨entries, hdecode, rfl⟩ := Option.map_eq_some_iff.mp hvalue
    exact encodes_iff_of_decodeServerName hdecode
  · obtain ⟨groups, hdecode, rfl⟩ := Option.map_eq_some_iff.mp hvalue
    exact iff_of_true (decodeSupportedGroups_sound hdecode) trivial
  · obtain ⟨schemes, hdecode, rfl⟩ := Option.map_eq_some_iff.mp hvalue
    obtain ⟨hlen, rfl⟩ := decodeSignatureAlgorithms_sound hdecode
    exact iff_of_true (.signatureAlgorithms hlen) trivial
  · obtain ⟨schemes, hdecode, rfl⟩ := Option.map_eq_some_iff.mp hvalue
    obtain ⟨hlen, rfl⟩ := decodeSignatureAlgorithms_sound hdecode
    exact iff_of_true (.signatureAlgorithmsCert hlen) trivial
  · obtain ⟨protocols, hdecode, rfl⟩ := Option.map_eq_some_iff.mp hvalue
    exact iff_of_true (decodeAlpn_sound hdecode) trivial
  · exact encodes_iff_of_decodePreSharedKey hvalue
  · obtain rfl := Option.some.inj hvalue
    constructor
    · intro henc
      cases henc
      rfl
    · rintro rfl
      exact .earlyData
  · obtain ⟨versions, hdecode, rfl⟩ := Option.map_eq_some_iff.mp hvalue
    exact iff_of_true (decodeSupportedVersions_sound hdecode) trivial
  · obtain ⟨cookie, hread, rfl⟩ := Option.map_eq_some_iff.mp hvalue
    obtain ⟨hlen, rfl⟩ := readOpaqueU16_eq_some_iff.mp hread
    exact iff_of_true (.cookie hlen) trivial
  · obtain ⟨modes, hdecode, rfl⟩ := Option.map_eq_some_iff.mp hvalue
    exact iff_of_true (decodePskKeyExchangeModes_sound hdecode) trivial
  · obtain ⟨entries, hdecode, rfl⟩ := Option.map_eq_some_iff.mp hvalue
    exact encodes_iff_of_decodeKeyShare hdecode
  · cases hvalue

/-- A host name and a version list that are read whole. -/
theorem encodes_iff_readsWhole_hostName :
    (Encodes 0 (.serverName [⟨0, [0x61]⟩]) [0, 4, 0, 0, 1, 0x61] ↔
      ReadsWhole 0 [0, 4, 0, 0, 1, 0x61]) ∧
    (Encodes 42 .earlyData [7] ↔ ReadsWhole 42 [7]) :=
  ⟨encodes_iff_readsWhole 0 [0, 4, 0, 0, 1, 0x61] (by decide),
    encodes_iff_readsWhole 42 [7] (by decide)⟩

/-- A byte behind the server names, one behind the last entry, one behind the last identity, one
behind the binders, an `early_data` body and two bare key shares are accepted, each beyond what the
value is written as. -/
theorem encodes_not_of_extra :
    (decodeExtension 0 [0, 4, 0, 0, 1, 0x61, 0xff]).body = .serverName [⟨0, [0x61]⟩] ∧
    ¬ Encodes 0 (.serverName [⟨0, [0x61]⟩]) [0, 4, 0, 0, 1, 0x61, 0xff] ∧
    (decodeExtension 0 [0, 5, 0, 0, 1, 0x61, 0xff]).body = .serverName [⟨0, [0x61]⟩] ∧
    ¬ Encodes 0 (.serverName [⟨0, [0x61]⟩]) [0, 5, 0, 0, 1, 0x61, 0xff] ∧
    (decodeExtension 41 [0, 1, 0xff, 0, 0]).body = .preSharedKey [] 0 ∧
    ¬ Encodes 41 (.preSharedKey [] 0) [0, 1, 0xff, 0, 0] ∧
    (decodeExtension 41 [0, 0, 0, 0, 0xff]).body = .preSharedKey [] 0 ∧
    ¬ Encodes 41 (.preSharedKey [] 0) [0, 0, 0, 0, 0xff] ∧
    (decodeExtension 42 [7]).body = .earlyData ∧ ¬ Encodes 42 .earlyData [7] ∧
    (decodeExtension 51 [0, 1, 0, 0, 0, 1, 0, 0]).body =
      .keyShare [.ofCode 1 [], .ofCode 1 []] ∧
    ¬ Encodes 51 (.keyShare [.ofCode 1 [], .ofCode 1 []]) [0, 1, 0, 0, 0, 1, 0, 0] := by
  refine ⟨rfl, ?_, rfl, ?_, rfl, ?_, rfl, ?_, rfl, nofun, rfl, ?_⟩
  · rw [@encodes_iff_of_decodeServerName _ [⟨0, [0x61]⟩] rfl]
    show ¬ ([0, 0, 1, 0x61, 0xff].length = (u16FromBe 0 4).toNat ∧
      Whole cutServerName [0, 0, 1, 0x61, 0xff])
    decide
  · rw [@encodes_iff_of_decodeServerName _ [⟨0, [0x61]⟩] rfl]
    show ¬ ([0, 0, 1, 0x61, 0xff].length = (u16FromBe 0 5).toNat ∧
      Whole cutServerName [0, 0, 1, 0x61, 0xff])
    decide
  · rw [@encodes_iff_of_decodePreSharedKey _ (.preSharedKey [] 0) rfl]
    show ¬ (Whole cutPskIdentity [0xff] ∧ [].length = (u16FromBe 0 0).toNat)
    decide
  · rw [@encodes_iff_of_decodePreSharedKey _ (.preSharedKey [] 0) rfl]
    show ¬ (Whole cutPskIdentity [] ∧ [0xff].length = (u16FromBe 0 0).toNat)
    decide
  · rw [@encodes_iff_of_decodeKeyShare _ [.ofCode 1 [], .ofCode 1 []] rfl]
    show ¬ ([0, 1, 0, 0].length + 2 = (u16FromBe 0 1).toNat ∨
      [0, 1, 0, 0].length = (u16FromBe 0 0).toNat)
    decide

/-! ## The forms of `key_share` -/

/-- The ClientHello form of a nonempty list. -/
theorem decodeKeyShare_list {entries : List KeyShareEntry} (hfits : ∀ e ∈ entries, e.Fits)
    (hlen : (KeyShareEntry.framing.writeAll entries).length < 65536) (hne : entries ≠ []) :
    decodeKeyShare (vec16 (KeyShareEntry.framing.writeAll entries)) = some entries := by
  obtain ⟨l1, l2, hvec, hcount⟩ := vec16_eq hlen
  have hparse := parseKeyShareEntries_eq_some_iff.mpr ⟨hfits, rfl⟩
  rw [hvec]
  match h : KeyShareEntry.framing.writeAll entries with
  | b2 :: b3 :: rest =>
    rw [h] at hcount hparse
    have hlist : rest.length + 2 = (u16FromBe l1 l2).toNat := hcount.symm
    rw [decodeKeyShare, if_pos hlist, hparse]
  | [] | [_] =>
    cases entries with
    | nil => exact absurd rfl hne
    | cons e entries =>
      have hshort := congrArg List.length h
      rw [Framing.writeAll_cons, List.length_append] at hshort
      change e.encode.length + _ = _ at hshort
      rw [e.encode_length] at hshort
      simp only [List.length_cons, List.length_nil] at hshort
      omega

/-- The four bytes of an entry before its key. -/
theorem KeyShareEntry.encode_ofCode {groupCode : UInt16} {key : Bytes} (hlen : key.length < 65536) :
    ∃ b0 b1 l1 l2, (ofCode groupCode key).encode = b0 :: b1 :: l1 :: l2 :: key ∧
      u16FromBe b0 b1 = groupCode ∧ (u16FromBe l1 l2).toNat = key.length := by
  obtain ⟨l1, l2, hvec, hcount⟩ := vec16_eq hlen
  exact ⟨_, _, l1, l2, congrArg (u16ToBe groupCode ++ ·) hvec, u16FromBe_u16ToBe groupCode, hcount⟩

/-- A bare entry whose group code is not the length of the rest is found. -/
theorem decodeKeyShare_entry {groupCode : UInt16} {key : Bytes} (hlen : key.length < 65536)
    (hcode : groupCode.toNat ≠ key.length + 2) :
    decodeKeyShare (KeyShareEntry.ofCode groupCode key).encode = some [.ofCode groupCode key] := by
  have hparse := parseKeyShareEntries_eq_some_iff.mpr
    ⟨List.forall_mem_singleton.mpr (@KeyShareEntry.fits_ofCode groupCode key hlen),
      (writeAll_singleton _).symm⟩
  obtain ⟨b0, b1, l1, l2, henc, hgroup, -⟩ := @KeyShareEntry.encode_ofCode groupCode key hlen
  rw [henc] at hparse ⊢
  rw [decodeKeyShare, if_neg (by rw [hgroup]; exact hcode.symm), hparse]

/-- A bare entry whose group code is the length of the rest is taken for a list, in which the key
begins with its own length. -/
theorem decodeKeyShare_entry_ne {groupCode : UInt16} {key : Bytes} (hlen : key.length < 65536)
    (hcode : groupCode.toNat = key.length + 2) :
    decodeKeyShare (KeyShareEntry.ofCode groupCode key).encode ≠ some [.ofCode groupCode key] := by
  obtain ⟨b0, b1, l1, l2, henc, hgroup, -⟩ := @KeyShareEntry.encode_ofCode groupCode key hlen
  rw [henc, decodeKeyShare, if_pos (by rw [hgroup]; exact hcode.symm)]
  intro hparse
  obtain ⟨-, hbody⟩ := parseKeyShareEntries_eq_some_iff.mp hparse
  have hlens := congrArg List.length hbody
  rw [writeAll_singleton, henc] at hlens
  simp only [List.length_cons] at hlens
  omega

/-- A list of entries is found on its encoding iff it is not empty. A bare entry is found iff the
code of its group is not the length of what stands behind it, which would make it a list. A bare
group is never found. -/
theorem decodeExtension_keyShare_iff (pairs : List (UInt16 × Bytes)) (groupCode : UInt16)
    (key : Bytes) :
    let entries := pairs.map fun p => KeyShareEntry.ofCode p.1 p.2
    ((∀ p ∈ pairs, p.2.length < 65536) → (KeyShareEntry.framing.writeAll entries).length < 65536 →
      ((decodeExtension 51 (vec16 (KeyShareEntry.framing.writeAll entries))).body =
        .keyShare entries ↔ pairs ≠ [])) ∧
    (key ≠ [] → key.length < 65536 →
      ((decodeExtension 51 (KeyShareEntry.ofCode groupCode key).encode).body =
        .keyShare [.ofCode groupCode key] ↔ groupCode.toNat ≠ key.length + 2)) ∧
    (decodeExtension 51 (u16ToBe groupCode)).body = .opaqueBody := by
  intro entries
  refine ⟨?_, ?_, rfl⟩
  · intro hkeys hlen
    have hfits : ∀ e ∈ entries, e.Fits := by
      intro e he
      obtain ⟨p, hp, rfl⟩ := List.mem_map.mp he
      exact KeyShareEntry.fits_ofCode (hkeys p hp)
    constructor
    · rintro hbody rfl
      exact absurd hbody (by decide)
    · intro hpairs
      have hdecode : decodeKeyShare (vec16 (KeyShareEntry.framing.writeAll entries)) = some entries :=
        decodeKeyShare_list hfits hlen (by simpa [entries] using hpairs)
      show ((decodeKeyShare _).map ExtensionBody.keyShare).getD .opaqueBody = _
      rw [hdecode]
      rfl
  · intro hkey hlen
    show ((decodeKeyShare _).map ExtensionBody.keyShare).getD .opaqueBody = _ ↔ _
    constructor
    · intro hbody hcode
      have hne := decodeKeyShare_entry_ne hlen hcode
      cases hdecode : decodeKeyShare (KeyShareEntry.ofCode groupCode key).encode with
      | none =>
        rw [hdecode] at hbody
        cases hbody
      | some entries =>
        rw [hdecode] at hbody hne
        exact hne (congrArg some (ExtensionBody.keyShare.inj hbody))
    · intro hcode
      rw [decodeKeyShare_entry hlen hcode]
      rfl

/-- The share of `x25519`. -/
theorem decodeExtension_keyShare_iff_x25519 :
    (decodeExtension 51 [0, 6, 0, 0x1d, 0, 2, 7, 8]).body = .keyShare [.ofCode 0x1d [7, 8]] ∧
      (decodeExtension 51 [0, 0x1d, 0, 2, 7, 8]).body = .keyShare [.ofCode 0x1d [7, 8]] :=
  ⟨((decodeExtension_keyShare_iff [(0x1d, [7, 8])] 0x1d [7, 8]).1 (by decide) (by decide)).mpr
      (by decide),
    ((decodeExtension_keyShare_iff [(0x1d, [7, 8])] 0x1d [7, 8]).2.1 (by decide) (by decide)).mpr
      (by decide)⟩

/-- The empty list of a ClientHello, the three bytes of a key of group 5, and the bare group
`x25519` of a HelloRetryRequest. -/
theorem decodeExtension_keyShare_opaque :
    (decodeExtension 51 (vec16 (KeyShareEntry.framing.writeAll []))).body = .opaqueBody ∧
      (decodeExtension 51 (KeyShareEntry.ofCode 5 [7, 8, 9]).encode).body = .opaqueBody ∧
      (decodeExtension 51 (u16ToBe 0x1d)).body = .opaqueBody := by
  decide

end SeeHandshake

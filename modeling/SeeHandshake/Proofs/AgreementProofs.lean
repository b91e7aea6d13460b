import SeeHandshake.Lib.Fuel
import SeeHandshake.Parser.Reference

/-!
# Proofs: the summary and the full decode

Both walkers visit the complete extensions of the block in order. The one that decodes visits them
all; the one that summarizes stops in front of the first malformed one.
-/

namespace SeeHandshake

open Lib

variable {tp : TlsParser}

/-! ## The two walkers -/

/-- The decoding walker cuts off the same extension, decoded. -/
theorem cutExtension_eq (i : Bytes) :
    cutExtension i = match takeExtension i with
      | some (e, rest) => .frame e.decoded (i.length - rest.length)
      | none => .need := by
  rcases i with - | ⟨t1, - | ⟨t2, - | ⟨l1, - | ⟨l2, tail⟩⟩⟩⟩
  · rfl
  · rfl
  · rfl
  · rfl
  · unfold cutExtension takeExtension
    by_cases hlen : tail.length < (u16FromBe l1 l2).toNat
    · simp only [if_pos hlen]
    · simp only [if_neg hlen, WireExtension.decoded, List.length_drop, List.length_cons]
      congr 1
      omega

theorem drop_takeExtension {i rest : Bytes} {e : WireExtension}
    (h : takeExtension i = some (e, rest)) : i.drop (i.length - rest.length) = rest := by
  unfold takeExtension at h
  split at h
  · rename_i t1 t2 l1 l2 tail
    simp only at h
    split_ifs at h
    obtain ⟨-, rfl⟩ := Prod.mk.inj (Option.some.inj h)
    have hn : (t1 :: t2 :: l1 :: l2 :: tail).length -
        (tail.drop (u16FromBe l1 l2).toNat).length = (u16FromBe l1 l2).toNat + 4 := by
      simp only [List.length_drop, List.length_cons]
      omega
    rw [hn]
    rfl
  · cases h

theorem peelLoop_cutExtension (fuel : ℕ) (i : Bytes) (h : i.length < fuel) :
    (peelLoop cutExtension fuel i).frames.map Prod.fst =
      (wireExtensionsLoop fuel i).map WireExtension.decoded := by
  induction fuel generalizing i with
  | zero => rfl
  | succ fuel ih =>
    rw [peelLoop, wireExtensionsLoop, cutExtension_eq]
    cases htake : takeExtension i with
    | none => rfl
    | some found =>
      obtain ⟨e, rest⟩ := found
      have hlen := takeExtension_length htake
      simp only [List.map_cons]
      rw [drop_takeExtension htake, ih rest (by omega)]

theorem fuelLoop_wireExtensions :
    FuelLoop wireExtensionsLoop
      (fun loop i => match takeExtension i with
        | some (e, rest) => e :: loop rest
        | none => [])
      List.length where
  succ := fun _ _ => rfl
  stop := fun n i hi => by
    obtain rfl := List.length_eq_zero_iff.mp hi
    cases n <;> rfl
  smaller := fun f g i hfg => by
    cases htake : takeExtension i with
    | none => rfl
    | some found =>
      obtain ⟨e, rest⟩ := found
      simp only [hfg rest (takeExtension_length htake)]

/-- More turns than the block is long change nothing. -/
theorem wireExtensionsLoop_eq {fuel : ℕ} {i : Bytes} (h : i.length ≤ fuel) :
    wireExtensionsLoop fuel i = wireExtensions i :=
  fuelLoop_wireExtensions.stable h

/-- The full decoder shows every complete extension. -/
theorem walkExtensionBodies_eq (extBytes : Bytes) :
    walkExtensionBodies extBytes = (wireExtensions extBytes).map WireExtension.decoded := by
  unfold walkExtensionBodies
  rw [peelLoop_cutExtension _ _ (by omega), wireExtensionsLoop_eq (by omega)]

/-- One turn of the summarizing walker. -/
def walkExtensionsTurn {ρ : Type} (tp : TlsParser) (visit : ρ → TlsExtension → ρ)
    (loop : Bytes × ρ → ρ) (s : Bytes × ρ) : ρ :=
  if s.1.isEmpty then s.2
  else
    match tp.parseTlsExtension s.1 with
    | .ok (rest, ext) => loop (rest, visit s.2 ext)
    | .error _ => s.2

theorem TlsParser.Consumes.fuelLoop_walkExtensions (h : tp.Consumes) {ρ : Type}
    (visit : ρ → TlsExtension → ρ) :
    FuelLoop (fun fuel s => walkExtensionsLoop tp visit fuel s.1 s.2) (walkExtensionsTurn tp visit)
      fun s => s.1.length where
  succ := fun _ _ => rfl
  stop := fun n s hs => by
    obtain ⟨remaining, info⟩ := s
    obtain rfl := List.length_eq_zero_iff.mp hs
    cases n <;> rfl
  smaller := fun f g s hfg => by
    unfold walkExtensionsTurn
    cases hparse : tp.parseTlsExtension s.1 with
    | error e => rfl
    | ok r =>
      obtain ⟨rest, ext⟩ := r
      simp only [hfg (rest, visit s.2 ext) (h.extension _ _ _ hparse)]

/-- The fuel of `walkExtensions` is never exhausted, either. -/
theorem walkExtensions_iff (h : tp.Consumes) {ρ : Type} (visit : ρ → TlsExtension → ρ)
    (loop : Bytes × ρ → ρ) :
    (∀ s, loop s = walkExtensionsTurn tp visit loop s) ↔
      ∀ s, loop s = walkExtensions tp s.1 visit s.2 :=
  (h.fuelLoop_walkExtensions visit).solution_iff loop

example {ρ : Type} (visit : ρ → TlsExtension → ρ) (s : Bytes × ρ) :
    walkExtensions Reference.parser s.1 visit s.2 = walkExtensionsTurn Reference.parser visit
      (fun s => walkExtensions Reference.parser s.1 visit s.2) s :=
  (walkExtensions_iff Reference.parser_consumes visit _).mpr (fun _ => rfl) s

/-- What the summarizing walker sees at an extension. -/
theorem TlsParser.ReadsExtensions.parse (h : tp.ReadsExtensions) {i rest : Bytes} {e : WireExtension}
    (htake : takeExtension i = some (e, rest)) :
    if e.malformed then ∃ err, tp.parseTlsExtension i = .error err
    else tp.parseTlsExtension i = .ok (rest, e.typed.getD .other) := by
  split_ifs with hm
  · exact h.malformed i e rest htake hm
  · by_cases hs : e.summarized
    · have hsome : e.typed.isSome := by
        rw [WireExtension.isSome_typed hs]
        simpa [WireExtension.malformed, hs, Option.isSome_iff_ne_none] using hm
      obtain ⟨ext, hext⟩ := Option.isSome_iff_exists.mp hsome
      rw [h.typed i e rest ext htake hext, hext]
      rfl
    · rw [h.ignored i e rest htake hs, WireExtension.typed_of_not_summarized hs]
      rfl

/-- The summarizing walker visits the extensions in front of the first malformed one. -/
theorem walkExtensionsLoop_eq (h : tp.ReadsExtensions) {ρ : Type} (visit : ρ → TlsExtension → ρ)
    (fuel : ℕ) (i : Bytes) (info : ρ) :
    walkExtensionsLoop tp visit fuel i info =
      (WireExtension.before (wireExtensionsLoop fuel i)).foldl
        (fun info e => visit info (e.typed.getD .other)) info := by
  induction fuel generalizing i info with
  | zero => rfl
  | succ fuel ih =>
    rw [walkExtensionsLoop, wireExtensionsLoop]
    by_cases hempty : i.isEmpty
    · rw [if_pos hempty, List.isEmpty_iff.mp hempty]
      rfl
    · rw [if_neg hempty]
      cases htake : takeExtension i with
      | none =>
        obtain ⟨err, herr⟩ := h.truncated i htake
        simp only [herr]
        rfl
      | some found =>
        obtain ⟨e, rest⟩ := found
        have hparse := h.parse htake
        unfold WireExtension.before
        by_cases hm : e.malformed
        · rw [if_pos hm] at hparse
          obtain ⟨err, herr⟩ := hparse
          simp [herr, hm]
        · rw [if_neg hm] at hparse
          simp only [hparse, ih]
          rw [List.takeWhile_cons_of_pos (by simpa using hm)]
          rfl

/-! ## What an extension says -/

/-- Key share entries that take the whole input start with the first bytes of the input. -/
theorem parseKeyShareEntries_head {cursor : Bytes} {entries : List KeyShareEntry}
    (h : parseKeyShareEntries cursor = some entries) :
    (cursor = [] ∧ entries = []) ∨ ∃ g1 g2 l1 l2 tail, cursor = g1 :: g2 :: l1 :: l2 :: tail ∧
      entries.head?.map KeyShareEntry.group = some (NamedGroup.fromU16 (u16FromBe g1 g2)) := by
  unfold parseKeyShareEntries at h
  rcases cursor with - | ⟨g1, - | ⟨g2, - | ⟨l1, - | ⟨l2, tail⟩⟩⟩⟩
  · exact Or.inl ⟨rfl, (Option.some.inj h).symm⟩
  · cases h
  · cases h
  · cases h
  · refine Or.inr ⟨g1, g2, l1, l2, tail, rfl, ?_⟩
    rw [peelLoop] at h
    cases hcut : cutKeyShare (g1 :: g2 :: l1 :: l2 :: tail) with
    | need =>
      simp only [hcut] at h
      cases h
    | bad e =>
      simp only [hcut] at h
      cases h
    | frame entry n =>
      have hgroup : entry.group = NamedGroup.fromU16 (u16FromBe g1 g2) := by
        unfold cutKeyShare at hcut
        simp only at hcut
        split_ifs at hcut
        rw [← (Cut.frame.inj hcut).1]
      simp only [hcut] at h
      split at h
      · cases h
      · split_ifs at h
        rw [← Option.some.inj h, ← hgroup]
        rfl

/-- The group read off the bytes is the group of the first decoded entry. -/
theorem firstKeyShareGroup_eq {body : Bytes} {entries : List KeyShareEntry}
    (h : decodeKeyShare body = some entries) :
    firstKeyShareGroup body = entries.head?.map KeyShareEntry.group := by
  unfold decodeKeyShare at h
  split at h
  · rename_i b0 b1 b2 b3 rest
    unfold firstKeyShareGroup
    by_cases hlist : rest.length + 2 = (u16FromBe b0 b1).toNat
    · rw [if_pos hlist] at h
      simp only
      rw [if_pos (by omega)]
      obtain ⟨hnil, -⟩ | ⟨g1, g2, l1, l2, tail, heq, hhead⟩ := parseKeyShareEntries_head h
      · cases hnil
      · simp only [List.cons.injEq] at heq
        rw [hhead, heq.1, heq.2.1]
    · rw [if_neg hlist] at h
      simp only
      rw [if_neg (by omega)]
      obtain ⟨hnil, -⟩ | ⟨g1, g2, l1, l2, tail, heq, hhead⟩ := parseKeyShareEntries_head h
      · cases hnil
      · simp only [List.cons.injEq] at heq
        rw [hhead, heq.1, heq.2.1]
  · rename_i hshort
    obtain ⟨rfl, rfl⟩ | ⟨g1, g2, l1, l2, tail, rfl, -⟩ := parseKeyShareEntries_head h
    · rfl
    · exact absurd rfl (hshort g1 g2 l1 l2 tail)

/-- The summary and the detail view name the same group: where the body has entries, the group that is
read off its bytes is that of the first one. -/
theorem keyShare_groups_agree {body : Bytes} {entry : KeyShareEntry} {entries : List KeyShareEntry}
    (h : decodeKeyShare body = some (entry :: entries)) :
    firstKeyShareGroup body = some entry.group := by
  rw [firstKeyShareGroup_eq h]
  rfl

/-- A bare entry whose group code is that of a list length which is one byte too short. -/
theorem keyShare_groups_agree_bare : firstKeyShareGroup [0, 4, 0, 1, 7] = some (.other 4) :=
  @keyShare_groups_agree [0, 4, 0, 1, 7] ⟨.other 4, 4, [7]⟩ [] (by decide)

theorem supportedGroups_eq {body : Bytes} {groups : List NamedGroup}
    (h : decodeSupportedGroups body = some groups) :
    (u16Chunks (body.drop 2)).map NamedGroup.fromU16 = groups := by
  unfold decodeSupportedGroups readOpaqueU16 at h
  split at h
  · rename_i b0 b1 rest
    split_ifs at h with h1
    · simp at h
    · simp only [Option.bind_eq_bind, Option.bind_some] at h
      split_ifs at h
      exact Option.some.inj h
  · simp at h

/-- One extension writes to the summary what it says, and a `server_name` only a name. -/
theorem applyClientExtension_eq (info : ClientHelloInfo) (e : WireExtension) :
    applyClientExtension info (e.typed.getD .other) =
      { info with
        sni := e.namesServer.getD info.sni
        alpnOffered := (e.value 16 ExtensionBody.alpnNames).getD info.alpnOffered
        groupsOffered := (e.value 10 ExtensionBody.groups).getD info.groupsOffered
        keyShareGroup := (e.value 51 ExtensionBody.firstGroup).getD info.keyShareGroup
        maxVersion := (e.value 43 ExtensionBody.highestVersion).getD info.maxVersion } := by
  obtain ⟨ty, body⟩ := e
  unfold WireExtension.namesServer WireExtension.value DecodedExtension.value WireExtension.decoded
    decodeExtension WireExtension.typed
  simp only
  split
  · cases hd : decodeServerName body with
    | none => simp [decodeBody, hd, applyClientExtension, ExtensionBody.firstServerName]
    | some entries =>
      cases entries <;>
        simp [decodeBody, hd, applyClientExtension, ExtensionBody.firstServerName, Option.filter]
  · cases hd : decodeSupportedGroups body with
    | none => simp [decodeBody, hd, applyClientExtension, ExtensionBody.groups]
    | some groups =>
      simp [decodeBody, hd, applyClientExtension, ExtensionBody.groups, supportedGroups_eq hd]
  · cases hd : decodeAlpn body with
    | none => simp [decodeBody, hd, applyClientExtension, ExtensionBody.alpnNames]
    | some protocols => simp [decodeBody, hd, applyClientExtension, ExtensionBody.alpnNames]
  · cases hd : decodeSupportedVersions body with
    | none => simp [decodeBody, hd, applyClientExtension, ExtensionBody.highestVersion]
    | some versions => simp [decodeBody, hd, applyClientExtension, ExtensionBody.highestVersion]
  · cases hd : decodeKeyShare body with
    | none => simp [decodeBody, hd, applyClientExtension, ExtensionBody.firstGroup]
    | some entries =>
      simp [decodeBody, hd, applyClientExtension, ExtensionBody.firstGroup, firstKeyShareGroup_eq hd]
  · rename_i h0 h10 h16 h43 h51
    rw [if_neg h0, if_neg h10, if_neg h16, if_neg h43, if_neg h51]
    rfl

/-! ## The two summaries -/

section Summaries

open WireExtension

/-- What the summary holds after the extensions in front of the first malformed one. -/
theorem walkExtensions_fields (h : tp.ReadsExtensions) (extBytes : Bytes) (info : ClientHelloInfo) :
    let exts := before (wireExtensions extBytes)
    let summary := walkExtensions tp extBytes applyClientExtension info
    summary.sni = (lastValue namesServer exts).getD info.sni ∧
    summary.alpnOffered = (lastValue (value 16 ExtensionBody.alpnNames) exts).getD info.alpnOffered ∧
    summary.cipherSuites = info.cipherSuites ∧
    summary.groupsOffered = (lastValue (value 10 ExtensionBody.groups) exts).getD info.groupsOffered ∧
    summary.keyShareGroup =
      (lastValue (value 51 ExtensionBody.firstGroup) exts).getD info.keyShareGroup ∧
    summary.maxVersion =
      (lastValue (value 43 ExtensionBody.highestVersion) exts).getD info.maxVersion := by
  intro exts summary
  have hsummary : summary =
      exts.foldl (fun info e => applyClientExtension info (e.typed.getD .other)) info := by
    show walkExtensionsLoop tp applyClientExtension extBytes.length extBytes info = _
    rw [walkExtensionsLoop_eq h, wireExtensionsLoop_eq (Nat.le_refl _)]
  rw [hsummary]
  refine ⟨?_, ?_, ?_, ?_, ?_, ?_⟩
  · exact foldl_register (fun s e => by rw [applyClientExtension_eq]) exts info
  · exact foldl_register (fun s e => by rw [applyClientExtension_eq]) exts info
  · -- A register that no extension writes.
    have hnone := @foldl_register ClientHelloInfo WireExtension (List CipherSuite) (fun _ => none)
      (fun info e => applyClientExtension info (e.typed.getD .other)) ClientHelloInfo.cipherSuites
      (fun s e => by rw [applyClientExtension_eq]; rfl) exts info
    simpa [lastValue] using hnone
  · exact foldl_register (fun s e => by rw [applyClientExtension_eq]) exts info
  · exact foldl_register (fun s e => by rw [applyClientExtension_eq]) exts info
  · exact foldl_register (fun s e => by rw [applyClientExtension_eq]) exts info

end Summaries

/-- A computation that succeeds succeeds at its first step. -/
theorem exists_of_bind_ok {α β : Type} {x : Except Error α} {f : α → Except Error β} {b : β}
    (h : x >>= f = .ok b) : ∃ a, x = .ok a ∧ f a = .ok b := by
  cases x with
  | error e => cases h
  | ok a => exact ⟨a, rfl, h⟩

theorem readExtensions_block {cursor : Bytes} {exts : List DecodedExtension}
    (h : readExtensions cursor = .ok exts) :
    ∃ ext, extensionBlock cursor = .ok ext ∧ exts = walkExtensionBodies (ext.getD []) := by
  unfold readExtensions at h
  unfold extensionBlock
  by_cases hempty : cursor.isEmpty
  · rw [if_pos hempty] at h ⊢
    exact ⟨none, rfl, (Except.ok.inj h).symm⟩
  · rw [if_neg hempty] at h ⊢
    obtain ⟨⟨extLen, cursor⟩, h1, h⟩ := exists_of_bind_ok h
    obtain ⟨⟨extBytes, rest⟩, h2, h⟩ := exists_of_bind_ok h
    refine ⟨some extBytes, ?_, (Except.ok.inj h).symm⟩
    rw [h1]
    show readBytes cursor extLen.toNat >>= _ = _
    rw [h2]
    rfl

/-- What the readers of a successful decode return, one after the other. -/
theorem readers_of_decodeClientHello {bytes : Bytes} {hello : DecodedClientHello}
    (h : decodeClientHello bytes = .ok hello) :
    ∃ body cursor1 cursor2 sessionIdLen cursor3 cursor4 suitesLen cursor5 suites cursor6
      compressionLen cursor7 cursor8,
      stripHandshakeHeader bytes 1 = .ok body ∧
      readU16 body = .ok (hello.legacyVersion, cursor1) ∧
      readArray32 cursor1 = .ok (hello.random, cursor2) ∧
      readU8 cursor2 = .ok (sessionIdLen, cursor3) ∧
      readBytes cursor3 sessionIdLen.toNat = .ok (hello.sessionId, cursor4) ∧
      readU16 cursor4 = .ok (suitesLen, cursor5) ∧
      suitesLen.toNat % 2 = 0 ∧
      readBytes cursor5 suitesLen.toNat = .ok (suites, cursor6) ∧
      readU8 cursor6 = .ok (compressionLen, cursor7) ∧
      readBytes cursor7 compressionLen.toNat = .ok (hello.compressionMethods, cursor8) ∧
      readExtensions cursor8 = .ok hello.extensions ∧
      hello.cipherSuites = (u16Chunks suites).map knownCipherSuite := by
  unfold decodeClientHello at h
  obtain ⟨body, hbody, h⟩ := exists_of_bind_ok h
  obtain ⟨⟨version, cursor1⟩, h1, h⟩ := exists_of_bind_ok h
  obtain ⟨⟨random, cursor2⟩, h2, h⟩ := exists_of_bind_ok h
  obtain ⟨⟨sessionIdLen, cursor3⟩, h3, h⟩ := exists_of_bind_ok h
  obtain ⟨⟨sessionId, cursor4⟩, h4, h⟩ := exists_of_bind_ok h
  obtain ⟨⟨suitesLen, cursor5⟩, h5, h⟩ := exists_of_bind_ok h
  simp only at h
  by_cases hodd : suitesLen.toNat % 2 ≠ 0
  · rw [if_pos hodd] at h
    cases h
  · rw [if_neg hodd] at h
    obtain ⟨⟨suites, cursor6⟩, h6, h⟩ := exists_of_bind_ok h
    obtain ⟨⟨compressionLen, cursor7⟩, h7, h⟩ := exists_of_bind_ok h
    obtain ⟨⟨compression, cursor8⟩, h8, h⟩ := exists_of_bind_ok h
    obtain ⟨extensions, h9, h⟩ := exists_of_bind_ok h
    obtain rfl := Except.ok.inj h
    exact ⟨body, cursor1, cursor2, sessionIdLen, cursor3, cursor4, suitesLen, cursor5, suites, cursor6,
      compressionLen, cursor7, cursor8, hbody, h1, h2, h3, h4, h5, not_not.mp hodd, h6, h7, h8, h9, rfl⟩

/-- A successful decode reads the suites and the extension block that are on the wire. -/
theorem decodeClientHello_contents {bytes : Bytes} {hello : DecodedClientHello}
    (h : decodeClientHello bytes = .ok hello) :
    ∃ contents, stripHandshakeHeader bytes 1 >>= clientHelloContents = .ok contents ∧
      hello.cipherSuites = contents.ciphers.map knownCipherSuite ∧
      hello.extensions = walkExtensionBodies (contents.ext.getD []) := by
  obtain ⟨body, cursor1, cursor2, sessionIdLen, cursor3, cursor4, suitesLen, cursor5, suites, cursor6,
    compressionLen, cursor7, cursor8, hbody, h1, h2, h3, h4, h5, -, h6, h7, h8, h9, hsuites⟩ :=
    readers_of_decodeClientHello h
  obtain ⟨ext, hext, hexts⟩ := readExtensions_block h9
  refine ⟨{ ciphers := u16Chunks suites, ext }, ?_, hsuites, hexts⟩
  rw [hbody]
  simp only [clientHelloContents, h1, h2, h3, h4, h5, h6, h7, h8, hext, bind, Except.bind, pure,
    Except.pure]

/-- A successful parse summarizes what the parser returns. -/
theorem parseClientHello_contents {bytes : Bytes} {info : ClientHelloInfo}
    (h : parseClientHello tp bytes = .ok info) :
    ∃ rest ch, tp.parseTlsMessageHandshake bytes = .ok (rest, .handshake (.clientHello ch)) ∧
      info = extractClientHello tp ch := by
  unfold parseClientHello at h
  split at h
  · cases h
  · rename_i rest ch hparse
    exact ⟨rest, ch, hparse, (Except.ok.inj h).symm⟩
  · cases h

theorem helloExtensions_eq {bytes : Bytes} {contents : TlsClientHelloContents}
    (h : stripHandshakeHeader bytes 1 >>= clientHelloContents = .ok contents) :
    helloExtensions bytes = wireExtensions (contents.ext.getD []) := by
  unfold helloExtensions
  rw [h]

theorem fromU16_knownCipherSuite (codes : List UInt16) :
    (codes.map knownCipherSuite).map (fun suite => CipherSuite.fromU16 suite.1) =
      codes.map CipherSuite.fromU16 := by
  rw [List.map_map]
  refine List.map_congr_left fun code _ => ?_
  show CipherSuite.fromU16 (knownCipherSuite code).1 = CipherSuite.fromU16 code
  unfold knownCipherSuite
  split <;> rfl

namespace WireExtension

theorem before_append_behind (exts : List WireExtension) : before exts ++ behind exts = exts :=
  List.takeWhile_append_dropWhile

/-- The register of a type is right iff the extensions behind repeat it. -/
theorem repeats_iff {α : Type} (extType : UInt16) (pick : ExtensionBody → Option α) (absent : α)
    (exts : List WireExtension) :
    (lastValue (value extType pick) (before exts)).getD absent =
        (lastValue (value extType pick) exts).getD absent ↔
      Repeats extType pick absent exts := by
  have h := getD_lastValue_append_iff (value extType pick) (before exts) (behind exts) absent
  rwa [before_append_behind] at h

/-- The register of the server name, which ignores empty lists. -/
theorem serverName_iff (exts : List WireExtension) :
    (lastValue namesServer (before exts)).getD none =
        (lastValue (value 0 ExtensionBody.firstServerName) exts).getD none ↔
      (∀ v, lastValue (value 0 ExtensionBody.firstServerName) (behind exts) = some v →
        v = (lastValue namesServer (before exts)).getD none) ∧
      (lastValue (value 0 ExtensionBody.firstServerName) (behind exts) = none →
        lastValue (value 0 ExtensionBody.firstServerName) (before exts) = some none →
        lastValue namesServer (before exts) = none) := by
  have happend := lastValue_append (value 0 ExtensionBody.firstServerName) (before exts)
    (behind exts)
  rw [before_append_behind] at happend
  rw [happend]
  cases hbehind : lastValue (value 0 ExtensionBody.firstServerName) (behind exts) with
  | some v =>
    simp only [Option.some_or, Option.getD_some, Option.some.injEq, forall_eq', reduceCtorEq,
      false_implies, and_true]
    exact eq_comm
  | none =>
    simp only [Option.none_or, reduceCtorEq, false_implies, implies_true, true_and, forall_const]
    cases hbefore : lastValue (value 0 ExtensionBody.firstServerName) (before exts) with
    | none =>
      have hnone : lastValue namesServer (before exts) = none := lastValue_filter_of_none hbefore
      simp [hnone]
    | some v =>
      cases v with
      | some name =>
        have hsome : lastValue namesServer (before exts) = some (some name) :=
          lastValue_filter_of_some hbefore rfl
        simp [hsome]
      | none =>
        -- An empty list does not clear the name, so there must be none to clear.
        cases hnames : lastValue namesServer (before exts) with
        | none => simp
        | some w =>
          have hw : w.isSome := of_lastValue_filter hnames
          obtain ⟨name, rfl⟩ := Option.isSome_iff_exists.mp hw
          simp

end WireExtension

/-- The summary of a ClientHello is the summary of its full decode iff the extensions behind the first
malformed one repeat what those before it say, and no empty `server_name` list is the last one after a
nonempty one. -/
theorem summary_eq_iff (tp : TlsParser) (hexts : tp.ReadsExtensions) (hhello : tp.ReadsClientHello)
    {bytes : Bytes} {info : ClientHelloInfo} {hello : DecodedClientHello}
    (hparse : parseClientHello tp bytes = .ok info) (hdecode : decodeClientHello bytes = .ok hello) :
    info = hello.summary ↔ WireExtension.Repeated (helloExtensions bytes) := by
  obtain ⟨contents, hwire, hsuites, hextensions⟩ := decodeClientHello_contents hdecode
  obtain ⟨rest, ch, hmsg, rfl⟩ := parseClientHello_contents hparse
  obtain rfl := hhello bytes rest ch contents hmsg hwire
  have hinfo : extractClientHello tp ch = walkExtensions tp (ch.ext.getD []) applyClientExtension
      { cipherSuites := ch.ciphers.map CipherSuite.fromU16 } := by
    unfold extractClientHello
    cases ch.ext <;> rfl
  rw [helloExtensions_eq hwire]
  rw [walkExtensionBodies_eq] at hextensions
  set exts := wireExtensions (ch.ext.getD [])
  have hlast : ∀ {α : Type} (ty : UInt16) (pick : ExtensionBody → Option α) (absent : α),
      hello.last ty pick absent = (lastValue (WireExtension.value ty pick) exts).getD absent := by
    intro α ty pick absent
    unfold DecodedClientHello.last
    rw [hextensions, lastValue_map]
    rfl
  obtain ⟨hsni, halpn, hciphers, hgroups, hshare, hversion⟩ := walkExtensions_fields hexts
    (ch.ext.getD []) { cipherSuites := ch.ciphers.map CipherSuite.fromU16 }
  have hsuites' : ch.ciphers.map CipherSuite.fromU16 = hello.summary.cipherSuites := by
    show _ = hello.cipherSuites.map _
    rw [hsuites, fromU16_knownCipherSuite]
  rw [ClientHelloInfo.ext_iff, hinfo, hsni, halpn, hciphers, hgroups, hshare, hversion]
  show _ = hello.last 0 _ _ ∧ _ = hello.last 16 _ _ ∧ _ ∧ _ = hello.last 10 _ _ ∧
    _ = hello.last 51 _ _ ∧ _ = hello.last 43 _ _ ↔ _
  rw [hlast, hlast, hlast, hlast, hlast, WireExtension.serverName_iff, WireExtension.repeats_iff,
    WireExtension.repeats_iff, WireExtension.repeats_iff, WireExtension.repeats_iff]
  constructor
  · rintro ⟨⟨hname, hempty⟩, halpn, -, hgroups, hshare, hversion⟩
    exact ⟨halpn, hgroups, hshare, hversion, hname, hempty⟩
  · intro h
    exact ⟨⟨h.serverName, h.serverNameEmpty⟩, h.alpn, hsuites', h.groups, h.keyShare, h.versions⟩

/-- A `server_name` body of one byte hides the ALPN names behind it from the summary, but not from the
full decode. -/
theorem alpn_lost_behind_malformed :
    let bytes := Reference.clientHelloWith (Reference.malformedServerName ++ Reference.alpnH2)
    Reference.parser.ReadsExtensions ∧ Reference.parser.ReadsClientHello ∧
      ∃ info hello, parseClientHello Reference.parser bytes = .ok info ∧
        decodeClientHello bytes = .ok hello ∧ info.alpnOffered = [] ∧
        hello.summary.alpnOffered = [AlpnProtocol.fromBytes [0x68, 0x32]] := by
  intro bytes
  exact ⟨Reference.parser_readsExtensions, Reference.parser_readsClientHello, _, _, rfl, rfl, rfl, rfl⟩

/-- The same two extensions in the other order. -/
theorem summary_eq_iff_malformed_last :
    let bytes := Reference.clientHelloWith (Reference.alpnH2 ++ Reference.malformedServerName)
    ∃ info hello, parseClientHello Reference.parser bytes = .ok info ∧
      decodeClientHello bytes = .ok hello ∧ info = hello.summary := by
  intro bytes
  refine ⟨_, _, rfl, rfl, (@summary_eq_iff Reference.parser Reference.parser_readsExtensions
    Reference.parser_readsClientHello bytes _ _ rfl rfl).mpr ?_⟩
  have hexts : helloExtensions bytes = [⟨16, [0, 3, 2, 0x68, 0x32]⟩, ⟨0, [0]⟩] := by decide
  have hbehind : WireExtension.behind (helloExtensions bytes) = [⟨0, [0]⟩] := by
    rw [hexts]
    decide
  constructor
  case serverNameEmpty =>
    intro _ hempty
    rw [hexts] at hempty
    cases hempty
  all_goals
    intro v hv
    rw [hbehind] at hv
    cases hv

end SeeHandshake

import SeeHandshake.Parser.HelloForms
import SeeHandshake.Proofs.AgreementProofs

/-!
# Proofs: the full hello decoders

Each reader of a cursor returns a value exactly when the cursor starts with what the value is written
as. Chained, they say what a decoded hello was decoded from.
-/

namespace SeeHandshake

open Lib

/-! ## Readers -/

theorem readU8_eq_ok_iff {cursor rest : Bytes} {v : UInt8} :
    readU8 cursor = .ok (v, rest) ↔ cursor = v :: rest := by
  constructor
  · intro h
    unfold readU8 at h
    split at h
    · obtain ⟨rfl, rfl⟩ := Prod.mk.inj (Except.ok.inj h)
      rfl
    · cases h
  · rintro rfl
    rfl

theorem readU16_eq_ok_iff {cursor rest : Bytes} {v : UInt16} :
    readU16 cursor = .ok (v, rest) ↔ cursor = u16ToBe v ++ rest := by
  constructor
  · intro h
    unfold readU16 at h
    split at h
    · obtain ⟨rfl, rfl⟩ := Prod.mk.inj (Except.ok.inj h)
      rw [u16ToBe_u16FromBe]
      rfl
    · cases h
  · rintro rfl
    show Except.ok (u16FromBe _ _, rest) = _
    rw [u16FromBe_u16ToBe]

theorem readBytes_eq_ok_iff {cursor bytes rest : Bytes} {n : ℕ} :
    readBytes cursor n = .ok (bytes, rest) ↔ bytes.length = n ∧ cursor = bytes ++ rest := by
  constructor
  · intro h
    unfold readBytes at h
    split_ifs at h with hlen
    obtain ⟨rfl, rfl⟩ := Prod.mk.inj (Except.ok.inj h)
    refine ⟨?_, (List.take_append_drop n cursor).symm⟩
    rw [List.length_take]
    omega
  · rintro ⟨rfl, rfl⟩
    unfold readBytes
    rw [if_neg (by rw [List.length_append]; omega), List.take_left, List.drop_left]

theorem readArray32_eq_ok_iff {cursor rest : Bytes} {random : Random} :
    readArray32 cursor = .ok (random, rest) ↔ cursor = random.1 ++ rest := by
  constructor
  · intro h
    unfold readArray32 at h
    split_ifs at h with hlen
    obtain ⟨rfl, rfl⟩ := Prod.mk.inj (Except.ok.inj h)
    exact (List.take_append_drop 32 cursor).symm
  · rintro rfl
    obtain ⟨bytes, hbytes⟩ := random
    have hlen : ¬ (bytes ++ rest).length < 32 := by
      rw [List.length_append]
      omega
    unfold readArray32
    rw [dif_neg hlen]
    simp only [← hbytes, List.take_left, List.drop_left]

theorem bind_eq_ok_iff {α β : Type} {x : Except Error α} {f : α → Except Error β} {b : β} :
    x >>= f = .ok b ↔ ∃ a, x = .ok a ∧ f a = .ok b := by
  constructor
  · exact exists_of_bind_ok
  · rintro ⟨a, rfl, h⟩
    exact h

/-- A vector behind a one-byte length. -/
theorem readVec8_iff {cursor bytes rest : Bytes} :
    (∃ len cursor', readU8 cursor = .ok (len, cursor') ∧
      readBytes cursor' len.toNat = .ok (bytes, rest)) ↔
      bytes.length < 256 ∧ cursor = vec8 bytes ++ rest := by
  constructor
  · rintro ⟨len, cursor', hlen, hbytes⟩
    obtain rfl := readU8_eq_ok_iff.mp hlen
    obtain ⟨hcount, rfl⟩ := readBytes_eq_ok_iff.mp hbytes
    have hlt := len.toNat_lt
    rw [vec8_of_length hcount]
    exact ⟨by omega, rfl⟩
  · rintro ⟨hlt, rfl⟩
    obtain ⟨l, hvec, hl⟩ := vec8_eq hlt
    rw [hvec]
    exact ⟨l, _, rfl, readBytes_eq_ok_iff.mpr ⟨hl.symm, rfl⟩⟩

/-- A vector behind a two-byte length. -/
theorem readVec16_iff {cursor bytes rest : Bytes} :
    (∃ len cursor', readU16 cursor = .ok (len, cursor') ∧
      readBytes cursor' len.toNat = .ok (bytes, rest)) ↔
      bytes.length < 65536 ∧ cursor = vec16 bytes ++ rest := by
  constructor
  · rintro ⟨len, cursor', hlen, hbytes⟩
    obtain rfl := readU16_eq_ok_iff.mp hlen
    obtain ⟨hcount, rfl⟩ := readBytes_eq_ok_iff.mp hbytes
    have hlt := len.toNat_lt
    have hlen : UInt16.ofNat bytes.length = len := by rw [hcount, UInt16.ofNat_toNat]
    refine ⟨by omega, ?_⟩
    rw [vec16, hlen, List.append_assoc]
  · rintro ⟨hlt, rfl⟩
    refine ⟨UInt16.ofNat bytes.length, bytes ++ rest, readU16_eq_ok_iff.mpr ?_,
      readBytes_eq_ok_iff.mpr ⟨?_, rfl⟩⟩
    · rw [vec16, List.append_assoc]
    · rw [UInt16.toNat_ofNat']
      omega

theorem u32FromBe_u24 {n : ℕ} (h : n < 16777216) :
    ∃ l1 l2 l3, u24ToBe n = [l1, l2, l3] ∧ (u32FromBe 0 l1 l2 l3).toNat = n := by
  refine ⟨_, _, _, rfl, ?_⟩
  simp only [u32FromBe_toNat, UInt8.toNat_ofNat', UInt8.toNat_zero]
  omega

theorem u24ToBe_u32FromBe (l1 l2 l3 : UInt8) :
    u24ToBe (u32FromBe 0 l1 l2 l3).toNat = [l1, l2, l3] := by
  have h1 := l1.toNat_lt
  have h2 := l2.toNat_lt
  have h3 := l3.toNat_lt
  unfold u24ToBe
  rw [u32FromBe_toNat, UInt8.toNat_zero, @ofNat_eq_of_mod _ l1 (by omega),
    @ofNat_eq_of_mod _ l2 (by omega), @ofNat_eq_of_mod _ l3 (by omega)]

/-- The header is stripped off a message and what follows it. -/
theorem stripHandshakeHeader_eq_ok_iff {bytes body : Bytes} {ty : UInt8} :
    stripHandshakeHeader bytes ty = .ok body ↔
      body.length < 16777216 ∧ ∃ trailing, bytes = handshakeMessage ty body ++ trailing := by
  constructor
  · intro h
    unfold stripHandshakeHeader at h
    split at h
    · rename_i ty' l1 l2 l3 rest
      simp only at h
      split_ifs at h with hty hlen
      obtain rfl := Except.ok.inj h
      obtain rfl := not_not.mp hty
      have htake : (rest.take (u32FromBe 0 l1 l2 l3).toNat).length = (u32FromBe 0 l1 l2 l3).toNat := by
        rw [List.length_take]
        omega
      refine ⟨?_, rest.drop (u32FromBe 0 l1 l2 l3).toNat, ?_⟩
      · have h1 := l1.toNat_lt
        have h2 := l2.toNat_lt
        have h3 := l3.toNat_lt
        rw [htake, u32FromBe_toNat, UInt8.toNat_zero]
        omega
      · rw [handshakeMessage, htake, u24ToBe_u32FromBe]
        simp only [List.cons_append, List.nil_append, List.take_append_drop]
    · cases h
  · rintro ⟨hlt, trailing, rfl⟩
    obtain ⟨l1, l2, l3, hlen, hcount⟩ := u32FromBe_u24 hlt
    simp only [handshakeMessage, hlen, List.cons_append, List.nil_append, stripHandshakeHeader, hcount,
      List.take_left]
    rw [if_neg (not_not.mpr rfl), if_neg (by rw [List.length_append]; omega)]

/-- A message is the declared one, whatever follows it. -/
theorem declaredMessage_append {ty : UInt8} {body : Bytes} (h : body.length < 16777216)
    (trailing : Bytes) :
    declaredMessage (handshakeMessage ty body ++ trailing) = handshakeMessage ty body := by
  obtain ⟨l1, l2, l3, hlen, hcount⟩ := u32FromBe_u24 h
  simp only [handshakeMessage, hlen, List.cons_append, List.nil_append, declaredMessage, hcount,
    List.take_left]

theorem readExtensions_eq_ok_iff {tail : Bytes} {exts : List DecodedExtension} :
    readExtensions tail = .ok exts ↔
      tail = [] ∧ exts = [] ∨
        ∃ block rest, block.length < 65536 ∧ tail = vec16 block ++ rest ∧
          exts = walkExtensionBodies block := by
  unfold readExtensions
  split_ifs with hempty
  · obtain rfl := List.isEmpty_iff.mp hempty
    constructor
    · intro h
      exact .inl ⟨rfl, (Except.ok.inj h).symm⟩
    · rintro (⟨-, rfl⟩ | ⟨block, rest, -, hvec, -⟩)
      · rfl
      · have hlen := congrArg List.length hvec
        rw [List.length_append, vec16_length, List.length_nil] at hlen
        omega
  · have hne : tail ≠ [] := fun h => hempty (List.isEmpty_iff.mpr h)
    constructor
    · intro h
      obtain ⟨⟨len, cursor⟩, hlen, h⟩ := exists_of_bind_ok h
      obtain ⟨⟨block, rest⟩, hblock, h⟩ := exists_of_bind_ok h
      obtain ⟨hlt, hvec⟩ := readVec16_iff.mp ⟨len, cursor, hlen, hblock⟩
      exact .inr ⟨block, rest, hlt, hvec, (Except.ok.inj h).symm⟩
    · rintro (⟨rfl, -⟩ | ⟨block, rest, hlt, hvec, rfl⟩)
      · exact absurd rfl hne
      · obtain ⟨len, cursor, hlen, hblock⟩ := readVec16_iff.mpr ⟨hlt, hvec⟩
        exact bind_eq_ok_iff.mpr ⟨_, hlen, bind_eq_ok_iff.mpr ⟨_, hblock, rfl⟩⟩

/-! ## Decoders -/

/-- What a ClientHello was decoded from. -/
theorem exists_of_decodeClientHello {bytes : Bytes} {hello : DecodedClientHello}
    (h : decodeClientHello bytes = .ok hello) :
    ∃ suites tail, hello.sessionId.length < 256 ∧ (u16List suites).length < 65536 ∧
      hello.compressionMethods.length < 256 ∧ hello.cipherSuites = suites.map knownCipherSuite ∧
      readExtensions tail = .ok hello.extensions ∧
      stripHandshakeHeader bytes 1 = .ok (clientHelloBody hello.legacyVersion hello.random
        hello.sessionId suites hello.compressionMethods tail) := by
  obtain ⟨body, cursor1, cursor2, sessionIdLen, cursor3, cursor4, suitesLen, cursor5, suites, cursor6,
    compressionLen, cursor7, cursor8, hbody, h1, h2, h3, h4, h5, heven, h6, h7, h8, h9, hknown⟩ :=
    readers_of_decodeClientHello h
  obtain rfl := readU16_eq_ok_iff.mp h1
  obtain rfl := readArray32_eq_ok_iff.mp h2
  obtain ⟨hsession, rfl⟩ := readVec8_iff.mp ⟨_, _, h3, h4⟩
  have hcount := (readBytes_eq_ok_iff.mp h6).1
  obtain ⟨hsuites, rfl⟩ := readVec16_iff.mp ⟨_, _, h5, h6⟩
  obtain ⟨hcompression, rfl⟩ := readVec8_iff.mp ⟨_, _, h7, h8⟩
  have hlist := u16List_u16Chunks (show suites.length % 2 = 0 by omega)
  refine ⟨u16Chunks suites, cursor8, hsession, ?_, hcompression, hknown, h9, ?_⟩
  · rwa [hlist]
  · rw [clientHelloBody, hlist]
    exact hbody

/-- Decoding a ClientHello from its body. -/
theorem decodeClientHello_of_body {bytes : Bytes} {hello : DecodedClientHello} {suites : List UInt16}
    {tail : Bytes} (hsession : hello.sessionId.length < 256)
    (hsuites : (u16List suites).length < 65536)
    (hcompression : hello.compressionMethods.length < 256)
    (hcodes : hello.cipherSuites = suites.map knownCipherSuite)
    (hexts : readExtensions tail = .ok hello.extensions)
    (hbody : stripHandshakeHeader bytes 1 = .ok (clientHelloBody hello.legacyVersion hello.random
      hello.sessionId suites hello.compressionMethods tail)) :
    decodeClientHello bytes = .ok hello := by
  obtain ⟨len3, cursor3, h3, h4⟩ := readVec8_iff.mpr ⟨hsession, rfl⟩
  obtain ⟨len5, cursor5, h5, h6⟩ := readVec16_iff.mpr ⟨hsuites, rfl⟩
  obtain ⟨len7, cursor7, h7, h8⟩ := readVec8_iff.mpr ⟨hcompression, rfl⟩
  have heven : ¬ len5.toNat % 2 ≠ 0 := by
    have hcount := (readBytes_eq_ok_iff.mp h6).1
    rw [u16List_length] at hcount
    omega
  unfold decodeClientHello
  refine bind_eq_ok_iff.mpr ⟨_, hbody, ?_⟩
  refine bind_eq_ok_iff.mpr ⟨_, readU16_eq_ok_iff.mpr rfl, ?_⟩
  refine bind_eq_ok_iff.mpr ⟨_, readArray32_eq_ok_iff.mpr rfl, ?_⟩
  refine bind_eq_ok_iff.mpr ⟨_, h3, ?_⟩
  refine bind_eq_ok_iff.mpr ⟨_, h4, ?_⟩
  refine bind_eq_ok_iff.mpr ⟨_, h5, ?_⟩
  simp only
  rw [if_neg heven]
  refine bind_eq_ok_iff.mpr ⟨_, h6, ?_⟩
  refine bind_eq_ok_iff.mpr ⟨_, h7, ?_⟩
  refine bind_eq_ok_iff.mpr ⟨_, h8, ?_⟩
  refine bind_eq_ok_iff.mpr ⟨_, hexts, ?_⟩
  rw [u16Chunks_u16List, ← hcodes]
  rfl

/-- What a ServerHello was decoded from. -/
theorem exists_of_decodeServerHello {bytes : Bytes} {hello : DecodedServerHello}
    (h : decodeServerHello bytes = .ok hello) :
    ∃ suite tail, hello.sessionIdEcho.length < 256 ∧ hello.cipherSuite = knownCipherSuite suite ∧
      readExtensions tail = .ok hello.extensions ∧
      stripHandshakeHeader bytes 2 = .ok (serverHelloBody hello.legacyVersion hello.random
        hello.sessionIdEcho suite hello.compressionMethod tail) := by
  unfold decodeServerHello at h
  obtain ⟨body, hbody, h⟩ := exists_of_bind_ok h
  obtain ⟨⟨version, cursor1⟩, h1, h⟩ := exists_of_bind_ok h
  obtain ⟨⟨random, cursor2⟩, h2, h⟩ := exists_of_bind_ok h
  obtain ⟨⟨sessionIdLen, cursor3⟩, h3, h⟩ := exists_of_bind_ok h
  obtain ⟨⟨sessionId, cursor4⟩, h4, h⟩ := exists_of_bind_ok h
  obtain ⟨⟨suite, cursor5⟩, h5, h⟩ := exists_of_bind_ok h
  obtain ⟨⟨compression, cursor6⟩, h6, h⟩ := exists_of_bind_ok h
  obtain ⟨extensions, h7, h⟩ := exists_of_bind_ok h
  obtain rfl := Except.ok.inj h
  obtain rfl := readU16_eq_ok_iff.mp h1
  obtain rfl := readArray32_eq_ok_iff.mp h2
  obtain ⟨hsession, rfl⟩ := readVec8_iff.mp ⟨_, _, h3, h4⟩
  obtain rfl := readU16_eq_ok_iff.mp h5
  obtain rfl := readU8_eq_ok_iff.mp h6
  exact ⟨suite, cursor6, hsession, rfl, h7, hbody⟩

/-- Decoding a ServerHello from its body. -/
theorem decodeServerHello_of_body {bytes : Bytes} {hello : DecodedServerHello} {suite : UInt16}
    {tail : Bytes} (hsession : hello.sessionIdEcho.length < 256)
    (hcode : hello.cipherSuite = knownCipherSuite suite)
    (hexts : readExtensions tail = .ok hello.extensions)
    (hbody : stripHandshakeHeader bytes 2 = .ok (serverHelloBody hello.legacyVersion hello.random
      hello.sessionIdEcho suite hello.compressionMethod tail)) :
    decodeServerHello bytes = .ok hello := by
  obtain ⟨len3, cursor3, h3, h4⟩ := readVec8_iff.mpr ⟨hsession, rfl⟩
  unfold decodeServerHello
  refine bind_eq_ok_iff.mpr ⟨_, hbody, ?_⟩
  refine bind_eq_ok_iff.mpr ⟨_, readU16_eq_ok_iff.mpr rfl, ?_⟩
  refine bind_eq_ok_iff.mpr ⟨_, readArray32_eq_ok_iff.mpr rfl, ?_⟩
  refine bind_eq_ok_iff.mpr ⟨_, h3, ?_⟩
  refine bind_eq_ok_iff.mpr ⟨_, h4, ?_⟩
  refine bind_eq_ok_iff.mpr ⟨_, readU16_eq_ok_iff.mpr rfl, ?_⟩
  refine bind_eq_ok_iff.mpr ⟨_, readU8_eq_ok_iff.mpr rfl, ?_⟩
  refine bind_eq_ok_iff.mpr ⟨_, hexts, ?_⟩
  rw [← hcode]
  rfl

/-! ## Decoding undoes encoding -/

theorem CipherSuite.code_fromU16 (v : UInt16) : (CipherSuite.fromU16 v).code = v := by
  unfold CipherSuite.fromU16
  split <;> rfl

theorem CipherSuite.Named.fromU16_code {s : CipherSuite} (h : s.Named) :
    CipherSuite.fromU16 s.code = s := by
  cases s with
  | other v => exact absurd rfl (h v)
  | _ => rfl

theorem knownCipherSuite_fst (code : UInt16) : (knownCipherSuite code).1 = code := by
  unfold knownCipherSuite
  split <;> rfl

theorem knownCipherSuite_named (code : UInt16) : SuiteNamed (knownCipherSuite code) := by
  intro s
  rw [knownCipherSuite_fst]
  unfold knownCipherSuite
  split
  · rename_i v hother
    refine iff_of_false nofun ?_
    rintro ⟨hnamed, hcode⟩
    rw [← hcode, hnamed.fromU16_code] at hother
    exact hnamed v hother
  · rename_i hnamed
    constructor
    · intro h
      obtain rfl := Option.some.inj h
      exact ⟨fun v hv => hnamed v hv, CipherSuite.code_fromU16 code⟩
    · rintro ⟨hs, rfl⟩
      exact congrArg some hs.fromU16_code

theorem fst_map_knownCipherSuite (codes : List UInt16) :
    (codes.map knownCipherSuite).map Prod.fst = codes :=
  Function.LeftInverse.list_map knownCipherSuite_fst codes

theorem wire_map_decoded (exts : List WireExtension) :
    (exts.map WireExtension.decoded).map DecodedExtension.wire = exts :=
  Function.LeftInverse.list_map (fun _ => rfl) exts

theorem writeAll_decoded (exts : List WireExtension) :
    DecodedExtension.framing.writeAll (exts.map WireExtension.decoded) =
      (exts.map WireExtension.encode).flatten := by
  unfold Framing.writeAll
  rw [List.map_map]
  rfl

/-- The extensions of a block are found in order. -/
theorem walkExtensionBodies_encode {exts : List WireExtension}
    (h : ∀ e ∈ exts, e.body.length < 65536) :
    walkExtensionBodies (exts.map WireExtension.encode).flatten = exts.map WireExtension.decoded := by
  have hfits : ∀ e ∈ exts.map WireExtension.decoded, e.Fits := by
    intro e he
    obtain ⟨w, hw, rfl⟩ := List.mem_map.mp he
    exact ⟨rfl, h w hw⟩
  have hpeel := DecodedExtension.framing.peelLoop_writeAll rfl hfits (Nat.lt_succ_self _)
  change peelLoop cutExtension _ _ = _ at hpeel
  unfold walkExtensionBodies
  rw [← writeAll_decoded, hpeel]
  simp [Function.comp_def]

theorem readExtensions_write {block : Option (List WireExtension)} (h : ExtensionsFit block) :
    readExtensions (writeExtensions block) = .ok ((block.getD []).map WireExtension.decoded) := by
  rw [readExtensions_eq_ok_iff]
  cases block with
  | none => exact .inl ⟨rfl, rfl⟩
  | some exts =>
    obtain ⟨hbodies, hlen⟩ := h exts rfl
    refine .inr ⟨_, [], hlen, (List.append_nil _).symm, ?_⟩
    exact (walkExtensionBodies_encode hbodies).symm

theorem writeExtensions_length {block : Option (List WireExtension)} (h : ExtensionsFit block) :
    (writeExtensions block).length < 65538 := by
  cases block with
  | none => simp [writeExtensions]
  | some exts =>
    obtain ⟨-, hlen⟩ := h exts rfl
    rw [writeExtensions, vec16_length]
    omega

namespace WireClientHello

variable (hello : WireClientHello)

/-- What the ClientHello is decoded to. -/
def decoded : DecodedClientHello where
  legacyVersion := hello.legacyVersion
  random := hello.random
  sessionId := hello.sessionId
  cipherSuites := hello.cipherSuites.map knownCipherSuite
  compressionMethods := hello.compressionMethods
  extensions := (hello.extensions.getD []).map WireExtension.decoded

theorem describes_decoded : hello.Describes hello.decoded where
  legacyVersion := rfl
  random := rfl
  sessionId := rfl
  cipherSuites := fst_map_knownCipherSuite hello.cipherSuites
  suitesNamed := by
    intro suite h
    obtain ⟨code, -, rfl⟩ := List.mem_map.mp h
    exact knownCipherSuite_named code
  compressionMethods := rfl
  extensions := wire_map_decoded _

/-- The parts of a ClientHello are short enough for the header. -/
theorem body_length_lt :
    (clientHelloBody hello.legacyVersion hello.random hello.sessionId hello.cipherSuites
      hello.compressionMethods (writeExtensions hello.extensions)).length < 16777216 := by
  have hsession := hello.sessionId_lt
  have hsuites := hello.cipherSuites_lt
  have hcompression := hello.compressionMethods_lt
  have hexts := writeExtensions_length hello.extensions_fit
  have hrandom := hello.random.2
  simp only [clientHelloBody, List.length_append, u16ToBe_length, vec8_length, vec16_length]
  omega

theorem decodeClientHello_eq (trailing : Bytes) :
    decodeClientHello (hello.encode ++ trailing) = .ok hello.decoded :=
  decodeClientHello_of_body hello.sessionId_lt hello.cipherSuites_lt hello.compressionMethods_lt rfl
    (readExtensions_write hello.extensions_fit)
    (stripHandshakeHeader_eq_ok_iff.mpr ⟨hello.body_length_lt, trailing, rfl⟩)

end WireClientHello

namespace WireServerHello

variable (hello : WireServerHello)

/-- What the ServerHello is decoded to. -/
def decoded : DecodedServerHello where
  legacyVersion := hello.legacyVersion
  random := hello.random
  sessionIdEcho := hello.sessionIdEcho
  cipherSuite := knownCipherSuite hello.cipherSuite
  compressionMethod := hello.compressionMethod
  extensions := (hello.extensions.getD []).map WireExtension.decoded

theorem describes_decoded : hello.Describes hello.decoded where
  legacyVersion := rfl
  random := rfl
  sessionIdEcho := rfl
  cipherSuite := knownCipherSuite_fst hello.cipherSuite
  suiteNamed := knownCipherSuite_named hello.cipherSuite
  compressionMethod := rfl
  extensions := wire_map_decoded _

theorem body_length_lt :
    (serverHelloBody hello.legacyVersion hello.random hello.sessionIdEcho hello.cipherSuite
      hello.compressionMethod (writeExtensions hello.extensions)).length < 16777216 := by
  have hsession := hello.sessionIdEcho_lt
  have hexts := writeExtensions_length hello.extensions_fit
  have hrandom := hello.random.2
  simp only [serverHelloBody, List.length_append, List.length_cons, u16ToBe_length, vec8_length]
  omega

theorem decodeServerHello_eq (trailing : Bytes) :
    decodeServerHello (hello.encode ++ trailing) = .ok hello.decoded :=
  decodeServerHello_of_body hello.sessionIdEcho_lt rfl (readExtensions_write hello.extensions_fit)
    (stripHandshakeHeader_eq_ok_iff.mpr ⟨hello.body_length_lt, trailing, rfl⟩)

end WireServerHello

/-- A hello that can be sent is decoded to its fields, whatever follows the message. -/
theorem decodeHello_encode (trailing : Bytes) :
    (∀ hello : WireClientHello, ∃ decoded,
      decodeClientHello (hello.encode ++ trailing) = .ok decoded ∧ hello.Describes decoded) ∧
    (∀ hello : WireServerHello, ∃ decoded,
      decodeServerHello (hello.encode ++ trailing) = .ok decoded ∧ hello.Describes decoded) :=
  ⟨fun hello => ⟨_, hello.decodeClientHello_eq trailing, hello.describes_decoded⟩,
    fun hello => ⟨_, hello.decodeServerHello_eq trailing, hello.describes_decoded⟩⟩

/-! ## Encoding undoes decoding -/

theorem handshakeMessage_inj {ty : UInt8} {a b : Bytes}
    (h : handshakeMessage ty a = handshakeMessage ty b) : a = b :=
  congrArg (List.drop 4) h

theorem clientHelloBody_inj {version : UInt16} {random : Random} {session compression a b : Bytes}
    {suites : List UInt16} :
    clientHelloBody version random session suites compression a =
      clientHelloBody version random session suites compression b ↔ a = b := by
  simp only [clientHelloBody, List.append_cancel_left_eq]

theorem serverHelloBody_inj {version suite : UInt16} {random : Random} {session a b : Bytes}
    {compression : UInt8} :
    serverHelloBody version random session suite compression a =
      serverHelloBody version random session suite compression b ↔ a = b := by
  simp only [serverHelloBody, List.append_cancel_left_eq, List.cons.injEq, true_and]

theorem writeExtensions_wire (exts : List DecodedExtension) :
    writeExtensions (some (exts.map DecodedExtension.wire)) =
      vec16 (DecodedExtension.framing.writeAll exts) := by
  show vec16 ((exts.map DecodedExtension.wire).map WireExtension.encode).flatten = _
  rw [List.map_map]
  rfl

/-- The extensions that are read from a block take no more than the block. -/
theorem writeAll_walkExtensionBodies (block : Bytes) :
    (∀ e ∈ walkExtensionBodies block, e.Fits) ∧
      (DecodedExtension.framing.writeAll (walkExtensionBodies block)).length ≤ block.length := by
  have hloop := Cutter.peelLoop_eq_peel (S := DecodedExtension.framing.toCutter)
    (Nat.lt_succ_self block.length)
  change peelLoop cutExtension (block.length + 1) block = _ at hloop
  obtain ⟨hfits, hwrite⟩ := DecodedExtension.framing.writeAll_frames block
  have hlen := congrArg List.length hwrite
  rw [List.length_append] at hlen
  unfold walkExtensionBodies
  rw [hloop]
  exact ⟨hfits, by omega⟩

/-- The extensions that were read are written back to where they were read from iff the block is read
to its end and ends the message. -/
theorem writeExtensions_iff {tail : Bytes} {exts : List DecodedExtension}
    (h : readExtensions tail = .ok exts) :
    (writeExtensions (some (exts.map DecodedExtension.wire)) = tail ∨
      exts = [] ∧ writeExtensions none = tail) ↔ BlockWhole tail := by
  rcases readExtensions_eq_ok_iff.mp h with ⟨rfl, rfl⟩ | ⟨block, rest, hlt, rfl, rfl⟩
  · exact iff_of_true (.inr ⟨rfl, rfl⟩) trivial
  · obtain ⟨hfits, hle⟩ := writeAll_walkExtensionBodies block
    obtain ⟨l1, l2, hvec, hcount⟩ := vec16_eq hlt
    rw [writeExtensions_wire, hvec, List.cons_append, List.cons_append]
    show _ ↔ (block ++ rest).length = (u16FromBe l1 l2).toNat ∧ Whole cutExtension (block ++ rest)
    rw [hcount, List.length_append]
    constructor
    · rintro (heq | ⟨-, heq⟩)
      · obtain ⟨hblock, hlen⟩ := (cons_eq_vec16_iff (by omega)).mp heq.symm
        have hlens := congrArg List.length hblock
        rw [List.length_append] at hlens
        exact ⟨by omega, (DecodedExtension.framing.whole_iff rfl).mpr ⟨_, hfits, hblock⟩⟩
      · cases heq
    · rintro ⟨hlen, hwhole⟩
      obtain rfl := List.eq_nil_of_length_eq_zero (show rest.length = 0 by omega)
      rw [List.append_nil] at hwhole
      obtain ⟨-, hwrite⟩ := DecodedExtension.framing.writeAll_peelLoop hwhole (Nat.lt_succ_self _)
      change DecodedExtension.framing.writeAll (walkExtensionBodies block) = block at hwrite
      rw [hwrite, List.append_nil]
      exact .inl hvec

theorem skipVec8_append {bytes : Bytes} (h : bytes.length < 256) (rest : Bytes) :
    skipVec8 (vec8 bytes ++ rest) = rest := by
  obtain ⟨l, hvec, hl⟩ := vec8_eq h
  rw [hvec]
  simp only [List.cons_append, skipVec8, hl, List.drop_left]

theorem skipVec16_append {bytes : Bytes} (h : bytes.length < 65536) (rest : Bytes) :
    skipVec16 (vec16 bytes ++ rest) = rest := by
  obtain ⟨l1, l2, hvec, hl⟩ := vec16_eq h
  rw [hvec]
  simp only [List.cons_append, skipVec16, hl, List.drop_left]

/-- What stands behind the header, the version and the random. -/
theorem drop_message {ty : UInt8} {version : UInt16} {random : Random} {rest : Bytes} :
    (handshakeMessage ty (u16ToBe version ++ (random.1 ++ rest))).drop 38 = rest := by
  show (random.1 ++ rest).drop 32 = rest
  exact List.drop_left' random.2

/-- What stands behind the compression methods of a ClientHello. -/
theorem clientHelloTail_message {version : UInt16} {random : Random} {session compression tail : Bytes}
    {suites : List UInt16} (hsession : session.length < 256) (hsuites : (u16List suites).length < 65536)
    (hcompression : compression.length < 256)
    (hlt : (clientHelloBody version random session suites compression tail).length < 16777216)
    (trailing : Bytes) :
    clientHelloTail (handshakeMessage 1
      (clientHelloBody version random session suites compression tail) ++ trailing) = tail := by
  rw [clientHelloTail, declaredMessage_append hlt, clientHelloBody, drop_message,
    skipVec8_append hsession, skipVec16_append hsuites, skipVec8_append hcompression]

/-- What stands behind the compression method of a ServerHello. -/
theorem serverHelloTail_message {version suite : UInt16} {random : Random} {session tail : Bytes}
    {compression : UInt8} (hsession : session.length < 256)
    (hlt : (serverHelloBody version random session suite compression tail).length < 16777216)
    (trailing : Bytes) :
    serverHelloTail (handshakeMessage 2
      (serverHelloBody version random session suite compression tail) ++ trailing) = tail := by
  rw [serverHelloTail, declaredMessage_append hlt, serverHelloBody, drop_message,
    skipVec8_append hsession]
  rfl

/-- A ClientHello is written back to its message iff the extensions are written back to its end. -/
theorem DecodedClientHello.encode_eq_iff {hello : DecodedClientHello} {suites : List UInt16}
    {tail : Bytes} (hcodes : hello.cipherSuites = suites.map knownCipherSuite)
    (block : Option (List WireExtension)) :
    hello.encode block = handshakeMessage 1 (clientHelloBody hello.legacyVersion hello.random
        hello.sessionId suites hello.compressionMethods tail) ↔
      writeExtensions block = tail := by
  unfold encode
  rw [hcodes, fst_map_knownCipherSuite]
  constructor
  · intro h
    exact clientHelloBody_inj.mp (handshakeMessage_inj h)
  · rintro rfl
    rfl

/-- The same for a ServerHello. -/
theorem DecodedServerHello.encode_eq_iff {hello : DecodedServerHello} {suite : UInt16} {tail : Bytes}
    (hcode : hello.cipherSuite = knownCipherSuite suite) (block : Option (List WireExtension)) :
    hello.encode block = handshakeMessage 2 (serverHelloBody hello.legacyVersion hello.random
        hello.sessionIdEcho suite hello.compressionMethod tail) ↔
      writeExtensions block = tail := by
  unfold encode
  rw [hcode, knownCipherSuite_fst]
  constructor
  · intro h
    exact serverHelloBody_inj.mp (handshakeMessage_inj h)
  · rintro rfl
    rfl

/-- A decoded hello is its message written again iff there is no extension block, or it ends the
message and splits into extensions. -/
theorem reencodes_iff (bytes : Bytes) :
    (∀ hello, decodeClientHello bytes = .ok hello →
      (hello.Reencodes (declaredMessage bytes) ↔ BlockWhole (clientHelloTail bytes))) ∧
    (∀ hello, decodeServerHello bytes = .ok hello →
      (hello.Reencodes (declaredMessage bytes) ↔ BlockWhole (serverHelloTail bytes))) := by
  constructor
  · intro hello h
    obtain ⟨suites, tail, hsession, hsuites, hcompression, hcodes, hexts, hbody⟩ :=
      exists_of_decodeClientHello h
    obtain ⟨hlt, trailing, rfl⟩ := stripHandshakeHeader_eq_ok_iff.mp hbody
    rw [clientHelloTail_message hsession hsuites hcompression hlt, declaredMessage_append hlt,
      DecodedClientHello.Reencodes, DecodedClientHello.encode_eq_iff hcodes,
      DecodedClientHello.encode_eq_iff hcodes]
    exact writeExtensions_iff hexts
  · intro hello h
    obtain ⟨suite, tail, hsession, hcode, hexts, hbody⟩ := exists_of_decodeServerHello h
    obtain ⟨hlt, trailing, rfl⟩ := stripHandshakeHeader_eq_ok_iff.mp hbody
    rw [serverHelloTail_message hsession hlt, declaredMessage_append hlt,
      DecodedServerHello.Reencodes, DecodedServerHello.encode_eq_iff hcode,
      DecodedServerHello.encode_eq_iff hcode]
    exact writeExtensions_iff hexts

/-- A truncated extension, a rest of the block that is too short for an extension, and a byte behind
the block are accepted and lost. -/
theorem decode_not_reencodes :
    let client (tail : Bytes) := handshakeMessage 1
      (clientHelloBody 0x0303 ⟨List.replicate 32 0, rfl⟩ [] [0x1301] [0] tail)
    let server (tail : Bytes) := handshakeMessage 2
      (serverHelloBody 0x0303 ⟨List.replicate 32 0, rfl⟩ [] 0x1301 0 tail)
    ∀ tail ∈ [[0, 5, 0, 43, 0, 2, 3], [0, 2, 0, 0], [0, 0, 7]],
      (∃ hello, decodeClientHello (client tail) = .ok hello ∧
        ¬ hello.Reencodes (declaredMessage (client tail))) ∧
      (∃ hello, decodeServerHello (server tail) = .ok hello ∧
        ¬ hello.Reencodes (declaredMessage (server tail))) := by
  intro client server tail htail
  refine ⟨⟨⟨0x0303, ⟨List.replicate 32 0, rfl⟩, [], [(0x1301, some .aes128GcmSha256)], [0], []⟩, ?_⟩,
    ⟨0x0303, ⟨List.replicate 32 0, rfl⟩, [], (0x1301, some .aes128GcmSha256), 0, []⟩, ?_⟩
  · revert tail
    decide
  · revert tail
    decide

end SeeHandshake

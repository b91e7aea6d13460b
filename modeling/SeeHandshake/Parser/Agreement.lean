import SeeHandshake.Lib.Register
import SeeHandshake.Parser.Handshake

/-!
# Two readings of a ClientHello

What a ClientHello carries on the wire, what `tls_parser` is taken to make of it, and the summary that
the fully decoded message gives.
-/

namespace SeeHandshake

open Lib

/-! ## The wire -/

/-- The extension block at the end of a hello. -/
def extensionBlock (cursor : Bytes) : Except Error (Option Bytes) :=
  if cursor.isEmpty then .ok none
  else do
    let (extLen, cursor) ← readU16 cursor
    let (extBytes, _) ← readBytes cursor extLen.toNat
    return some extBytes

/-- The suites and the extension block of a ClientHello body. -/
def clientHelloContents (body : Bytes) : Except Error TlsClientHelloContents := do
  let (_, cursor) ← readU16 body
  let (_, cursor) ← readArray32 cursor
  let (sessionIdLen, cursor) ← readU8 cursor
  let (_, cursor) ← readBytes cursor sessionIdLen.toNat
  let (ciphersLen, cursor) ← readU16 cursor
  let (ciphers, cursor) ← readBytes cursor ciphersLen.toNat
  let (compressionLen, cursor) ← readU8 cursor
  let (_, cursor) ← readBytes cursor compressionLen.toNat
  let ext ← extensionBlock cursor
  return { ciphers := u16Chunks ciphers, ext }

/-- An extension as it is on the wire. -/
structure WireExtension where
  extType : UInt16
  body : Bytes
  deriving DecidableEq, Repr

/-- The complete extension at the front of an input, and the rest. -/
def takeExtension (i : Bytes) : Option (WireExtension × Bytes) :=
  match i with
  | t1 :: t2 :: l1 :: l2 :: rest =>
    let bodyLen := (u16FromBe l1 l2).toNat
    if rest.length < bodyLen then none
    else some (⟨u16FromBe t1 t2, rest.take bodyLen⟩, rest.drop bodyLen)
  | _ => none

theorem takeExtension_length {i rest : Bytes} {e : WireExtension}
    (h : takeExtension i = some (e, rest)) : rest.length < i.length := by
  unfold takeExtension at h
  split at h
  · rename_i t1 t2 l1 l2 tail
    simp only at h
    split_ifs at h
    obtain ⟨-, rfl⟩ := Prod.mk.inj (Option.some.inj h)
    simp only [List.length_drop, List.length_cons]
    omega
  · cases h

/-- The complete extensions at the front of a block, at most `fuel` of them. -/
def wireExtensionsLoop : Nat → Bytes → List WireExtension
  | 0, _ => []
  | fuel + 1, i =>
    match takeExtension i with
    | some (e, rest) => e :: wireExtensionsLoop fuel rest
    | none => []

/-- The complete extensions of a block. -/
def wireExtensions (extBytes : Bytes) : List WireExtension :=
  wireExtensionsLoop extBytes.length extBytes

/-- The complete extensions of a ClientHello message. -/
def helloExtensions (bytes : Bytes) : List WireExtension :=
  match stripHandshakeHeader bytes 1 >>= clientHelloContents with
  | .ok contents => wireExtensions (contents.ext.getD [])
  | .error _ => []

namespace WireExtension

/-- The types that the summary of a ClientHello looks at. -/
def summarized (e : WireExtension) : Bool :=
  e.extType = 0 || e.extType = 10 || e.extType = 16 || e.extType = 43 || e.extType = 51

/-- Whether the summary looks at the type but the body does not decode. -/
def malformed (e : WireExtension) : Bool := e.summarized && (decodeBody e.extType e.body).isNone

/-- The typed value of a well-formed body of one of these types. -/
def typed (e : WireExtension) : Option TlsExtension :=
  match e.extType with
  | 0 => (decodeServerName e.body).map fun entries =>
      .sni (entries.map fun entry => (entry.nameType, entry.name))
  | 10 => (decodeSupportedGroups e.body).map fun _ => .ellipticCurves (u16Chunks (e.body.drop 2))
  | 16 => (decodeAlpn e.body).map .alpn
  | 43 => (decodeSupportedVersions e.body).map .supportedVersions
  | 51 => (decodeKeyShare e.body).map fun _ => .keyShare e.body
  | _ => none

/-- The extension as the full decoder shows it. -/
def decoded (e : WireExtension) : DecodedExtension := decodeExtension e.extType e.body

theorem typed_of_not_summarized {e : WireExtension} (h : ¬ e.summarized) : e.typed = none := by
  obtain ⟨ty, body⟩ := e
  simp only [summarized, Bool.or_eq_true, decide_eq_true_eq, not_or] at h
  unfold typed
  split <;> simp_all

/-- A body of a summarized type has a typed value iff it decodes. -/
theorem isSome_typed {e : WireExtension} (h : e.summarized) :
    e.typed.isSome = (decodeBody e.extType e.body).isSome := by
  obtain ⟨ty, body⟩ := e
  simp only [summarized, Bool.or_eq_true, decide_eq_true_eq] at h
  rcases h with (((rfl | rfl) | rfl) | rfl) | rfl <;> simp [typed, decodeBody]

theorem not_malformed_of_typed {e : WireExtension} {ext : TlsExtension} (h : e.typed = some ext) :
    ¬ e.malformed := by
  intro hm
  obtain ⟨hs, hnone⟩ := (Bool.and_eq_true _ _).mp hm
  have hsome := isSome_typed hs
  rw [h, Option.isNone_iff_eq_none.mp hnone] at hsome
  cases hsome

end WireExtension

/-! ## What is assumed of `tls_parser` -/

/-- The parser reads the extension at the front of its input: it returns the typed value of a
well-formed body of the types that the summary looks at, refuses a malformed body of these types,
passes over other types, and refuses a truncated extension.

This is an assumption. The crate itself departs from it on some short or overlong bodies, such as those of the
extensions `00 1c 00 00`, `00 33 00 02 00 00` and `00 0a 00 05 00 02 00 1d ff`. -/
structure TlsParser.ReadsExtensions (tp : TlsParser) : Prop where
  typed : ∀ i e rest ext, takeExtension i = some (e, rest) → e.typed = some ext →
    tp.parseTlsExtension i = .ok (rest, ext)
  malformed : ∀ i e rest, takeExtension i = some (e, rest) → e.malformed →
    ∃ err, tp.parseTlsExtension i = .error err
  ignored : ∀ i e rest, takeExtension i = some (e, rest) → ¬ e.summarized →
    tp.parseTlsExtension i = .ok (rest, .other)
  truncated : ∀ i, takeExtension i = none → ∃ err, tp.parseTlsExtension i = .error err

/-- When the parser accepts a ClientHello, it returns the suites and the extension block that are on
the wire. -/
def TlsParser.ReadsClientHello (tp : TlsParser) : Prop :=
  ∀ bytes rest ch contents,
    tp.parseTlsMessageHandshake bytes = .ok (rest, .handshake (.clientHello ch)) →
    stripHandshakeHeader bytes 1 >>= clientHelloContents = .ok contents → ch = contents

/-! ## The summary of the full decode -/

namespace ExtensionBody

/-- The first server name of a `server_name` body. -/
def firstServerName : ExtensionBody → Option (Option String)
  | .serverName entries => some (entries.head?.map fun entry => fromUtf8Lossy entry.name)
  | _ => none

/-- The names of an ALPN body. -/
def alpnNames : ExtensionBody → Option (List AlpnProtocol)
  | .alpn protocols => some (protocols.map AlpnProtocol.fromBytes)
  | _ => none

/-- The groups of a `supported_groups` body. -/
def groups : ExtensionBody → Option (List NamedGroup)
  | .supportedGroups groups => some groups
  | _ => none

/-- The group of the first entry of a `key_share` body. -/
def firstGroup : ExtensionBody → Option (Option NamedGroup)
  | .keyShare entries => some (entries.head?.map KeyShareEntry.group)
  | _ => none

/-- The highest version of a `supported_versions` body. -/
def highestVersion : ExtensionBody → Option (Option TlsVersion)
  | .supportedVersions versions =>
    some (maxByKey preferredVersionRank (versions.map TlsVersion.fromU16))
  | _ => none

end ExtensionBody

/-- What an extension of a type says, if its body decoded. -/
def DecodedExtension.value {α : Type} (extType : UInt16) (pick : ExtensionBody → Option α)
    (e : DecodedExtension) : Option α :=
  if e.extType = extType then pick e.body else none

/-- What the last decoded extension of a type says. -/
def DecodedClientHello.last {α : Type} (hello : DecodedClientHello) (extType : UInt16)
    (pick : ExtensionBody → Option α) (absent : α) : α :=
  (lastValue (DecodedExtension.value extType pick) hello.extensions).getD absent

/-- The summary that the fully decoded message gives: the suites in order, and for each type what its
last decoded extension says. -/
def DecodedClientHello.summary (hello : DecodedClientHello) : ClientHelloInfo where
  sni := hello.last 0 ExtensionBody.firstServerName none
  alpnOffered := hello.last 16 ExtensionBody.alpnNames []
  cipherSuites := hello.cipherSuites.map fun suite => CipherSuite.fromU16 suite.1
  groupsOffered := hello.last 10 ExtensionBody.groups []
  keyShareGroup := hello.last 51 ExtensionBody.firstGroup none
  maxVersion := hello.last 43 ExtensionBody.highestVersion none

/-! ## Where the two agree -/

namespace WireExtension

/-- The extensions in front of the first malformed one. -/
def before (exts : List WireExtension) : List WireExtension := exts.takeWhile fun e => !e.malformed

/-- The first malformed extension and those behind it. -/
def behind (exts : List WireExtension) : List WireExtension := exts.dropWhile fun e => !e.malformed

/-- What an extension of a type says, if its body decodes. -/
def value {α : Type} (extType : UInt16) (pick : ExtensionBody → Option α) (e : WireExtension) :
    Option α :=
  e.decoded.value extType pick

/-- The server name of a nonempty list. -/
def namesServer (e : WireExtension) : Option (Option String) :=
  (e.value 0 ExtensionBody.firstServerName).filter Option.isSome

/-- Behind the first malformed extension, the last decodable one of the type, if there is one, repeats
what the last one before it says. -/
def Repeats {α : Type} (extType : UInt16) (pick : ExtensionBody → Option α) (absent : α)
    (exts : List WireExtension) : Prop :=
  ∀ v, lastValue (value extType pick) (behind exts) = some v →
    v = (lastValue (value extType pick) (before exts)).getD absent

/-- The extensions behind the first malformed one repeat what those before it say; and the last
`server_name` list, unless it is behind, is not empty after a nonempty one. -/
structure Repeated (exts : List WireExtension) : Prop where
  alpn : Repeats 16 ExtensionBody.alpnNames [] exts
  groups : Repeats 10 ExtensionBody.groups [] exts
  keyShare : Repeats 51 ExtensionBody.firstGroup none exts
  versions : Repeats 43 ExtensionBody.highestVersion none exts
  serverName : ∀ v, lastValue (value 0 ExtensionBody.firstServerName) (behind exts) = some v →
    v = (lastValue namesServer (before exts)).getD none
  serverNameEmpty : lastValue (value 0 ExtensionBody.firstServerName) (behind exts) = none →
    lastValue (value 0 ExtensionBody.firstServerName) (before exts) = some none →
    lastValue namesServer (before exts) = none

end WireExtension

end SeeHandshake

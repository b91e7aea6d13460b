import SeeHandshake.Lib.Pinned
import SeeHandshake.Ui.Sections

/-!
# The sections of extensions

The section that shows an extension, and the order that the sections of both hellos put the extensions
in: some types have a place of their own, the others keep the order of the wire.
-/

namespace SeeHandshake

open Lib

/-- The section that an extension is shown in. -/
def extensionSection (dir : String) (isClient : Bool) (ext : DecodedExtension) : Section :=
  if ext.extType = 51 then
    match ext.body with
    | .keyShare entries =>
      let title :=
        if isClient then
          "key_share — offered by client (" ++ toString entries.length ++ " offer" ++
            (if entries.length = 1 then "" else "s") ++ ")"
        else "key_share — chosen by server"
      ⟨title, dir, .keyShare entries isClient⟩
    | _ => sectionForExtension ext dir
  else sectionForExtension ext dir

/-- Whether a section shows an extension. -/
def Section.shows (s : Section) (ext : DecodedExtension) : Bool :=
  match s.value with
  | .extension shown => shown = ext
  | .keyShare entries _ => ext.extType = 51 ∧ ext.body = .keyShare entries
  | _ => false

/-- The extension types that the sections of a ServerHello have a place for. -/
def SERVER_HELLO_PINS : List UInt16 := [51, 43, 41]

/-- The extensions of a ServerHello in the order of their sections. -/
def serverHelloOrder (exts : List DecodedExtension) : List DecodedExtension :=
  pinned (·.extType) SERVER_HELLO_PINS exts ++ exts.filter fun e => e.extType ∉ PROMOTED_EXTENSIONS

/-- Whether the sections of a ServerHello leave out an extension type: it has a place among the sections of
a ClientHello only. -/
def LostInServerHello (extType : UInt16) : Prop :=
  extType ∈ PROMOTED_EXTENSIONS ∧ extType ∉ SERVER_HELLO_PINS

instance (extType : UInt16) : Decidable (LostInServerHello extType) :=
  inferInstanceAs (Decidable (_ ∧ _))

end SeeHandshake

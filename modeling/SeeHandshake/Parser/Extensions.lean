import SeeHandshake.Lib.Peel
import SeeHandshake.Model.Record

/-!
# TLS extension decoders

`parser/extensions.rs`: an extension body is decoded by its type; a malformed body falls back to
`ExtensionBody.opaqueBody`. The entry loops are instances of `Lib.peelLoop`: the body of each loop is
the cut function, which stops (`need`), fails (`bad`) or cuts off one entry (`frame`).
-/

namespace SeeHandshake

open Lib (Cut peelLoop)

/-- The name of an extension type. -/
def extensionName (extType : UInt16) : String :=
  match extType with
  | 0 => "server_name"
  | 1 => "max_fragment_length"
  | 4 => "trusted_ca_keys"
  | 5 => "status_request"
  | 6 => "user_mapping"
  | 7 => "client_authz"
  | 8 => "server_authz"
  | 9 => "cert_type"
  | 10 => "supported_groups"
  | 11 => "ec_point_formats"
  | 13 => "signature_algorithms"
  | 14 => "use_srtp"
  | 15 => "heartbeat"
  | 16 => "application_layer_protocol_negotiation"
  | 17 => "status_request_v2"
  | 18 => "signed_certificate_timestamp"
  | 19 => "client_certificate_type"
  | 20 => "server_certificate_type"
  | 21 => "padding"
  | 22 => "encrypt_then_mac"
  | 23 => "extended_master_secret"
  | 27 => "compress_certificate"
  | 28 => "record_size_limit"
  | 35 => "session_ticket"
  | 41 => "pre_shared_key"
  | 42 => "early_data"
  | 43 => "supported_versions"
  | 44 => "cookie"
  | 45 => "psk_key_exchange_modes"
  | 47 => "certificate_authorities"
  | 48 => "oid_filters"
  | 49 => "post_handshake_auth"
  | 50 => "signature_algorithms_cert"
  | 51 => "key_share"
  | 57 => "quic_transport_parameters"
  | 65281 => "renegotiation_info"
  | _ => "unknown"

/-- The bytes behind a two-byte length that must account for the whole body. -/
def readOpaqueU16 (body : Bytes) : Option Bytes :=
  match body with
  | b0 :: b1 :: rest => if rest.length ≠ (u16FromBe b0 b1).toNat then none else some rest
  | _ => none

/-- One turn of the loop of `decodeServerName`. -/
def cutServerName : Bytes → Cut ServerNameEntry Unit
  | nameType :: l1 :: l2 :: rest =>
    let nameLen := (u16FromBe l1 l2).toNat
    if rest.length < nameLen then .bad ()
    else .frame ⟨nameType, rest.take nameLen⟩ (3 + nameLen)
  | _ => .need

/-- Decode a `server_name` body. Bytes after the list, and a rest of the list that is too short for
an entry, are ignored. -/
def decodeServerName (body : Bytes) : Option (List ServerNameEntry) :=
  match body with
  | b0 :: b1 :: rest =>
    let listLen := (u16FromBe b0 b1).toNat
    if rest.length < listLen then none
    else
      let entries := peelLoop cutServerName (body.length + 1) (rest.take listLen)
      match entries.stop with
      | some _ => none
      | none => some (entries.frames.map Prod.fst)
  | _ => none

/-- Decode a `supported_groups` body. -/
def decodeSupportedGroups (body : Bytes) : Option (List NamedGroup) := do
  let list ← readOpaqueU16 body
  if list.length % 2 ≠ 0 then none
  else some ((u16Chunks list).map NamedGroup.fromU16)

/-- Decode a `signature_algorithms` or `signature_algorithms_cert` body. -/
def decodeSignatureAlgorithms (body : Bytes) : Option (List UInt16) := do
  let list ← readOpaqueU16 body
  if list.length % 2 ≠ 0 then none
  else some (u16Chunks list)

/-- One turn of the loop of `decodeAlpn`. -/
def cutAlpn : Bytes → Cut Bytes Unit
  | len :: rest =>
    if rest.length < len.toNat then .bad ()
    else .frame (rest.take len.toNat) (1 + len.toNat)
  | [] => .need

/-- Decode an ALPN body. -/
def decodeAlpn (body : Bytes) : Option (List Bytes) := do
  let list ← readOpaqueU16 body
  let protocols := peelLoop cutAlpn (list.length + 1) list
  match protocols.stop with
  | some _ => none
  | none => some (protocols.frames.map Prod.fst)

/-- Decode a `supported_versions` body: two bare bytes (the ServerHello form), or a list behind a
one-byte length (the ClientHello form). -/
def decodeSupportedVersions (body : Bytes) : Option (List UInt16) :=
  match body with
  | [b0, b1] => some [u16FromBe b0 b1]
  | [] => none
  | b0 :: rest =>
    if rest.length ≠ b0.toNat ∨ b0.toNat % 2 ≠ 0 then none
    else some (u16Chunks rest)

/-- Decode a `psk_key_exchange_modes` body. -/
def decodePskKeyExchangeModes (body : Bytes) : Option Bytes :=
  match body with
  | [] => none
  | b0 :: rest => if rest.length ≠ b0.toNat then none else some rest

/-- One turn of the loop of `parseKeyShareEntries`. -/
def cutKeyShare : Bytes → Cut KeyShareEntry Unit
  | g1 :: g2 :: l1 :: l2 :: rest =>
    let groupCode := u16FromBe g1 g2
    let keyLen := (u16FromBe l1 l2).toNat
    if rest.length < keyLen then .bad ()
    else .frame ⟨NamedGroup.fromU16 groupCode, groupCode, rest.take keyLen⟩ (4 + keyLen)
  | _ => .need

/-- Parse a sequence of key share entries that takes the whole input. -/
def parseKeyShareEntries (cursor : Bytes) : Option (List KeyShareEntry) :=
  let entries := peelLoop cutKeyShare (cursor.length + 1) cursor
  match entries.stop with
  | some _ => none
  | none => if entries.rest.isEmpty then some (entries.frames.map Prod.fst) else none

/-- Decode a `key_share` body: a list of entries behind a two-byte length that accounts for the whole
rest (the ClientHello form), or bare entries (the ServerHello form). -/
def decodeKeyShare (body : Bytes) : Option (List KeyShareEntry) :=
  match body with
  | b0 :: b1 :: b2 :: b3 :: rest =>
    if rest.length + 2 = (u16FromBe b0 b1).toNat then parseKeyShareEntries (b2 :: b3 :: rest)
    else parseKeyShareEntries body
  | _ => parseKeyShareEntries body

/-- One turn of the loop of `decodePreSharedKey`: an identity behind a two-byte length, and a
four-byte age. -/
def cutPskIdentity : Bytes → Cut PskIdentity Unit
  | l1 :: l2 :: rest =>
    let idLen := (u16FromBe l1 l2).toNat
    match rest.drop idLen with
    | a0 :: a1 :: a2 :: a3 :: _ =>
      .frame ⟨rest.take idLen, u32FromBe a0 a1 a2 a3⟩ (2 + idLen + 4)
    | _ => .bad ()
  | _ => .need

/-- Decode the ClientHello form of a `pre_shared_key` body: identities, then the length of the
binders. -/
def decodePreSharedKey (body : Bytes) : Option ExtensionBody :=
  match body with
  | b0 :: b1 :: rest =>
    let identitiesLen := (u16FromBe b0 b1).toNat
    match rest.drop identitiesLen with
    | n0 :: n1 :: _ =>
      let identities := peelLoop cutPskIdentity (body.length + 1) (rest.take identitiesLen)
      match identities.stop with
      | some _ => none
      | none =>
        some (.preSharedKey (identities.frames.map Prod.fst) (u16FromBe n0 n1).toNat)
    | _ => none
  | _ => none

/-- Decode an extension body by its type. -/
def decodeBody (extType : UInt16) (body : Bytes) : Option ExtensionBody :=
  match extType with
  | 0 => (decodeServerName body).map .serverName
  | 10 => (decodeSupportedGroups body).map .supportedGroups
  | 13 => (decodeSignatureAlgorithms body).map .signatureAlgorithms
  | 50 => (decodeSignatureAlgorithms body).map .signatureAlgorithms
  | 16 => (decodeAlpn body).map .alpn
  | 41 => decodePreSharedKey body
  | 42 => some .earlyData
  | 43 => (decodeSupportedVersions body).map .supportedVersions
  | 44 => (readOpaqueU16 body).map .cookie
  | 45 => (decodePskKeyExchangeModes body).map .pskKeyExchangeModes
  | 51 => (decodeKeyShare body).map .keyShare
  | _ => none

/-- Decode an extension from its type and body. -/
def decodeExtension (extType : UInt16) (body : Bytes) : DecodedExtension where
  extType := extType
  name := extensionName extType
  raw := body
  body := (decodeBody extType body).getD .opaqueBody

end SeeHandshake

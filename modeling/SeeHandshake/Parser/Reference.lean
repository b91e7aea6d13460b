import SeeHandshake.Model.Connection
import SeeHandshake.Parser.Agreement

/-!
# A reference parser

A small executable instance of the `tls_parser` interface: it frames handshake messages by their
four-byte header, reads the hello messages, and types the extensions the repository looks at. It shows
that the assumptions on the interface can be met, and runs the model on concrete traffic.
-/

namespace SeeHandshake.Reference

/-- Read the body of a ServerHello. -/
def serverHello (body : Bytes) : Except Error TlsServerHelloContents := do
  let (version, cursor) ← readU16 body
  let (_, cursor) ← readArray32 cursor
  let (sessionIdLen, cursor) ← readU8 cursor
  let (_, cursor) ← readBytes cursor sessionIdLen.toNat
  let (cipher, cursor) ← readU16 cursor
  let (_, cursor) ← readU8 cursor
  let ext ← extensionBlock cursor
  return { version, cipher, ext }

/-- Read the body of a handshake message of a type. -/
def messageBody (ty : UInt8) (body : Bytes) : Except Error TlsMessageHandshake :=
  match ty with
  | 1 => (clientHelloContents body).map .clientHello
  | 2 => (serverHello body).map .serverHello
  | 11 => .ok .certificate
  | 12 => .ok .serverKeyExchange
  | 14 => .ok .serverDone
  | 16 => .ok .clientKeyExchange
  | 0 | 4 | 5 | 8 | 13 | 15 | 20 | 22 | 24 => .ok .other
  | _ => .error (.parse "Switch")

/-- Parse the handshake message at the front of the input. -/
def parseTlsMessageHandshake (i : Bytes) : Except String (Bytes × TlsMessage) :=
  match i with
  | ty :: l1 :: l2 :: l3 :: rest =>
    let length := (u32FromBe 0 l1 l2 l3).toNat
    if rest.length < length then .error "Incomplete"
    else
      match messageBody ty (rest.take length) with
      | .ok hs => .ok (rest.drop length, .handshake hs)
      | .error _ => .error "Error"
  | _ => .error "Incomplete"

/-- Parse the extension at the front of the input; a malformed body of a type that the repository looks
at is an error. -/
def parseTlsExtension (i : Bytes) : Except String (Bytes × TlsExtension) :=
  match takeExtension i with
  | some (e, rest) => if e.malformed then .error "Verify" else .ok (rest, e.typed.getD .other)
  | none => .error "Incomplete"

/-- The reference parser. -/
def parser : TlsParser where
  parseTlsMessageHandshake := parseTlsMessageHandshake
  parseTlsExtension := parseTlsExtension

/-- The reference parser reads the header of what it parses. -/
theorem parser_consumes : parser.Consumes where
  message := by
    intro i rest msg h
    change parseTlsMessageHandshake i = _ at h
    unfold parseTlsMessageHandshake at h
    split at h
    · rename_i ty l1 l2 l3 tail
      simp only at h
      split_ifs at h with hlen
      split at h
      · obtain ⟨rfl, -⟩ := Prod.mk.inj (Except.ok.inj h)
        simp only [List.length_drop, List.length_cons]
        omega
      · cases h
    · cases h
  extension := by
    intro i rest ext h
    change parseTlsExtension i = _ at h
    unfold parseTlsExtension at h
    split at h
    · rename_i e rest' htake
      split_ifs at h
      obtain ⟨rfl, -⟩ := Prod.mk.inj (Except.ok.inj h)
      exact takeExtension_length htake
    · cases h

/-- The reference parser reads extensions as it is assumed of `tls_parser`. -/
theorem parser_readsExtensions : parser.ReadsExtensions where
  typed := by
    intro i e rest ext htake htyped
    have hm : ¬ e.malformed := WireExtension.not_malformed_of_typed htyped
    show parseTlsExtension i = _
    unfold parseTlsExtension
    rw [htake]
    simp only
    rw [if_neg hm, htyped]
    rfl
  malformed := by
    intro i e rest htake hm
    refine ⟨"Verify", ?_⟩
    show parseTlsExtension i = _
    unfold parseTlsExtension
    rw [htake]
    exact if_pos hm
  ignored := by
    intro i e rest htake hs
    show parseTlsExtension i = _
    unfold parseTlsExtension
    rw [htake]
    simp only
    rw [if_neg fun hm => hs (by simpa using (Bool.and_eq_true _ _).mp hm |>.1),
      WireExtension.typed_of_not_summarized hs]
    rfl
  truncated := by
    intro i htake
    refine ⟨"Incomplete", ?_⟩
    show parseTlsExtension i = _
    unfold parseTlsExtension
    rw [htake]

/-- The reference parser reads the suites and the extension block that are on the wire. -/
theorem parser_readsClientHello : parser.ReadsClientHello := by
  intro bytes rest ch contents hparse hwire
  change parseTlsMessageHandshake bytes = _ at hparse
  unfold parseTlsMessageHandshake at hparse
  unfold stripHandshakeHeader at hwire
  split at hparse
  · rename_i ty l1 l2 l3 tail
    simp only at hparse hwire
    split_ifs at hparse hwire with hshort hty
    · cases hwire
    · obtain rfl := not_not.mp hty
      change clientHelloContents (tail.take (u32FromBe 0 l1 l2 l3).toNat) = _ at hwire
      rw [messageBody, hwire] at hparse
      cases hparse
      rfl
  · cases hparse

/-- A body that is read, behind a header with its length, is a complete message. -/
theorem isMessage {ty l1 l2 l3 : UInt8} {body : Bytes} {hs : TlsMessageHandshake}
    (hlen : (u32FromBe 0 l1 l2 l3).toNat = body.length) (hbody : messageBody ty body = .ok hs) :
    parser.IsMessage (ty :: l1 :: l2 :: l3 :: body) (.handshake hs) where
  ne_nil := List.cons_ne_nil _ _
  parse := by
    intro rest
    show parseTlsMessageHandshake (ty :: l1 :: l2 :: l3 :: (body ++ rest)) = _
    unfold parseTlsMessageHandshake
    simp only [hlen]
    rw [if_neg (by simp), List.take_left, hbody, List.drop_left]

/-! ## Concrete traffic -/

/-- The flow of the concrete runs. -/
def key : ConnectionKey := ⟨.v4 10 0 0 1, 54321, .v4 93 184 216 34, 443⟩

/-- The client's endpoint of the flow. -/
def clientEndpoint : SocketAddr := ⟨.v4 10 0 0 1, 54321⟩

/-- The server's endpoint of the flow. -/
def serverEndpoint : SocketAddr := ⟨.v4 93 184 216 34, 443⟩

/-- A ClientHello that offers one suite and TLS 1.3. -/
def clientHello13 : Bytes :=
  [1, 0, 0, 50, 3, 3] ++ List.replicate 32 0 ++
    [0, 0, 2, 0x13, 0x01, 1, 0, 0, 7, 0, 43, 0, 3, 2, 3, 4]

/-- What `clientHello13` parses to. -/
def clientHello13Contents : TlsClientHelloContents :=
  { ciphers := [0x1301], ext := some [0, 43, 0, 3, 2, 3, 4] }

theorem clientHello13_isMessage :
    parser.IsMessage clientHello13 (.handshake (.clientHello clientHello13Contents)) :=
  @isMessage 1 0 0 50 (clientHello13.drop 4) _ (by decide) (by decide)

/-- A ClientHello that offers one suite, with an extension block. -/
def clientHelloWith (block : Bytes) : Bytes :=
  [1, 0, 0, UInt8.ofNat (43 + block.length), 3, 3] ++ List.replicate 32 0 ++
    [0, 0, 2, 0x13, 0x01, 1, 0] ++ u16ToBe (UInt16.ofNat block.length) ++ block

/-- A `server_name` extension with a body of one byte. -/
def malformedServerName : Bytes := [0, 0, 0, 1, 0]

/-- An ALPN extension that offers `h2`. -/
def alpnH2 : Bytes := [0, 16, 0, 5, 0, 3, 2, 0x68, 0x32]

/-- A ServerHello with the given random that selects TLS 1.3. -/
def serverHello13 (random : Bytes) : Bytes :=
  [2, 0, 0, 46, 3, 3] ++ random ++ [0, 0x13, 0x01, 0, 0, 6, 0, 43, 0, 2, 3, 4]

/-- The plaintext record that carries a payload. -/
def record (ty : UInt8) (payload : Bytes) : Bytes :=
  ty :: 3 :: 3 :: (u16ToBe (UInt16.ofNat payload.length) ++ payload)

end SeeHandshake.Reference

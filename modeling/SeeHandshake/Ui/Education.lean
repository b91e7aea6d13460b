import SeeHandshake.Ui.SectionLines

/-!
# The educational copy

`ui/education.rs` and the texts of `ui/sections.rs`: what the explanations of the sections and of the
stages say. Each text of a section carries a bound on its length.
-/

namespace SeeHandshake

/-- A literal is as long as its list of characters. -/
theorem length_toList_le {s : String} {l : List Char} {n : ℕ} (h : String.ofList l = s)
    (hl : l.length ≤ n) : s.toList.length ≤ n := by
  rw [← h, String.toList_ofList]
  exact hl

/-- A text of bounded length. -/
structure Prose where
  text : String
  length_le : text.toList.length ≤ 300 := by exact length_toList_le rfl (by decide +kernel)

/-- A labelled sub-topic. -/
structure ProseDetail where
  label : Prose
  body : Prose

/-! ## The texts -/

section Texts

-- The proof of a bound lists the characters of the text.
set_option maxRecDepth 4000

def EDU_CIPHER_OFFERED_SHORT : Prose where
  text := "The AEAD + hash pairs the client will accept, in preference order."

def EDU_CIPHER_OFFERED_DETAILS : List ProseDetail :=
  [⟨{ text := "Purpose" }, {
      text := "Names one symmetric AEAD (bulk encryption) and one hash (key schedule) per entry. The server picks exactly one." }⟩,
    ⟨{ text := "Key type" }, {
      text := "None here. This is the algorithm menu. The actual symmetric keys are derived later via HKDF." }⟩,
    ⟨{ text := "AEAD role" }, {
      text := "Encrypts and authenticates every record after ServerHello. AES-GCM, AES-CCM, ChaCha20-Poly1305." }⟩,
    ⟨{ text := "Hash role" }, {
      text := "SHA-256 or SHA-384. Feeds HKDF-Extract / HKDF-Expand, which turn the DH shared secret into traffic keys." }⟩,
    ⟨{ text := "TLS 1.3 change" }, {
      text := "Only 5 suites in the base spec. TLS 1.2 had hundreds because it bundled key exchange + auth + MAC + cipher into one code." }⟩]

def EDU_CIPHER_CHOSEN_SHORT : Prose where
  text := "The one AEAD + hash pair the server picked from the client's list."

def EDU_CIPHER_CHOSEN_DETAILS : List ProseDetail :=
  [⟨{ text := "Purpose" }, {
      text := "Locks in the algorithms that protect every record after this ServerHello." }⟩,
    ⟨{ text := "AEAD" }, {
      text := "Produces (ciphertext, tag) from (key, nonce, plaintext, associated_data). The tag catches any bit-flip." }⟩,
    ⟨{ text := "Hash" }, {
      text := "Used by HKDF to derive handshake-traffic keys, then application-traffic keys, from the shared secret." }⟩,
    ⟨{ text := "Keys involved" }, {
      text := "Symmetric only. Distinct write keys for each direction, plus IVs, all derived per-connection." }⟩]

def EDU_KEY_SHARE_SHORT : Prose where
  text := "Ephemeral Diffie-Hellman public key(s). This is the actual key material on the wire."

def EDU_KEY_SHARE_DETAILS : List ProseDetail :=
  [⟨{ text := "What's here" }, {
      text := "One or more ephemeral public keys, each tagged with its Diffie-Hellman group. The private half stays on the sender; only the public half is on the wire." }⟩,
    ⟨{ text := "Byte encoding" }, {
      text := "Fixed by the group. X25519: 32-byte little-endian u-coordinate. secp256r1: 0x04 || X || Y, each 32 bytes big-endian. ffdhe2048: 256-byte big-endian y = g^x mod p. Hybrid PQ: classical pubkey || ML-KEM encapsulation key." }⟩,
    ⟨{ text := "Shared secret" }, {
      text := "Client's private * Server's public == Server's private * Client's public (ECDH). Both sides compute the same secret without exchanging it. Forward-secret: the ephemeral keys are discarded after the handshake, so stealing the server's cert key later cannot decrypt captured traffic." }⟩]

def EDU_SUPPORTED_VERSIONS_SHORT : Prose where
  text := "Where the real TLS version negotiation happens in 1.3."

def EDU_SUPPORTED_VERSIONS_DETAILS : List ProseDetail :=
  [⟨{ text := "Purpose" }, {
      text := "Lists every TLS version the sender speaks. Server picks one and echoes it back in its own supported_versions." }⟩,
    ⟨{ text := "Why an extension?" }, {
      text := "Middleboxes reject unfamiliar values in the legacy_version field. Moving the real version list into an extension keeps TLS 1.3 wire-compatible with those boxes." }⟩,
    ⟨{ text := "Keys involved" }, {
      text := "None. Pure negotiation." }⟩]

def EDU_SIG_ALGS_SHORT : Prose where
  text := "Signature schemes the client can verify. Constrains what the server signs with."

def EDU_SIG_ALGS_DETAILS : List ProseDetail :=
  [⟨{ text := "Purpose" }, {
      text := "Tells the server which signature schemes are acceptable in CertificateVerify. The server must pick one on this list or the handshake fails." }⟩,
    ⟨{ text := "Key type" }, {
      text := "Asymmetric long-term. The server signs with the private key that matches its certificate." }⟩,
    ⟨{ text := "Where the private key lives" }, {
      text := "On the server, typically in an HSM, key file, or platform key store. Never on the wire." }⟩,
    ⟨{ text := "What's signed" }, {
      text := "A hash of the handshake transcript so far. This is what proves the server owns the certificate." }⟩,
    ⟨{ text := "Common schemes" }, {
      text := "rsa_pss_rsae_sha256 (RSA-PSS), ecdsa_secp256r1_sha256 (ECDSA/P-256), ed25519 (EdDSA)." }⟩]

def EDU_SUPPORTED_GROUPS_SHORT : Prose where
  text := "Every Diffie-Hellman group the client can use, key_share sent or not."

def EDU_SUPPORTED_GROUPS_DETAILS : List ProseDetail :=
  [⟨{ text := "Purpose" }, {
      text := "If the server prefers a group the client did not speculatively send a key for, it can respond with HelloRetryRequest naming a group from this list." }⟩,
    ⟨{ text := "Keys involved" }, {
      text := "None directly. This is the menu; key_share carries the actual ephemeral public keys for the groups the client bet on." }⟩,
    ⟨{ text := "Common groups" }, {
      text := "X25519 (Curve25519, fast and constant-time), secp256r1 (NIST P-256), secp384r1 (NIST P-384)." }⟩]

def EDU_CLIENT_RANDOM_SHORT : Prose where
  text := "32 bytes of client-side entropy. Feeds the key schedule as public salt."

def EDU_CLIENT_RANDOM_DETAILS : List ProseDetail :=
  [⟨{ text := "Source" }, {
      text := "Cryptographic RNG on the client (getrandom/urandom, RtlGenRandom, ...)." }⟩,
    ⟨{ text := "Purpose" }, {
      text := "Mixed into HKDF so two handshakes with identical parameters still derive different traffic keys." }⟩,
    ⟨{ text := "Public or secret?" }, {
      text := "Public. It appears on the wire in the clear and is not itself a key." }⟩,
    ⟨{ text := "TLS 1.2 legacy" }, {
      text := "The first 4 bytes used to be a Unix timestamp; TLS 1.3 dropped that convention, so all 32 bytes are now uniform random." }⟩]

def EDU_SERVER_RANDOM_SHORT : Prose where
  text := "32 bytes of server-side entropy. Also public salt into the key schedule."

def EDU_SERVER_RANDOM_DETAILS : List ProseDetail :=
  [⟨{ text := "Source" }, {
      text := "Cryptographic RNG on the server." }⟩,
    ⟨{ text := "Purpose" }, {
      text := "Mixed into HKDF alongside client_random and the DH shared secret. Ensures uniqueness even across replayed ClientHellos." }⟩,
    ⟨{ text := "Public or secret?" }, {
      text := "Public. Not a key." }⟩,
    ⟨{ text := "HelloRetryRequest" }, {
      text := "HRR is wire-encoded as a ServerHello whose random is SHA-256(\"HelloRetryRequest\"). That fixed value is how the client tells the two apart." }⟩]

def EDU_SNI_SHORT : Prose where
  text := "The hostname the client wants. Sent in the clear: the biggest metadata leak in TLS 1.3."

def EDU_SNI_DETAILS : List ProseDetail :=
  [⟨{ text := "Purpose" }, {
      text := "Lets one IP address host many TLS sites: the server picks the certificate matching this name." }⟩,
    ⟨{ text := "Visibility" }, {
      text := "Plaintext. Anyone on-path (ISPs, corporate proxies, coffee-shop wifi) can see which host you asked for even though the rest of the handshake is encrypted." }⟩,
    ⟨{ text := "Keys involved" }, {
      text := "None. Pure routing information." }⟩,
    ⟨{ text := "ECH" }, {
      text := "Encrypted Client Hello (draft) wraps SNI and other sensitive extensions in an outer ClientHello using a public key published in DNS. Not yet universal." }⟩]

def EDU_ALPN_SHORT : Prose where
  text := "Which application protocols the client speaks inside the TLS tunnel."

def EDU_ALPN_DETAILS : List ProseDetail :=
  [⟨{ text := "Purpose" }, {
      text := "The client and server agree on what to run on top of TLS (h2, http/1.1, something custom) before any data flows." }⟩,
    ⟨{ text := "Visibility" }, {
      text := "Client's offers are in the clear. Server's selected value is inside EncryptedExtensions, so a passive observer sees the menu but not the answer." }⟩,
    ⟨{ text := "Keys involved" }, {
      text := "None." }⟩]

def EDU_PSK_MODES_SHORT : Prose where
  text := "Whether resumption should also run a fresh Diffie-Hellman for forward secrecy."

def EDU_PSK_MODES_DETAILS : List ProseDetail :=
  [⟨{ text := "psk_ke" }, {
      text := "Pure PSK. Keys are derived from the resumption secret alone. No forward secrecy against loss of that secret." }⟩,
    ⟨{ text := "psk_dhe_ke" }, {
      text := "PSK + (EC)DHE. Keys mix the resumption secret with a fresh ephemeral shared secret. Preserves forward secrecy; almost always what real deployments use." }⟩,
    ⟨{ text := "Keys involved" }, {
      text := "Symmetric resumption PSK, plus ephemeral DH keys when psk_dhe_ke is picked." }⟩]

def EDU_PSK_SHORT : Prose where
  text := "Resumption tickets from a previous handshake. Also carries the MAC that proves possession."

def EDU_PSK_DETAILS : List ProseDetail :=
  [⟨{ text := "Purpose" }, {
      text := "TLS 1.3's session-resumption mechanism (and how 0-RTT early data is authenticated)." }⟩,
    ⟨{ text := "Key type" }, {
      text := "Symmetric. Each identity is an opaque ticket the server previously issued via NewSessionTicket; the shared PSK is derived from it." }⟩,
    ⟨{ text := "Binders" }, {
      text := "MACs over the transcript, keyed with a secret derived from the resumption PSK. Proves the client actually holds the PSK, not just the ticket bytes." }⟩,
    ⟨{ text := "Where the PSK lives" }, {
      text := "In the client's TLS session cache and, in some form, on the server. Never on the wire." }⟩]

def EDU_EARLY_DATA_SHORT : Prose where
  text := "Client wants to piggyback application data on the ClientHello (0-RTT)."

def EDU_EARLY_DATA_DETAILS : List ProseDetail :=
  [⟨{ text := "Purpose" }, {
      text := "Cuts a round trip: the client attaches request data to the ClientHello, encrypted under a key derived from a resumption PSK." }⟩,
    ⟨{ text := "Security cost" }, {
      text := "0-RTT data is not forward-secret against loss of the PSK, and it is replayable by an attacker. Clients typically only use it for safe idempotent requests." }⟩,
    ⟨{ text := "Keys involved" }, {
      text := "A symmetric early-traffic key derived from the resumption PSK, separate from the handshake and application traffic keys." }⟩]

def EDU_COOKIE_SHORT : Prose where
  text := "A stateless liveness token, echoed on the retried ClientHello."

def EDU_COOKIE_DETAILS : List ProseDetail :=
  [⟨{ text := "Purpose" }, {
      text := "Lets a server force a round trip before doing expensive key-exchange work. Useful against amplification attacks." }⟩,
    ⟨{ text := "Flow" }, {
      text := "Server sends HelloRetryRequest with a cookie; client repeats the ClientHello including the cookie; server verifies it (usually via a MAC keyed with server state) without keeping per-client memory." }⟩,
    ⟨{ text := "Keys involved" }, {
      text := "None on the wire. The server may MAC the cookie with a local key, but that key is server-side only." }⟩]

def EDU_OPAQUE_SHORT : Prose where
  text := "SeeHandshake does not decode this extension. Raw bytes are shown as-is."

def EDU_OPAQUE_DETAILS : List ProseDetail :=
  [⟨{ text := "What to do" }, {
      text := "Look up the extension type code in RFC 8446 or the IANA TLS ExtensionType Values registry." }⟩,
    ⟨{ text := "Are these bytes trustworthy?" }, {
      text := "Yes. The parser hands the extension body through verbatim; only the interpretation is missing." }⟩]

def EDU_UNKNOWN_SHORT : Prose where
  text := "A handshake message whose msg_type didn't match anything expected in the clear."

def EDU_UNKNOWN_DETAILS : List ProseDetail :=
  [⟨{ text := "Expected here" }, {
      text := "Only ClientHello (1) and ServerHello / HelloRetryRequest (2) appear in the clear in TLS 1.3." }⟩,
    ⟨{ text := "Likely causes" }, {
      text := "A non-TLS payload on the same port, a truncated capture, or a version mismatch where TLS 1.2 messages arrived unexpectedly." }⟩]

def EDU_CERTIFICATE_DETAILS : List ProseDetail :=
  [⟨{ text := "Purpose" }, {
      text := "The server's identity: an X.509 chain the client will verify against its trust store (system CAs, browser roots, etc.)." }⟩,
    ⟨{ text := "Key type" }, {
      text := "Asymmetric, long-term. The certificate carries a public key; the matching private key stays on the server." }⟩,
    ⟨{ text := "Visibility" }, {
      text := "Plaintext in TLS 1.2, so anyone on-path can see the certificate. TLS 1.3 encrypts it inside the handshake flight." }⟩,
    ⟨{ text := "Trust check" }, {
      text := "Client verifies the signature chain up to a trusted root, then checks the name in the leaf matches the SNI it sent." }⟩]

def EDU_SERVER_KEY_EXCHANGE_DETAILS : List ProseDetail :=
  [⟨{ text := "Purpose" }, {
      text := "Carries the server's ephemeral (EC)DH public key so the two sides can derive a shared secret for this session only." }⟩,
    ⟨{ text := "Signature" }, {
      text := "The (EC)DH parameters are signed with the certificate's private key. That binds this ephemeral key to the server's long-term identity." }⟩,
    ⟨{ text := "Why it matters" }, {
      text := "This is what gives TLS 1.2 forward secrecy: the ephemeral key is discarded after use, so capturing the traffic and later stealing the cert key does not decrypt it." }⟩,
    ⟨{ text := "TLS 1.3 change" }, {
      text := "TLS 1.3 dropped this message. The server's key_share goes in ServerHello, and the signature moves to CertificateVerify." }⟩]

def EDU_CERTIFICATE_REQUEST_DETAILS : List ProseDetail :=
  [⟨{ text := "Purpose" }, {
      text := "Signals mutual TLS: the server wants a client certificate too, and lists which CAs and signature schemes it will accept." }⟩,
    ⟨{ text := "Keys involved" }, {
      text := "None here. The client must present its own X.509 chain in a subsequent Certificate message and prove ownership with CertificateVerify." }⟩]

def EDU_SERVER_HELLO_DONE_DETAILS : List ProseDetail :=
  [⟨{ text := "Purpose" }, {
      text := "TLS 1.2 marker: the server's plaintext flight is done. The client should now respond with ClientKeyExchange, CCS, Finished." }⟩,
    ⟨{ text := "Wire format" }, {
      text := "Four bytes exactly: 0x0e 0x00 0x00 0x00 (msg_type + zero-length body)." }⟩,
    ⟨{ text := "TLS 1.3 change" }, {
      text := "Removed. The server's flight is delimited by its Finished message instead." }⟩]

def EDU_CERTIFICATE_VERIFY_DETAILS : List ProseDetail :=
  [⟨{ text := "Purpose" }, {
      text := "A signature over the handshake transcript hash, made with the certificate's private key. Proves the sender actually holds that private key." }⟩,
    ⟨{ text := "Keys involved" }, {
      text := "Asymmetric long-term (signature). Uses one of the schemes offered in signature_algorithms." }⟩,
    ⟨{ text := "Where the private key lives" }, {
      text := "On the endpoint that owns the certificate, usually an HSM, TPM, or protected key file. Never on the wire." }⟩]

def EDU_CLIENT_KEY_EXCHANGE_DETAILS : List ProseDetail :=
  [⟨{ text := "Purpose" }, {
      text := "Client's half of the (EC)DH exchange (ECDHE) or an RSA-encrypted premaster secret (legacy RSA suites)." }⟩,
    ⟨{ text := "Forward secrecy" }, {
      text := "Only preserved with ECDHE/DHE suites. Pure-RSA key exchange has been deprecated because a stolen server key can decrypt past captures." }⟩,
    ⟨{ text := "TLS 1.3 change" }, {
      text := "Removed. The client sends its key_share in ClientHello, so the DH exchange is complete after ServerHello." }⟩]

def EDU_FINISHED_DETAILS : List ProseDetail :=
  [⟨{ text := "Purpose" }, {
      text := "HMAC over the full handshake transcript. Proves the sender saw the same handshake as the receiver, which catches man-in-the-middle tampering." }⟩,
    ⟨{ text := "Visibility" }, {
      text := "Encrypted. TLS 1.2 sends it as a Handshake record right after ChangeCipherSpec; TLS 1.3 wraps it in an application_data record." }⟩,
    ⟨{ text := "Keys involved" }, {
      text := "The verify_data is a MAC keyed with a secret derived from the master secret plus the transcript hash. Symmetric only." }⟩]

def EDU_NEW_SESSION_TICKET_DETAILS : List ProseDetail :=
  [⟨{ text := "Purpose" }, {
      text := "An opaque ticket the client can present on a future ClientHello to skip most of the handshake (session resumption)." }⟩,
    ⟨{ text := "TLS 1.2 vs 1.3" }, {
      text := "TLS 1.2 sends it once, immediately after the server CCS. TLS 1.3 can send it any time after Finished, inside encrypted application_data records." }⟩,
    ⟨{ text := "Keys involved" }, {
      text := "The ticket is opaque to the client. Internally the server derives a resumption PSK from it and its own long-term ticket-encryption key." }⟩]

def EDU_CERT_STATUS_DETAILS : List ProseDetail :=
  [⟨{ text := "Purpose" }, {
      text := "Server-stapled OCSP response: proof from the CA (or its responder) that the certificate has not been revoked." }⟩,
    ⟨{ text := "Why staple" }, {
      text := "Saves the client from having to fetch OCSP itself (which leaks browsing to the CA and is often blocked)." }⟩]

def EDU_KEY_UPDATE_DETAILS : List ProseDetail :=
  [⟨{ text := "Purpose" }, {
      text := "TLS 1.3 mid-connection rekey. Rotates the application-traffic secret via HKDF so long-lived connections don't reuse keys indefinitely." }⟩,
    ⟨{ text := "Directions" }, {
      text := "Each side rekeys its own send direction. An `update_requested` flag can ask the peer to rekey theirs too." }⟩]

def EDU_CCS_SHORT : Prose where
  text := "TLS 1.2: 'everything I send after this is encrypted with the new keys.' TLS 1.3: legacy no-op."

def EDU_CCS_DETAILS : List ProseDetail :=
  [⟨{ text := "Wire format" }, {
      text := "One byte of payload: 0x01. That's the whole message." }⟩,
    ⟨{ text := "TLS 1.2 role" }, {
      text := "Cutover signal. The next record in the same direction is protected with the newly negotiated write key." }⟩,
    ⟨{ text := "TLS 1.3 role" }, {
      text := "None functional. It's kept purely so middleboxes that expect it in the flow don't drop the connection." }⟩,
    ⟨{ text := "Keys involved" }, {
      text := "None here. The keys are already derived at both ends; this message just tells the peer to start using them." }⟩]

def EDU_LEGACY_SHORT : Prose where
  text := "Non-crypto compatibility knobs kept so TLS 1.3 wire packets look like TLS 1.2 to middleboxes."

def EDU_LEGACY_DETAILS : List ProseDetail :=
  [⟨{ text := "legacy_version" }, {
      text := "Frozen at 0x0303 (TLS 1.2). Real version negotiation moved into the supported_versions extension." }⟩,
    ⟨{ text := "session_id" }, {
      text := "TLS 1.2 used this for stateful resumption. TLS 1.3 does resumption via pre_shared_key, so this field carries no protocol meaning. Clients send a random 32 bytes purely to look like TLS 1.2 on the wire." }⟩,
    ⟨{ text := "compression" }, {
      text := "Always 0x00. TLS-layer compression was removed after CRIME (2012) showed it leaks secrets when attacker-controlled and secret data are compressed together." }⟩,
    ⟨{ text := "Keys involved" }, {
      text := "None. This whole section is presentation, not security." }⟩]

def EDU_FRAMING_SHORT : Prose where
  text := "The 5-byte TLS record envelope. Same shape regardless of what's inside."

def EDU_FRAMING_DETAILS : List ProseDetail :=
  [⟨{ text := "Fields" }, {
      text := "1 byte content type, 2 bytes legacy version (always 0x0303 on TLS 1.3), 2 bytes length. Then the payload." }⟩,
    ⟨{ text := "Content type" }, {
      text := "handshake, application_data, change_cipher_spec, alert. Everything post-ServerHello is wrapped in application_data even when the plaintext underneath is a handshake message." }⟩,
    ⟨{ text := "Keys involved" }, {
      text := "None in the header. The payload may or may not be AEAD-encrypted depending on where in the handshake we are." }⟩]

def EDU_ENCRYPTED_STAGE_SHORT : Prose where
  text := "AEAD-encrypted. The label is inferred from flight position, not from decryption."

def EDU_ENCRYPTED_STAGE_DETAILS : List ProseDetail :=
  [⟨{ text := "Why encrypted" }, {
      text := "Everything after ServerHello is protected by handshake-traffic keys derived from the DH shared secret. A passive observer cannot see the inner content type or messages." }⟩,
    ⟨{ text := "How the label is picked" }, {
      text := "By position: 1st server encrypted = likely EncryptedExtensions + Certificate, 2nd = CertificateVerify + Finished, 3rd = NewSessionTicket. Client's 1st encrypted = Finished." }⟩,
    ⟨{ text := "Keys involved" }, {
      text := "Symmetric handshake-traffic keys, one per direction, derived by HKDF from the DH shared secret plus the transcript hash." }⟩,
    ⟨{ text := "Caveat" }, {
      text := "The label matches common OpenSSL/BoringSSL fragmentation. Servers that fragment differently will produce misleading labels; the tool cannot verify." }⟩]

def EDU_ENCRYPTED_CIPHERTEXT_SHORT : Prose where
  text := "The first bytes of the AEAD payload. Opaque without the handshake traffic keys."

def EDU_ENCRYPTED_CIPHERTEXT_DETAILS : List ProseDetail :=
  [⟨{ text := "What it is" }, {
      text := "Real ciphertext as observed on the wire. AEAD output: ciphertext followed by a 16-byte authentication tag." }⟩,
    ⟨{ text := "How to decrypt" }, {
      text := "You need the handshake traffic secret for this direction. It is derived inside each endpoint and never sent. A cooperating client can export it via SSLKEYLOGFILE. SeeHandshake does not yet consume that, but it is on the roadmap." }⟩,
    ⟨{ text := "Keys involved" }, {
      text := "Symmetric AEAD key + per-record IV, both derived per-direction from the handshake or application traffic secret." }⟩]

/-- `edu_short_for_msg_type`. -/
def eduShortForMsgType (msgType : UInt8) : Prose :=
  match msgType with
  | 4 => { text := "Server hands the client a resumption ticket for a faster future handshake." }
  | 11 => { text := "Server's X.509 certificate chain, proving identity to the client." }
  | 12 => { text := "Server's ephemeral (EC)DH public key, signed with its long-term certificate key." }
  | 13 => { text := "Server asks the client for its own certificate (mutual TLS)." }
  | 14 => { text := "Server signals its flight is complete. Client's turn now." }
  | 15 => { text := "Signature over the transcript proving possession of the private key." }
  | 16 => { text := "Client's contribution to the (EC)DH key exchange." }
  | 20 => { text := "MAC over the whole transcript. First message under the newly derived keys." }
  | 22 => { text := "Server-stapled OCSP response for its certificate." }
  | 24 => { text := "TLS 1.3 in-connection key rotation. Rekeys the application-traffic keys." }
  | _ => EDU_UNKNOWN_SHORT

end Texts

/-- `edu_details_for_msg_type`. -/
def eduDetailsForMsgType (msgType : UInt8) : List ProseDetail :=
  match msgType with
  | 4 => EDU_NEW_SESSION_TICKET_DETAILS
  | 11 => EDU_CERTIFICATE_DETAILS
  | 12 => EDU_SERVER_KEY_EXCHANGE_DETAILS
  | 13 => EDU_CERTIFICATE_REQUEST_DETAILS
  | 14 => EDU_SERVER_HELLO_DONE_DETAILS
  | 15 => EDU_CERTIFICATE_VERIFY_DETAILS
  | 16 => EDU_CLIENT_KEY_EXCHANGE_DETAILS
  | 20 => EDU_FINISHED_DETAILS
  | 22 => EDU_CERT_STATUS_DETAILS
  | 24 => EDU_KEY_UPDATE_DETAILS
  | _ => EDU_UNKNOWN_DETAILS

/-- The texts of an extension. -/
def extensionEdu : ExtensionBody → Prose × List ProseDetail
  | .serverName _ => (EDU_SNI_SHORT, EDU_SNI_DETAILS)
  | .supportedVersions _ => (EDU_SUPPORTED_VERSIONS_SHORT, EDU_SUPPORTED_VERSIONS_DETAILS)
  | .signatureAlgorithms _ => (EDU_SIG_ALGS_SHORT, EDU_SIG_ALGS_DETAILS)
  | .keyShare _ => (EDU_KEY_SHARE_SHORT, EDU_KEY_SHARE_DETAILS)
  | .supportedGroups _ => (EDU_SUPPORTED_GROUPS_SHORT, EDU_SUPPORTED_GROUPS_DETAILS)
  | .alpn _ => (EDU_ALPN_SHORT, EDU_ALPN_DETAILS)
  | .pskKeyExchangeModes _ => (EDU_PSK_MODES_SHORT, EDU_PSK_MODES_DETAILS)
  | .cookie _ => (EDU_COOKIE_SHORT, EDU_COOKIE_DETAILS)
  | .preSharedKey _ _ => (EDU_PSK_SHORT, EDU_PSK_DETAILS)
  | .earlyData => (EDU_EARLY_DATA_SHORT, EDU_EARLY_DATA_DETAILS)
  | .opaqueBody => (EDU_OPAQUE_SHORT, EDU_OPAQUE_DETAILS)

/-- The texts of a section. The two randoms differ in the title only. -/
def Section.edu (s : Section) : Prose × List ProseDetail :=
  match s.value with
  | .cipherSuitesOffered _ => (EDU_CIPHER_OFFERED_SHORT, EDU_CIPHER_OFFERED_DETAILS)
  | .cipherSuiteChosen _ => (EDU_CIPHER_CHOSEN_SHORT, EDU_CIPHER_CHOSEN_DETAILS)
  | .keyShare _ _ => (EDU_KEY_SHARE_SHORT, EDU_KEY_SHARE_DETAILS)
  | .extension ext => extensionEdu ext.body
  | .random _ =>
    if s.title = "Client random (32 bytes)" then (EDU_CLIENT_RANDOM_SHORT, EDU_CLIENT_RANDOM_DETAILS)
    else (EDU_SERVER_RANDOM_SHORT, EDU_SERVER_RANDOM_DETAILS)
  | .clientLegacy _ _ _ | .serverLegacy _ _ _ => (EDU_LEGACY_SHORT, EDU_LEGACY_DETAILS)
  | .message msgType _ => (eduShortForMsgType msgType, eduDetailsForMsgType msgType)
  | .guess _ => (EDU_ENCRYPTED_STAGE_SHORT, EDU_ENCRYPTED_STAGE_DETAILS)
  | .ciphertext _ => (EDU_ENCRYPTED_CIPHERTEXT_SHORT, EDU_ENCRYPTED_CIPHERTEXT_DETAILS)
  | .changeCipherSpec => (EDU_CCS_SHORT, EDU_CCS_DETAILS)
  | .framing _ _ _ _ => (EDU_FRAMING_SHORT, EDU_FRAMING_DETAILS)

/-- The educational text for a handshake stage. -/
def explain : HandshakeStage → String
  | .idle => ""
  | .clientHello =>
    "The client opens the handshake in the clear. It advertises the TLS versions it supports, " ++
      "the cipher suites it will accept, the named groups (elliptic curves) it can use for key " ++
      "exchange, and, via extensions, a Server Name Indication (SNI), an Application-Layer " ++
      "Protocol Negotiation (ALPN) list, and one or more key-share public keys."
  | .serverHello =>
    "The server responds, still in the clear. It picks exactly one cipher suite and one " ++
      "named group from the client's offers, and returns its own key-share public value for " ++
      "that group. From this point onward both endpoints can derive the handshake traffic " ++
      "keys, and every following record is encrypted."
  | .certificate =>
    "The server sends three encrypted records in a single flight: EncryptedExtensions " ++
      "(containing extensions such as the chosen ALPN protocol), Certificate (the server's " ++
      "certificate chain proving its identity), and CertificateVerify (a signature over the " ++
      "handshake transcript proving possession of the private key). A passive observer without " ++
      "the session keys cannot read any of these records."
  | .serverCertificate =>
    "In TLS 1.2 the server sends its certificate chain in the clear. A passive observer can " ++
      "read the full certificate, extract the subject and issuer DN, and verify the chain. " ++
      "This is one of the key differences from TLS 1.3, which encrypts the certificate."
  | .serverKeyExchange =>
    "For cipher suites using ephemeral Diffie-Hellman (DHE or ECDHE), the server sends its " ++
      "public key share in the clear. This message is omitted for RSA key-exchange suites. " ++
      "The server signs the parameters to prove possession of the private key."
  | .serverHelloDone =>
    "ServerHelloDone is a one-byte marker the server sends to signal the end of its " ++
      "initial plaintext flight (ServerHello + optional Certificate + optional " ++
      "ServerKeyExchange). It tells the client the server is ready for the client's response."
  | .clientKeyExchange =>
    "In TLS 1.2 the client sends its key material in the clear (for RSA: the pre-master " ++
      "secret encrypted with the server's public key; for DHE/ECDHE: the client's public " ++
      "share). Both sides can now independently derive the master secret and session keys."
  | .clientFinished =>
    "The client sends its encrypted Finished message, an HMAC over the entire handshake " ++
      "transcript, keyed with a secret derived from the handshake key schedule. This confirms " ++
      "that the client received and authenticated the server's messages, and prevents downgrade " ++
      "and tampering attacks on the negotiation."
  | .serverFinished =>
    "The server sends its encrypted Finished message, an HMAC over the handshake transcript " ++
      "analogous to the client's. Once both Finished messages have been exchanged and verified, " ++
      "both sides derive the application-traffic keys and the handshake is complete."
  | .applicationData =>
    "The handshake is complete. Both sides have switched to application-traffic keys and are " ++
      "exchanging protected application data (for example, HTTP/2 frames). Every record from " ++
      "this point forward is encrypted with the negotiated cipher suite."
  | .errored =>
    "The parser reported a fatal error for this connection. This is usually a truncated " ++
      "capture or a non-TLS payload on port 443; occasionally it is a malformed handshake."

/-! ## The copy as a whole -/

def ProseDetail.toEduDetail (d : ProseDetail) : EduDetail := ⟨d.label.text.toList, d.body.text.toList⟩

/-- No section has more than five sub-topics. -/
theorem Section.length_edu_le (s : Section) : s.edu.2.length ≤ 5 := by
  have hext : ∀ body, (extensionEdu body).2.length ≤ 5 := fun body => by
    cases body <;> exact Nat.le_of_ble_eq_true rfl
  have hmsg : ∀ msgType, (eduDetailsForMsgType msgType).length ≤ 5 := fun msgType => by
    unfold eduDetailsForMsgType
    split <;> exact Nat.le_of_ble_eq_true rfl
  unfold Section.edu
  split
  case h_4 ext _ => exact hext ext.body
  case h_5 => split_ifs <;> exact Nat.le_of_ble_eq_true rfl
  case h_8 msgType _ _ => exact hmsg msgType
  all_goals exact Nat.le_of_ble_eq_true rfl

/-- The size of the explanation of a section: its texts, with their indentation and colons. -/
theorem linesSize_eduLines (short : List Char) (details : List EduDetail) :
    linesSize (eduLines short details) =
      short.length + 5 + Lib.total (fun d => d.label.length + d.body.length + 7) details := by
  have hspaces : "    ".toList.length = 4 := rfl
  have hcolon : ": ".toList.length = 2 := rfl
  have hdetail : ∀ d : EduDetail, (Line.ofSpans [rawSpan "    ",
      styled (d.label ++ ": ".toList) (Style.ofColor .cyan).addBold,
      styled d.body (Style.ofColor .white)]).chars.length + 1 =
      d.label.length + d.body.length + 7 := fun d => by
    simp only [Line.chars, Line.ofSpans, rawSpan, styled, Span.raw, Span.chars, List.flatMap_cons,
      List.flatMap_nil, List.length_append, List.length_map, List.length_nil, hspaces, hcolon]
    omega
  unfold linesSize eduLines
  rw [Lib.total_cons, Lib.total_map]
  simp only [hdetail]
  simp only [Line.chars, Line.ofSpans, rawSpan, styled, Span.raw, Span.chars, List.flatMap_cons,
    List.flatMap_nil, List.length_append, List.length_map, List.length_nil, hspaces]
  omega

/-- Bounded texts make a bounded explanation. -/
theorem Section.linesSize_edu_le (s : Section) :
    linesSize (eduLines s.edu.1.text.toList (s.edu.2.map ProseDetail.toEduDetail)) ≤ 4096 := by
  have hlen := s.length_edu_le
  have hshort := s.edu.1.length_le
  have hdetails : Lib.total (fun d : EduDetail => d.label.length + d.body.length + 7)
      (s.edu.2.map ProseDetail.toEduDetail) ≤ 607 * s.edu.2.length := by
    rw [Lib.total_map]
    refine Lib.total_le_mul fun d _ => ?_
    have hlabel := d.label.length_le
    have hbody := d.body.length_le
    show d.label.text.toList.length + d.body.text.toList.length + 7 ≤ 607
    omega
  rw [linesSize_eduLines]
  omega

/-- The copy of the source. -/
def educationalCopy : EducationalCopy where
  eduShort s := s.edu.1.text.toList
  eduDetails s := s.edu.2.map ProseDetail.toEduDetail
  explain stage := (explain stage).toList
  size_le := Section.linesSize_edu_le

end SeeHandshake

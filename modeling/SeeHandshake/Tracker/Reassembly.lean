import Mathlib.Data.List.AList
import SeeHandshake.Model.Connection
import SeeHandshake.Parser.Handshake

/-!
# The connection tracker

`tracker/reassembly.rs`: per-connection reassembly of TCP payloads into TLS records, the handshake
state machine driven by these records, the timeline of records, and stale eviction.

Counters are `UInt32` and wrap on overflow, as in a release build.
-/

namespace SeeHandshake

/-- The default idle timeout, five minutes. -/
def DEFAULT_STALE_TIMEOUT_MS : UInt64 := 5 * 60 * 1000

/-- The largest reassembly buffer per direction. -/
def MAX_REASSEMBLY_BYTES : Nat := 128 * 1024

/-- The number of ciphertext bytes kept in a record event. -/
def CIPHERTEXT_PREVIEW_LEN : Nat := 64

/-- A connection in flight. -/
structure TrackedConnection where
  state : ConnectionState
  /-- The unframed bytes from the client. -/
  clientToServerBuf : Bytes := []
  /-- The unframed bytes from the server. -/
  serverToClientBuf : Bytes := []
  /-- The number of encrypted records from the server. -/
  encryptedRecordsFromServer : UInt32 := 0
  /-- The number of encrypted records from the client after the first one from the server. -/
  encryptedRecordsFromClient : UInt32 := 0
  /-- Whether the client's encrypted Finished was seen. -/
  sawClientFinishedMarker : Bool := false
  /-- Whether a ChangeCipherSpec of the client was seen. -/
  clientCcsSeen : Bool := false
  /-- Whether a ChangeCipherSpec of the server was seen. -/
  serverCcsSeen : Bool := false
  /-- The number of Handshake records of the client after its ChangeCipherSpec. -/
  postCcsRecordsFromClient : UInt32 := 0
  /-- The number of Handshake records of the server after its ChangeCipherSpec. -/
  postCcsRecordsFromServer : UInt32 := 0
  /-- The sequence number of the last record event. -/
  seqCounter : UInt32 := 0
  /-- Whether the timeline is closed. -/
  stopLogging : Bool := false
  deriving DecidableEq, Repr

namespace TrackedConnection

/-- The connection that `ingest` inserts for a new key. -/
def new (key : ConnectionKey) (nowMs : UInt64) : TrackedConnection where
  state := { key, firstSeenMs := nowMs, lastSeenMs := nowMs, handshake := HandshakeInfo.new,
             records := [] }

/-- The reassembly buffer of a direction. -/
def buf (conn : TrackedConnection) : Direction → Bytes
  | .clientToServer => conn.clientToServerBuf
  | .serverToClient => conn.serverToClientBuf

/-- Replace the reassembly buffer of a direction. -/
def setBuf (conn : TrackedConnection) (direction : Direction) (bytes : Bytes) : TrackedConnection :=
  match direction with
  | .clientToServer => { conn with clientToServerBuf := bytes }
  | .serverToClient => { conn with serverToClientBuf := bytes }

/-- Whether a ChangeCipherSpec of a direction was seen. -/
def ccsSeen (conn : TrackedConnection) : Direction → Bool
  | .clientToServer => conn.clientCcsSeen
  | .serverToClient => conn.serverCcsSeen

/-- Note a ChangeCipherSpec of a direction. -/
def setCcsSeen (conn : TrackedConnection) (direction : Direction) : TrackedConnection :=
  match direction with
  | .clientToServer => { conn with clientCcsSeen := true }
  | .serverToClient => { conn with serverCcsSeen := true }

end TrackedConnection

/-! ## Handshake messages -/

/-- Merge the summary of a ClientHello. -/
def mergeClientHello (dst : HandshakeInfo) (src : ClientHelloInfo) : HandshakeInfo :=
  { dst with
    stage := .clientHello
    sni := src.sni.or dst.sni
    alpnOffered := if src.alpnOffered.isEmpty then dst.alpnOffered else src.alpnOffered
    cipherSuitesOffered :=
      if src.cipherSuites.isEmpty then dst.cipherSuitesOffered else src.cipherSuites
    groupsOffered := if src.groupsOffered.isEmpty then dst.groupsOffered else src.groupsOffered
    keyShareGroup := src.keyShareGroup.or dst.keyShareGroup
    tlsVersion :=
      match src.maxVersion with
      | some v => some (dst.tlsVersion.getD v)
      | none => dst.tlsVersion }

/-- Merge the summary of a ServerHello. -/
def mergeServerHello (dst : HandshakeInfo) (src : ServerHelloInfo) : HandshakeInfo :=
  { dst with
    stage := .serverHello
    tlsVersion := src.tlsVersion.or dst.tlsVersion
    cipherSuiteSelected := src.cipherSuiteSelected.or dst.cipherSuiteSelected
    keyShareGroup := src.keyShareGroup.or dst.keyShareGroup
    alpnSelected := src.alpnSelected.or dst.alpnSelected }

/-- Whether a version is known to be TLS 1.2 or older. -/
def isTls12 (version : Option TlsVersion) : Bool :=
  match version with
  | some .ssl30 | some .tls10 | some .tls11 | some .tls12 => true
  | _ => false

section Messages

variable (tp : TlsParser)

/-- The effect of one plaintext handshake message. -/
def applyHandshakeMessage (direction : Direction) (handshake : HandshakeInfo) (msg : TlsMessage) :
    HandshakeInfo :=
  match msg with
  | .handshake hs =>
    match hs, direction with
    | .clientHello ch, .clientToServer => mergeClientHello handshake (extractClientHello tp ch)
    | .serverHello sh, .serverToClient => mergeServerHello handshake (extractServerHello tp sh)
    | .certificate, .serverToClient =>
      -- A plaintext Certificate: the version is unknown or older than TLS 1.3.
      if handshake.tlsVersion.isNone || isTls12 handshake.tlsVersion then
        { handshake with stage := .serverCertificate }
      else handshake
    | .serverKeyExchange, _ => { handshake with stage := .serverKeyExchange }
    | .serverDone, _ => { handshake with stage := .serverHelloDone }
    | .clientKeyExchange, .clientToServer => { handshake with stage := .clientKeyExchange }
    | _, _ => handshake
  | .other => handshake

/-- The loop of `applyHandshakeRecord`: every turn parses one message, so a fuel of
`remaining.length` turns is never exhausted. -/
def applyHandshakeLoop (direction : Direction) : Nat → HandshakeInfo → Bytes → HandshakeInfo
  | 0, handshake, _ => handshake
  | fuel + 1, handshake, remaining =>
    if remaining.isEmpty then handshake
    else
      match tp.parseTlsMessageHandshake remaining with
      | .ok (rest, msg) =>
        applyHandshakeLoop direction fuel (applyHandshakeMessage tp direction handshake msg) rest
      | .error _ => handshake

/-- Apply the messages of a plaintext Handshake record, up to the first one that does not parse. -/
def applyHandshakeRecord (handshake : HandshakeInfo) (payload : Bytes) (direction : Direction) :
    HandshakeInfo :=
  applyHandshakeLoop tp direction payload.length handshake payload

end Messages

/-- The effect of a ChangeCipherSpec on the stage. -/
def applyCcs (handshake : HandshakeInfo) (direction : Direction) : HandshakeInfo :=
  match direction with
  | .clientToServer =>
    if handshake.stage = .clientKeyExchange then { handshake with stage := .clientFinished }
    else handshake
  | .serverToClient =>
    if handshake.stage = .clientFinished then { handshake with stage := .serverFinished }
    else handshake

/-- The effect of an ApplicationData record on the handshake and the encrypted-record counters. -/
def applyEncryptedRecord (conn : TrackedConnection) (direction : Direction) : TrackedConnection :=
  if isTls12 conn.state.handshake.tlsVersion then
    { conn with state.handshake.stage := .applicationData }
  else if direction = .serverToClient then
    let fromServer := conn.encryptedRecordsFromServer + 1
    let handshake := conn.state.handshake
    let handshake :=
      { handshake with
        stage :=
          if conn.sawClientFinishedMarker then .applicationData
          else if 1 ≤ fromServer ∧ fromServer ≤ 3 then .certificate
          else .serverFinished }
    let handshake :=
      if handshake.certificateSubject.isNone then
        { handshake with
          certificateSubject := some "encrypted (TLS 1.3)"
          certificateIssuer := some "encrypted (TLS 1.3)" }
      else handshake
    { conn with state.handshake := handshake, encryptedRecordsFromServer := fromServer }
  else if conn.encryptedRecordsFromServer > 0 then
    let fromClient := conn.encryptedRecordsFromClient + 1
    if !conn.sawClientFinishedMarker then
      { conn with
        state.handshake.stage := .clientFinished
        encryptedRecordsFromClient := fromClient
        sawClientFinishedMarker := true }
    else
      { conn with
        state.handshake.stage := .applicationData
        encryptedRecordsFromClient := fromClient }
  else conn

/-! ## The timeline -/

/-- The label of an ApplicationData record. -/
def encryptedFlightLabel (direction : Direction) (conn : TrackedConnection) (payloadLen : Nat) :
    String :=
  if isTls12 conn.state.handshake.tlsVersion then "application data"
  else
    match direction with
    | .serverToClient =>
      if conn.encryptedRecordsFromServer = 1 then
        if payloadLen < 200 then "likely EncryptedExtensions (server fragmented flight)"
        else if payloadLen < 800 then
          "likely EncryptedExtensions + Finished (resumed session, no Certificate)"
        else "likely EncryptedExtensions + Certificate + CertificateVerify + Finished"
      else if conn.encryptedRecordsFromServer = 2 then
        if payloadLen < 120 then "likely Finished only"
        else "likely Certificate + CertificateVerify + Finished (continued)"
      else "likely NewSessionTicket (post-handshake)"
    | .clientToServer =>
      if conn.encryptedRecordsFromServer = 0 then
        "likely 0-RTT early data (PSK session resumption)"
      else if conn.encryptedRecordsFromClient = 1 then
        if payloadLen < 120 then "likely Finished only (~53B = 32B verify_data + AEAD tag)"
        else "likely Certificate + CertificateVerify + Finished (client auth / mTLS)"
      else "encrypted application data"

/-- The label of a Handshake record after the ChangeCipherSpec of its direction. -/
def postCcsHandshakeLabel (direction : Direction) (conn : TrackedConnection) : String :=
  match direction with
  | .clientToServer =>
    if conn.postCcsRecordsFromClient = 0 then "encrypted Finished (client)"
    else "encrypted handshake (post-CCS)"
  | .serverToClient =>
    if conn.postCcsRecordsFromServer = 0 then "encrypted NewSessionTicket or Finished (server)"
    else if conn.postCcsRecordsFromServer = 1 then "encrypted Finished (server)"
    else "encrypted handshake (post-CCS)"

/-- The direction of a record event. -/
def toRecordDirection : Direction → RecordDirection
  | .clientToServer => .clientToServer
  | .serverToClient => .serverToClient

/-- The wire code of a record type. -/
def recordTypeByte : TlsRecordType → UInt8
  | .changeCipherSpec => 20
  | .alert => 21
  | .handshake => 22
  | .applicationData => 23
  | .other v => v

/-- Decode the payload of a plaintext Handshake record. -/
def decodeHandshakeBody (payload : Bytes) : DecodedHandshake :=
  match payload.head? with
  | none => .unknown 0 []
  | some msgType =>
    if msgType = 1 then
      match decodeClientHello payload with
      | .ok ch => .clientHello ch
      | .error _ => .unknown msgType payload
    else if msgType = 2 then
      match decodeServerHello payload with
      | .ok sh => if isHelloRetryRequest sh then .helloRetryRequest sh else .serverHello sh
      | .error _ => .unknown msgType payload
    else .unknown msgType payload

/-- The body of a record event. -/
def buildBody (record : TlsRecord) (direction : Direction) (conn : TrackedConnection) : RecordBody :=
  match record.recordType with
  | .handshake =>
    if conn.ccsSeen direction then
      .encryptedHandshake (postCcsHandshakeLabel direction conn)
        (record.payload.take CIPHERTEXT_PREVIEW_LEN)
    else .handshake (decodeHandshakeBody record.payload)
  | .applicationData =>
    .encryptedHandshake (encryptedFlightLabel direction conn record.payload.length)
      (record.payload.take CIPHERTEXT_PREVIEW_LEN)
  | .changeCipherSpec => .changeCipherSpec
  | _ => .encryptedHandshake "unknown record type" []

/-- `u16::try_from(n).unwrap_or(u16::MAX)`. -/
def u16OrMax (n : Nat) : UInt16 := if n < 65536 then UInt16.ofNat n else 65535

/-- `n.saturating_add(1)` for a `u32`. -/
def u32SaturatingSucc (n : UInt32) : UInt32 := if n = 4294967295 then n else n + 1

/-- The bytes of a record, rebuilt from its decoded header. -/
def rawRecord (record : TlsRecord) : Bytes :=
  recordTypeByte record.recordType :: (u16ToBe record.legacyVersion ++
    u16ToBe (u16OrMax record.payload.length) ++ record.payload)

/-- Append a record to the timeline, unless it is closed or full. -/
def pushRecordEvent (conn : TrackedConnection) (record : TlsRecord) (direction : Direction)
    (nowMs : UInt64) : TrackedConnection :=
  if conn.stopLogging || conn.state.records.length ≥ RECORD_LOG_CAP then conn
  else
    let conn := { conn with seqCounter := u32SaturatingSucc conn.seqCounter }
    let event : RecordEvent :=
      { direction := toRecordDirection direction
        timestampMs := nowMs
        sequence := conn.seqCounter
        outerType := record.recordType
        outerLength := u16OrMax record.payload.length
        raw := rawRecord record
        body := buildBody record direction conn }
    { conn with state.records := conn.state.records ++ [event] }

/-! ## Ingestion -/

section Ingest

variable (tp : TlsParser)

/-- The body of the record loop of `ingest`. -/
def processRecord (direction : Direction) (nowMs : UInt64) (conn : TrackedConnection)
    (record : TlsRecord) : TrackedConnection :=
  match record.recordType with
  | .handshake =>
    let postCcs := conn.ccsSeen direction
    let conn :=
      if !postCcs then
        { conn with
          state.handshake := applyHandshakeRecord tp conn.state.handshake record.payload direction }
      else conn
    let conn := pushRecordEvent conn record direction nowMs
    if postCcs then
      let conn :=
        match direction with
        | .clientToServer =>
          { conn with postCcsRecordsFromClient := conn.postCcsRecordsFromClient + 1 }
        | .serverToClient =>
          { conn with postCcsRecordsFromServer := conn.postCcsRecordsFromServer + 1 }
      if conn.clientCcsSeen && conn.serverCcsSeen then { conn with stopLogging := true } else conn
    else conn
  | .applicationData =>
    let conn := applyEncryptedRecord conn direction
    let conn := if conn.encryptedRecordsFromClient ≥ 2 then { conn with stopLogging := true } else conn
    let conn :=
      if conn.clientCcsSeen && conn.serverCcsSeen then { conn with stopLogging := true } else conn
    pushRecordEvent conn record direction nowMs
  | .changeCipherSpec =>
    let conn := { conn with state.handshake := applyCcs conn.state.handshake direction }
    let conn := conn.setCcsSeen direction
    pushRecordEvent conn record direction nowMs
  | .alert => conn
  | .other _ => conn

/-- The part of `ingest` that works on the connection itself: reassemble the payload and process the
records that it completes. -/
def TrackedConnection.ingest (conn : TrackedConnection) (direction : Direction) (payload : Bytes)
    (nowMs : UInt64) : TrackedConnection :=
  let conn := { conn with state.lastSeenMs := nowMs }
  if (conn.buf direction).length + payload.length > MAX_REASSEMBLY_BYTES then
    { conn with
      state.handshake.stage := .errored
      state.handshake.error :=
        some s!"reassembly buffer would exceed {MAX_REASSEMBLY_BYTES} bytes" }
  else
    let buf := conn.buf direction ++ payload
    match parseRecords buf with
    | .error err =>
      let conn :=
        { conn with
          state.handshake.stage := .errored
          state.handshake.error := some err.toString }
      conn.setBuf direction []
    | .ok (records, consumed) =>
      records.foldl (processRecord tp direction nowMs) (conn.setBuf direction (buf.drop consumed))

end Ingest

/-! ## The tracker -/

/-- The tracked connections by key. -/
abbrev ConnectionMap := AList fun _ : ConnectionKey => TrackedConnection

/-- `HashMap::retain`: keep the connections that satisfy `p`. -/
def ConnectionMap.retain (m : ConnectionMap) (p : TrackedConnection → Bool) : ConnectionMap where
  entries := m.entries.filter fun e => p e.2
  nodupKeys := m.nodupKeys.sublist List.filter_sublist

/-- The tracker, with a resolver of type `ρ`. -/
structure ConnectionTracker (ρ : Type) where
  connections : ConnectionMap
  /-- The idle timeout in milliseconds. -/
  staleTimeoutMs : UInt64
  resolver : ρ

/-- `a.saturating_sub(b)` for `u64`. -/
def u64SaturatingSub (a b : UInt64) : UInt64 := if a < b then 0 else a - b

namespace ConnectionTracker

variable {ρ : Type}

/-- An empty tracker with a custom idle timeout. -/
def withStaleTimeout (staleTimeoutMs : UInt64) (resolver : ρ) : ConnectionTracker ρ :=
  { connections := ∅, staleTimeoutMs, resolver }

/-- An empty tracker with a supplied resolver. -/
def withResolver (resolver : ρ) : ConnectionTracker ρ :=
  withStaleTimeout DEFAULT_STALE_TIMEOUT_MS resolver

/-- Ingest a TCP payload. Returns the new state of the connection, or `none` for an empty payload. -/
def ingest [OriginResolver ρ] (tp : TlsParser) (t : ConnectionTracker ρ) (key : ConnectionKey)
    (direction : Direction) (endpointA endpointB : SocketAddr) (payload : Bytes) (nowMs : UInt64) :
    Except Error (Option ConnectionState) × ConnectionTracker ρ :=
  if payload.isEmpty then (.ok none, t)
  else
    let (conn, resolver) :=
      match t.connections.lookup key with
      | some conn => (conn, t.resolver)
      | none =>
        let (origin, resolver) := OriginResolver.resolve t.resolver endpointA endpointB
        ({ TrackedConnection.new key nowMs with state.handshake.origin := some origin }, resolver)
    let conn := conn.ingest tp direction payload nowMs
    (.ok (some conn.state), { t with connections := t.connections.insert key conn, resolver })

/-- Whether `ingest` panics: the resolver is asked on the first payload of a connection, and its call
panics. -/
def ingestPanics [PanickingResolver ρ] (t : ConnectionTracker ρ) (key : ConnectionKey)
    (endpointA endpointB : SocketAddr) (payload : Bytes) : Bool :=
  !payload.isEmpty && (t.connections.lookup key).isNone &&
    !(PanickingResolver.tryResolve t.resolver endpointA endpointB).isOk

/-- Evict the connections that were not touched within the idle timeout. Returns the number of
connections removed. -/
def evictStale (t : ConnectionTracker ρ) (nowMs : UInt64) : Nat × ConnectionTracker ρ :=
  let before := t.connections.keys.length
  let cutoff := u64SaturatingSub nowMs t.staleTimeoutMs
  let connections := t.connections.retain fun c => c.state.lastSeenMs ≥ cutoff
  (before - connections.keys.length, { t with connections })

end ConnectionTracker

end SeeHandshake

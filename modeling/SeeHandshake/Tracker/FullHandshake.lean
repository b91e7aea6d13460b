import SeeHandshake.Parser.Handshake
import SeeHandshake.Tracker.Flights
import SeeHandshake.Tracker.Order

/-!
# Full handshakes before TLS 1.3

The records of a full handshake of TLS 1.0, 1.1 or 1.2 as they are on the wire: the plaintext messages
of each flight, grouped into records in any way, and encrypted records of any content.
-/

namespace SeeHandshake

/-- Handshake records of a direction that carry a sequence of messages, each record a group of whole
ones. -/
inductive Carries (tp : TlsParser) (direction : Direction) :
    List Sent → List TlsMessage → Prop where
  | nil : Carries tp direction [] []
  | cons {x : Sent} {xs : List Sent} {ms : List (Bytes × TlsMessage)} {msgs : List TlsMessage}
      (htype : x.type = .handshake) (hdir : x.direction = direction) (hms : tp.AreMessages ms)
      (hpayload : x.record.payload = messageBytes ms) (h : Carries tp direction xs msgs) :
      Carries tp direction (x :: xs) (ms.map Prod.snd ++ msgs)

/-- A message that may be left out. -/
def optional (present : Bool) (hs : TlsMessageHandshake) : List TlsMessage :=
  if present then [.handshake hs] else []

/-- The extensions of a block that are read, in order. -/
def parsedExtensions (tp : TlsParser) (ext : Option Bytes) : List TlsExtension :=
  match ext with
  | some extBytes => walkExtensions tp extBytes (fun read e => read ++ [e]) []
  | none => []

/-- A ServerHello that selects TLS 1.0, 1.1 or 1.2. -/
def TlsServerHelloContents.SelectsTls12 (tp : TlsParser) (sh : TlsServerHelloContents) : Prop :=
  sh.version ∈ [0x0301, 0x0302, 0x0303] ∧
    ∀ versions, TlsExtension.supportedVersions versions ∉ parsedExtensions tp sh.ext

/-- The flight of the server: ServerHello, Certificate, CertificateStatus, ServerKeyExchange,
CertificateRequest and ServerHelloDone. -/
def serverMessages (sh : TlsServerHelloContents) (status keyExchange request : Bool) :
    List TlsMessage :=
  [.handshake (.serverHello sh)] ++ ([.handshake .certificate] ++ (optional status .other ++
    (optional keyExchange .serverKeyExchange ++ (optional request .other ++
      [.handshake .serverDone]))))

/-- The flight of the client: Certificate, ClientKeyExchange and CertificateVerify. -/
def clientMessages (certificate verify : Bool) : List TlsMessage :=
  optional certificate .certificate ++ ([.handshake .clientKeyExchange] ++ optional verify .other)

/-- A record of a type from a direction. -/
structure Sent.Is (x : Sent) (direction : Direction) (type : TlsRecordType) : Prop where
  type : x.type = type
  direction : x.direction = direction

/-- A full handshake before TLS 1.3, and the application data after it. -/
structure FullHandshake (tp : TlsParser) where
  clientHello : List Sent
  serverFlight : List Sent
  clientFlight : List Sent
  clientCcs : Sent
  /-- The encrypted Finished of the client. -/
  clientFinished : Sent
  /-- A NewSessionTicket, which may be left out. -/
  ticket : List Sent
  serverCcs : Sent
  /-- The encrypted Finished of the server. -/
  serverFinished : Sent
  data : List Sent
  ch : TlsClientHelloContents
  sh : TlsServerHelloContents
  status : Bool
  keyExchange : Bool
  request : Bool
  certificate : Bool
  verify : Bool
  withTicket : Bool
  clientHello_carries : Carries tp .clientToServer clientHello [.handshake (.clientHello ch)]
  selectsTls12 : sh.SelectsTls12 tp
  serverFlight_carries :
    Carries tp .serverToClient serverFlight (serverMessages sh status keyExchange request)
  clientFlight_carries : Carries tp .clientToServer clientFlight (clientMessages certificate verify)
  clientCcs_is : clientCcs.Is .clientToServer .changeCipherSpec
  clientFinished_is : clientFinished.Is .clientToServer .handshake
  ticket_carries : Carries tp .serverToClient ticket (optional withTicket .other)
  serverCcs_is : serverCcs.Is .serverToClient .changeCipherSpec
  serverFinished_is : serverFinished.Is .serverToClient .handshake
  data_type : ∀ x ∈ data, x.type = .applicationData

/-- All records of the handshake, in the order in which they are sent. -/
def FullHandshake.records {tp : TlsParser} (h : FullHandshake tp) : List Sent :=
  h.clientHello ++ (h.serverFlight ++ (h.clientFlight ++ (h.clientCcs :: h.clientFinished ::
    (h.ticket ++ (h.serverCcs :: h.serverFinished :: h.data)))))

end SeeHandshake

import SeeHandshake.Tracker.Runs

/-!
# The labels of the encrypted flight

The table of `docs/tls13-visibility.md`: what the timeline says about an ApplicationData record, by its
direction, its position in the flight and its length.
-/

namespace SeeHandshake

/-- The label of the server's encrypted record at a position, counted from one. -/
def serverFlightLabel (position len : ℕ) : String :=
  if position = 1 then
    if len < 200 then "likely EncryptedExtensions (server fragmented flight)"
    else if len < 800 then "likely EncryptedExtensions + Finished (resumed session, no Certificate)"
    else "likely EncryptedExtensions + Certificate + CertificateVerify + Finished"
  else if position = 2 then
    if len < 120 then "likely Finished only"
    else "likely Certificate + CertificateVerify + Finished (continued)"
  else "likely NewSessionTicket (post-handshake)"

/-- The label of the client's encrypted records before the server's first one. -/
def earlyDataLabel : String := "likely 0-RTT early data (PSK session resumption)"

/-- The label of the client's first encrypted record after the server's first one. -/
def clientFinishedLabel (len : ℕ) : String :=
  if len < 120 then "likely Finished only (~53B = 32B verify_data + AEAD tag)"
  else "likely Certificate + CertificateVerify + Finished (client auth / mTLS)"

/-- The label of a record whose bytes are not decoded. -/
def RecordEvent.label? (e : RecordEvent) : Option String :=
  match e.body with
  | .encryptedHandshake inferredLabel _ => some inferredLabel
  | _ => none

/-- An ApplicationData event. -/
def RecordEvent.isData (e : RecordEvent) : Bool := e.outerType = .applicationData

/-- The ApplicationData events of a timeline. -/
def dataEvents (records : List RecordEvent) : List RecordEvent :=
  records.filter RecordEvent.isData

/-- The ApplicationData events of a direction. -/
def dataEventsFrom (records : List RecordEvent) (direction : RecordDirection) : List RecordEvent :=
  (dataEvents records).filter fun e => e.direction = direction

/-- The grammar of the encrypted flight: a timeline with `s` encrypted records of the server and, after
the first of them, `c` of the client. -/
inductive Flight : List RecordEvent → ℕ → ℕ → Prop where
  | nil : Flight [] 0 0
  /-- An event of another type, that does not claim to be bulk data. -/
  | other {es : List RecordEvent} {s c : ℕ} {e : RecordEvent} (h : Flight es s c)
      (htype : e.outerType ≠ .applicationData)
      (hlabel : e.label? ≠ some "encrypted application data") : Flight (es ++ [e]) s c
  | early {es : List RecordEvent} {e : RecordEvent} (h : Flight es 0 0)
      (htype : e.outerType = .applicationData) (hdir : e.direction = .clientToServer)
      (hlabel : e.label? = some earlyDataLabel) : Flight (es ++ [e]) 0 0
  | server {es : List RecordEvent} {s c : ℕ} {e : RecordEvent} (h : Flight es s c)
      (htype : e.outerType = .applicationData) (hdir : e.direction = .serverToClient)
      (hlabel : e.label? = some (serverFlightLabel (s + 1) e.outerLength.toNat)) :
      Flight (es ++ [e]) (s + 1) c
  | finished {es : List RecordEvent} {s : ℕ} {e : RecordEvent} (h : Flight es (s + 1) 0)
      (htype : e.outerType = .applicationData) (hdir : e.direction = .clientToServer)
      (hlabel : e.label? = some (clientFinishedLabel e.outerLength.toNat)) :
      Flight (es ++ [e]) (s + 1) 1

/-- At no record of the run is the connection known to be TLS 1.2 or older. -/
def NeverTls12 (tp : TlsParser) (conn : TrackedConnection) (segs : List Segment) : Prop :=
  ∀ pre seg post a b, segs = pre ++ seg :: post → (conn.run tp pre).framed seg = a ++ b →
    ¬ isTls12 ((conn.run tp pre).midway tp seg (a.map Prod.fst)).state.handshake.tlsVersion

end SeeHandshake

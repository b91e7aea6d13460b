import Mathlib.Data.List.TakeWhile
import SeeHandshake.Lib.Simulation
import SeeHandshake.Tracker.Runs

/-!
# Sequences of records

What a sequence of records of one connection looks like on the wire: which directions sent a
ChangeCipherSpec, and which encrypted records of the client follow the server's first one.
-/

namespace SeeHandshake

open Lib

/-- Whether a ChangeCipherSpec of the direction is among the records. -/
def ccsSent (xs : List Sent) (direction : Direction) : Bool :=
  xs.any fun x => x.type = .changeCipherSpec && x.direction = direction

/-- Whether a ChangeCipherSpec of both directions is among the records. -/
def bothCcsSent (xs : List Sent) : Bool :=
  ccsSent xs .clientToServer && ccsSent xs .serverToClient

/-- An ApplicationData record of a direction. -/
def Sent.isData (x : Sent) (direction : Direction) : Bool :=
  x.type = .applicationData && x.direction = direction

/-- The number of ApplicationData records of the client after the server's first one. -/
def clientFlight (xs : List Sent) : Nat :=
  ((xs.dropWhile fun x => !x.isData .serverToClient).filter (·.isData .clientToServer)).length

/-- Some Handshake or ApplicationData record comes after a ChangeCipherSpec of both directions. -/
def Overstepped (xs : List Sent) : Prop :=
  ∃ a y b, xs = a ++ y :: b ∧ bothCcsSent a ∧ (y.type = .handshake ∨ y.type = .applicationData)

/-- No handshake message can be read off the front of the payload. -/
def TlsParser.Unreadable (tp : TlsParser) (payload : Bytes) : Prop :=
  payload = [] ∨ ¬ (tp.parseTlsMessageHandshake payload).isOk

instance (tp : TlsParser) (payload : Bytes) : Decidable (tp.Unreadable payload) :=
  inferInstanceAs (Decidable (_ ∨ _))

/-- The next record does not meet one of the reactions to a ChangeCipherSpec: it is not a readable
Handshake record after the ChangeCipherSpec of its direction, and not a ChangeCipherSpec at the stage
that waits for it. -/
structure CcsInert (tp : TlsParser) (conn : TrackedConnection) (x : Sent) : Prop where
  handshake : x.type = .handshake → conn.ccsSeen x.direction → tp.Unreadable x.record.payload
  client : x.type = .changeCipherSpec → x.direction = .clientToServer →
    conn.state.handshake.stage ≠ .clientKeyExchange
  server : x.type = .changeCipherSpec → x.direction = .serverToClient →
    conn.state.handshake.stage ≠ .clientFinished

instance (tp : TlsParser) (conn : TrackedConnection) (x : Sent) : Decidable (CcsInert tp conn x) :=
  decidable_of_iff
    ((x.type = .handshake → conn.ccsSeen x.direction → tp.Unreadable x.record.payload) ∧
      (x.type = .changeCipherSpec → x.direction = .clientToServer →
        conn.state.handshake.stage ≠ .clientKeyExchange) ∧
      (x.type = .changeCipherSpec → x.direction = .serverToClient →
        conn.state.handshake.stage ≠ .clientFinished))
    ⟨fun ⟨h, c, s⟩ => ⟨h, c, s⟩, fun ⟨h, c, s⟩ => ⟨h, c, s⟩⟩

namespace TrackedConnection

/-- The connection after records that arrive whole. -/
def receive (tp : TlsParser) (conn : TrackedConnection) (xs : List Sent) : TrackedConnection :=
  conn.run tp (xs.map Sent.segment)

/-- A record that arrives whole is appended to the timeline. -/
def Logged (tp : TlsParser) (conn : TrackedConnection) (x : Sent) : Prop :=
  ∃ e : RecordEvent, (conn.receive tp [x]).state.records = conn.state.records ++ [e] ∧
    e.raw = x.record.encode

theorem receive_eq_foldl (tp : TlsParser) (conn : TrackedConnection) (xs : List Sent) :
    conn.receive tp xs = xs.foldl (fun c x => c.step tp x.segment) conn := List.foldl_map

theorem receive_append (tp : TlsParser) (conn : TrackedConnection) (xs ys : List Sent) :
    conn.receive tp (xs ++ ys) = (conn.receive tp xs).receive tp ys := by
  unfold receive
  rw [List.map_append, run_append]

end TrackedConnection

theorem ccsSent_concat (xs : List Sent) (x : Sent) (d : Direction) :
    ccsSent (xs ++ [x]) d =
      (ccsSent xs d || (decide (x.type = .changeCipherSpec) && decide (d = x.direction))) := by
  simp [ccsSent, List.any_append, eq_comm]

theorem clientFlight_concat (xs : List Sent) (x : Sent) :
    clientFlight (xs ++ [x]) = clientFlight xs +
      if xs.any (·.isData .serverToClient) && x.isData .clientToServer then 1 else 0 := by
  have hne : x.isData .clientToServer → ¬ x.isData .serverToClient := by
    unfold Sent.isData
    simp only [Bool.and_eq_true, decide_eq_true_eq, not_and, and_imp]
    intro _ hd _
    rw [hd]
    exact Direction.noConfusion
  unfold clientFlight
  rw [List.dropWhile_append]
  by_cases hany : xs.any (·.isData .serverToClient)
  · have hdrop : ¬ (xs.dropWhile fun x => !x.isData .serverToClient).isEmpty := by
      rw [List.isEmpty_iff, List.dropWhile_eq_nil_iff]
      simpa using hany
    rw [if_neg hdrop, List.filter_append, List.length_append, hany, Bool.true_and]
    cases hx : x.isData .clientToServer <;> simp [hx]
  · have hdrop : xs.dropWhile (fun x => !x.isData .serverToClient) = [] := by
      rw [List.dropWhile_eq_nil_iff]
      simpa using hany
    rw [hdrop, List.isEmpty_nil, if_pos rfl]
    cases hs : x.isData .serverToClient with
    | false => simp [hs, hany]
    | true =>
      have hc : x.isData .clientToServer = false := by
        by_contra hc
        exact hne (by simpa using hc) hs
      simp [hs, hc, hany]

theorem overstepped_concat (xs : List Sent) (x : Sent) :
    Overstepped (xs ++ [x]) ↔
      Overstepped xs ∨ (bothCcsSent xs ∧ (x.type = .handshake ∨ x.type = .applicationData)) :=
  exists_split_concat

end SeeHandshake

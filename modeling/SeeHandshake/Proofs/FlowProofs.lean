import Mathlib.Data.Sym.Sym2
import SeeHandshake.Proofs.EndpointProofs

/-!
# Proofs: one key for each flow

The key of a flow stands for the unordered pair of its endpoints, and together with the direction that
the tracker thread derives it stands for the ordered pair of source and destination.
-/

namespace SeeHandshake

section Flow

variable {a b c d : SocketAddr}

theorem SocketAddr.flow_symm (a b : SocketAddr) : a.flow b = b.flow a := by
  by_cases hab : a = b
  · rw [hab]
  · exact (flow_comm hab).symm

/-- The key names the endpoint that does not come first as the server. -/
theorem SocketAddr.server_flow (a b : SocketAddr) :
    (a.flow b).server = if ClientFirst a b then b else a := by
  rw [flow_eq]
  split_ifs <;> rfl

/-- The key names the two endpoints, in some order. -/
theorem SocketAddr.endpoints_flow (a b : SocketAddr) :
    ((a.flow b).client = a ∧ (a.flow b).server = b) ∨
      ((a.flow b).client = b ∧ (a.flow b).server = a) := by
  rw [client_flow, server_flow]
  split_ifs
  · exact Or.inl ⟨rfl, rfl⟩
  · exact Or.inr ⟨rfl, rfl⟩

/-- The unordered pair of the endpoints can be read off the key. -/
theorem SocketAddr.pair_flow (a b : SocketAddr) :
    s((a.flow b).client, (a.flow b).server) = s(a, b) := by
  rcases endpoints_flow a b with ⟨hclient, hserver⟩ | ⟨hclient, hserver⟩
  · rw [hclient, hserver]
  · rw [hclient, hserver, Sym2.eq_swap]

/-- Two flows have the same key iff they have the same endpoints. -/
theorem SocketAddr.flow_eq_flow_iff : a.flow b = c.flow d ↔ s(a, b) = s(c, d) := by
  constructor
  · intro h
    rw [← pair_flow a b, h, pair_flow]
  · intro h
    rcases Sym2.eq_iff.mp h with ⟨rfl, rfl⟩ | ⟨rfl, rfl⟩
    · rfl
    · exact flow_symm a b

/-- An endpoint is the server of the flow if its port, and not the other one, is a server port. -/
theorem SocketAddr.server_flow_of_port (ha : ¬ isTlsServerPort a.port)
    (hb : isTlsServerPort b.port) : (a.flow b).server = b := by
  have hfirst : ClientFirst a b := Or.inl ⟨ha, hb⟩
  rw [server_flow, if_pos hfirst]

end Flow

/-! ## Directions -/

section Direction

variable {a b c d : SocketAddr} {payload payload' : Bytes}

/-- The direction of a segment says whether its source is the client of its flow. -/
theorem direction_sends (a b : SocketAddr) (payload : Bytes) :
    (a.sends b payload).direction =
      if (a.flow b).client = a then .clientToServer else .serverToClient := by
  unfold TcpSegment.direction
  refine if_congr ?_ rfl rfl
  show (a.ip, a.port) = ((a.flow b).clientIp, (a.flow b).clientPort) ↔ (a.flow b).client = a
  constructor
  · intro h
    obtain ⟨hip, hport⟩ := Prod.mk.inj h
    unfold ConnectionKey.client
    rw [← hip, ← hport]
  · intro h
    nth_rewrite 1 2 [← h]
    rfl

/-- The two directions of a flow are opposite. -/
theorem direction_flip (h : a ≠ b) (payload payload' : Bytes) :
    (b.sends a payload').direction = (a.sends b payload).direction.flip := by
  rw [direction_sends, direction_sends, SocketAddr.flow_symm b a]
  rcases SocketAddr.endpoints_flow a b with ⟨hclient, -⟩ | ⟨hclient, -⟩
  · rw [hclient, if_neg h, if_pos rfl]
    rfl
  · rw [hclient, if_pos rfl, if_neg h.symm]
    rfl

/-- A key and a direction stand for a source and a destination. -/
theorem sends_inj :
    (a.flow b = c.flow d ∧ (a.sends b payload).direction = (c.sends d payload').direction) ↔
      a = c ∧ b = d := by
  constructor
  · rintro ⟨hkey, hdirection⟩
    rcases Sym2.eq_iff.mp (SocketAddr.flow_eq_flow_iff.mp hkey) with ⟨hac, hbd⟩ | ⟨had, hbc⟩
    · exact ⟨hac, hbd⟩
    · -- The same two endpoints the other way round: then they are one.
      subst had hbc
      by_cases hab : a = b
      · exact ⟨hab, hab.symm⟩
      · rw [direction_flip hab payload payload'] at hdirection
        cases hd : (a.sends b payload).direction <;> rw [hd] at hdirection <;> cases hdirection
  · rintro ⟨rfl, rfl⟩
    exact ⟨rfl, by rw [direction_sends, direction_sends]⟩

end Direction

/-- Flow keys stand for unordered pairs of endpoints, a single server port makes the server, and the
directions that the tracker thread derives for the two ways between different endpoints are opposite.
So a segment of one flow writes neither the buffer of the other way nor the connection of another
flow. -/
theorem flows_canonical {ρ : Type} [OriginResolver ρ] (tp : TlsParser) (t : ConnectionTracker ρ)
    (a b c d : SocketAddr) (payload payload' : Bytes) (nowMs : UInt64) :
    let key := ConnectionKey.canonical a.ip a.port b.ip b.port
    let there := a.sends b payload
    let back := b.sends a payload'
    key = ConnectionKey.canonical b.ip b.port a.ip a.port ∧
    ((key.client = a ∧ key.server = b) ∨ (key.client = b ∧ key.server = a)) ∧
    (key = ConnectionKey.canonical c.ip c.port d.ip d.port ↔ s(a, b) = s(c, d)) ∧
    (isTlsServerPort b.port → ¬ isTlsServerPort a.port → key.server = b) ∧
    (isTlsServerPort a.port → ¬ isTlsServerPort b.port → key.server = a) ∧
    (a ≠ b → back.direction = there.direction.flip ∧
      (t.call tp (there.call nowMs)).buffered key back.direction =
        t.buffered key back.direction) ∧
    (s(a, b) ≠ s(c, d) →
      (t.call tp (there.call nowMs)).connections.lookup
          (ConnectionKey.canonical c.ip c.port d.ip d.port) =
        t.connections.lookup (ConnectionKey.canonical c.ip c.port d.ip d.port)) := by
  intro key there back
  refine ⟨SocketAddr.flow_symm a b, SocketAddr.endpoints_flow a b, SocketAddr.flow_eq_flow_iff,
    ?_, ?_, ?_, ?_⟩
  · intro hb ha
    exact SocketAddr.server_flow_of_port ha hb
  · intro ha hb
    rw [show key = b.flow a from SocketAddr.flow_symm a b]
    exact SocketAddr.server_flow_of_port hb ha
  · intro hab
    refine ⟨direction_flip hab payload payload', ConnectionTracker.buffered_call tp t ?_⟩
    rintro ⟨-, hdirection⟩
    have hsame := (sends_inj (a := b) (b := a) (c := a) (d := b)).mp
      ⟨SocketAddr.flow_symm b a, hdirection⟩
    exact hab hsame.2
  · intro hpairs
    by_cases hne : payload = []
    · rw [ConnectionTracker.call_of_nil hne]
    · rw [ConnectionTracker.lookup_call hne, if_neg]
      intro hkey
      exact hpairs (SocketAddr.flow_eq_flow_iff.mp hkey.symm)

/-- Two server ports on one host, and a flow of the same ports between hosts of the two families. -/
theorem flows_canonical_both_server_ports :
    let a : SocketAddr := ⟨.v4 10 0 0 1, 443⟩
    let b : SocketAddr := ⟨.v4 10 0 0 1, 8443⟩
    let c : SocketAddr := ⟨.v6 ⟨List.replicate 16 0, rfl⟩, 443⟩
    let t := ConnectionTracker.withResolver (FixedResolver.mk .unknown)
    (b.sends a [22, 3]).direction = (a.sends b [22]).direction.flip ∧
      (t.call Reference.parser ((a.sends b [22]).call 0)).connections.lookup (c.flow b) = none ∧
      (⟨.v4 10 0 0 1, 5000⟩ : SocketAddr).flow c = c.flow ⟨.v4 10 0 0 1, 5000⟩ ∧
      ((⟨.v4 10 0 0 1, 5000⟩ : SocketAddr).flow c).server = c := by
  intro a b c t
  obtain ⟨-, -, -, -, -, hdirections, hlookup⟩ :=
    flows_canonical Reference.parser t a b c b [22] [22, 3] 0
  obtain ⟨hsymm, -, -, hserver, -⟩ :=
    flows_canonical Reference.parser t ⟨.v4 10 0 0 1, 5000⟩ c c b [] [] 0
  refine ⟨(hdirections (by decide)).1, ?_, hsymm, hserver (by decide) (by decide)⟩
  refine (hlookup ?_).trans rfl
  intro hpairs
  rcases Sym2.eq_iff.mp hpairs with ⟨hac, -⟩ | ⟨hab, -⟩
  · exact absurd hac (by decide)
  · exact absurd hab (by decide)

end SeeHandshake

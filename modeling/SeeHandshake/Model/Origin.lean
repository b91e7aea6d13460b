import SeeHandshake.Bytes
import SeeHandshake.Lib.Checked

/-!
# Endpoints and their owners

Socket addresses, and the answers of the per-connection process attribution (`origin/mod.rs`).
-/

namespace SeeHandshake

open Lib

/-- An IP address, by its octets in network order. -/
inductive IpAddr where
  | v4 (a b c d : UInt8)
  | v6 (octets : { bytes : Bytes // bytes.length = 16 })
  deriving DecidableEq, Repr

/-- A TCP endpoint. -/
structure SocketAddr where
  ip : IpAddr
  port : UInt16
  deriving DecidableEq, Repr

/-- A local process that owns a socket. -/
structure ProcessOrigin where
  pid : UInt32
  comm : String
  /-- The full command line, truncated. -/
  cmdline : String
  uid : UInt32
  deriving DecidableEq, Repr

/-- The outcome of an attribution. -/
inductive Origin where
  /-- The socket is owned by a readable process on this machine. -/
  | localProcess (p : ProcessOrigin)
  /-- The socket exists but its owner is another user. -/
  | otherUser (uid : UInt32)
  /-- No matching socket was found. -/
  | unknown
  /-- This operating system has no resolver. -/
  | unsupported
  deriving DecidableEq, Repr

/-- A resolver with state `ρ`: it attributes the flow between two endpoints, given in either order. What its
calls find on the machine is in the state; these are its answers where they return. -/
class OriginResolver (ρ : Type) where
  resolve : ρ → SocketAddr → SocketAddr → Origin × ρ

/-- A resolver whose calls may panic. -/
class PanickingResolver (ρ : Type) extends OriginResolver ρ where
  tryResolve : ρ → SocketAddr → SocketAddr → Panicking (Origin × ρ)
  resolve_eq : ∀ r a b answer, tryResolve r a b = .ok answer → resolve r a b = answer

/-- A resolver that always returns the same scripted answer. -/
structure FixedResolver where
  answer : Origin

instance : OriginResolver FixedResolver where
  resolve r _ _ := (r.answer, r)

instance : PanickingResolver FixedResolver where
  toOriginResolver := inferInstance
  tryResolve r _ _ := .ok (r.answer, r)
  resolve_eq _ _ _ _ h := Except.ok.inj h

/-- The resolver of an operating system that has none. -/
structure NullOriginResolver

instance : OriginResolver NullOriginResolver where
  resolve r _ _ := (.unsupported, r)

instance : PanickingResolver NullOriginResolver where
  toOriginResolver := inferInstance
  tryResolve r _ _ := .ok (.unsupported, r)
  resolve_eq _ _ _ _ h := Except.ok.inj h

end SeeHandshake

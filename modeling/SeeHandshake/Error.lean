import Mathlib.Init

/-!
# Errors

The crate-wide error type (`error.rs`), less its transparent I/O variant, which no modelled function
returns.
-/

namespace SeeHandshake

/-- The error type of the library. -/
inductive Error where
  /-- A packet-capture backend reported an error. -/
  | capture (msg : String)
  /-- The parser could not decode a byte buffer. -/
  | parse (msg : String)
  /-- A tracker-level invariant was violated. -/
  | tracker (msg : String)
  /-- A terminal operation failed. -/
  | ui (msg : String)
  /-- The user supplied an invalid configuration. -/
  | config (msg : String)
  deriving DecidableEq, Repr

/-- The displayed text of an error. -/
def Error.toString : Error → String
  | .capture msg => "packet capture error: " ++ msg
  | .parse msg => "TLS parse error: " ++ msg
  | .tracker msg => "connection tracking error: " ++ msg
  | .ui msg => "UI error: " ++ msg
  | .config msg => "configuration error: " ++ msg

end SeeHandshake

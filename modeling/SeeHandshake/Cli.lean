import SeeHandshake.Capture.Live
import SeeHandshake.Ui.App

/-!
# The command line

`cli.rs`, `main.rs` and the exit codes of `error.rs`: what is run, and what the process prints and
exits with.
-/

namespace SeeHandshake

namespace Error

/-- Whether a capture failed for want of privileges, as far as the text of libpcap tells. -/
def isPermissionDenied : Error → Bool
  | .capture msg => strContains msg "permission" || strContains msg "Operation not permitted" ||
      strContains msg "Permission denied"
  | _ => false

/-- The exit code of the process for an error. -/
def exitCode (e : Error) : UInt8 :=
  if e.isPermissionDenied then 77
  else
    match e with
    | .parse _ => 65
    | .config _ => 78
    | _ => 1

end Error

/-- The hint that follows an error for want of privileges, on Linux. -/
def permissionDeniedHint : String :=
  "hint: live capture needs raw-socket privileges. Grant them once with:\n  sudo setcap " ++
  "cap_net_raw,cap_net_admin=eip $(command -v seehandshake)\nthen re-run. Re-apply setcap after " ++
  "every upgrade, since capabilities live on the inode and are cleared when the binary is replaced."

/-- The parsed command line, less the log level. -/
structure Args where
  interface : Option String := none
  listInterfaces : Bool := false
  bpf : String := "tcp port 443"
  deriving DecidableEq, Repr

/-- An error with the context that was attached to it. -/
structure ContextError where
  context : String
  error : Error
  deriving DecidableEq, Repr

/-- The text of the error and its cause on one line. -/
def ContextError.toString (e : ContextError) : String := e.context ++ ": " ++ e.error.toString

/-- What the process leaves behind. -/
structure Exit where
  code : UInt8
  /-- The lines of the standard output. -/
  stdout : List String := []
  /-- The lines of the standard error. -/
  stderr : List String := []
  deriving DecidableEq, Repr

/-- Print the interfaces. -/
def printInterfaces (devices : Except String (List PcapDevice)) :
    Except ContextError (List String) := do
  let interfaces ← (listInterfaces devices).mapError (ContextError.mk "enumerating network interfaces")
  return interfaces.map fun iface => iface.name ++ "\t" ++ iface.description.getD ""

/-- Run the subcommand. `live` is the result of `run_live`. -/
def Args.run (args : Args) (devices : Except String (List PcapDevice)) (live : Except Error Unit) :
    Except ContextError (List String) :=
  if args.listInterfaces then printInterfaces devices
  else (live.map fun _ => []).mapError (ContextError.mk "running the terminal UI")

/-- The entry point. `logging` is the result of setting up the log. -/
def Args.main (args : Args) (logging : Except String Unit)
    (devices : Except String (List PcapDevice)) (live : Except Error Unit) : Exit :=
  match logging with
  | .error e =>
    { code := 1, stderr := ["seehandshake: failed to initialize logging: " ++ e] }
  | .ok () =>
    match args.run devices live with
    | .ok stdout => { code := 0, stdout }
    | .error err =>
      { code := err.error.exitCode
        stderr := ("seehandshake: " ++ err.toString) ::
          if err.error.isPermissionDenied then [permissionDeniedHint] else [] }

end SeeHandshake

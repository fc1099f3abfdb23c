/-
Faults of the bridge: what can go wrong, the class of error that a script sees, and the message.
-/
import ScriptHost.Gate.Service
import ScriptHost.Json.Number

namespace ScriptHost

/-- The class of error as which a fault reaches a script. -/
inductive FaultKind where
  | reference
  | type
  | range
  | internal
  deriving DecidableEq, Repr

inductive Fault where
  /-- A measure names a mark that nobody recorded. -/
  | markNotFound (operation mark : String)
  | typeFault (message : String)
  | rangeFault (message : String)
  | contextDisposed (context : ContextId)
  /-- The registry holds as many contexts as it may. -/
  | contextLimit (max : Nat)
  /-- A service was registered after the host thread was captured. -/
  | registrationClosed (service : Service)
  | alreadyCaptured
  /-- A configuration could not be read. -/
  | config (reason : Json.ReadError)
  deriving DecidableEq, Repr

namespace Fault

def kind : Fault → FaultKind
  | markNotFound .. => .reference
  | typeFault _ | config _ => .type
  | rangeFault _ | contextLimit _ => .range
  | contextDisposed _ | registrationClosed _ | alreadyCaptured => .internal

def message : Fault → String
  | markNotFound operation mark =>
    "Failed to execute '" ++ operation ++ "' on 'Performance': The mark " ++ mark ++
      " does not exist."
  | typeFault m | rangeFault m => m
  | contextDisposed id => "execution context " ++ toString id ++ " has been disposed"
  | contextLimit n => "execution context limit of " ++ toString n ++ " reached"
  | registrationClosed s =>
    "cannot register host service '" ++ s.name ++ "' after the host thread was captured"
  | alreadyCaptured => "host thread already captured"
  | config _ => "invalid bridge config"

/-- How a failure of an operation of an interface begins. -/
def failedTo (operation interface : String) : String :=
  "Failed to execute '" ++ operation ++ "' on '" ++ interface ++ "': "

/-- An operation was called without the argument that it needs. -/
def missingArgument (operation interface : String) : Fault :=
  .typeFault (failedTo operation interface ++ "1 argument required, but only 0 present.")

end Fault
end ScriptHost

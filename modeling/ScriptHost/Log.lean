/-
The log: what the library reports about its own working, with level, message and fields.
-/
import ScriptHost.Command.Basic
import ScriptHost.Fault

namespace ScriptHost

inductive Level where
  | trace
  | debug
  | info
  | warn
  | error
  deriving DecidableEq

def Level.name : Level → String
  | trace => "TRACE"
  | debug => "DEBUG"
  | info => "INFO"
  | warn => "WARN"
  | error => "ERROR"

inductive Log where
  | commandAppended (context : ContextId) (kind : CommandKind) (target : Int)
  | commandRefused (context : ContextId) (kind : CommandKind) (target : Int)
  | queueDrained (context : ContextId) (count : Nat)
  | contextCreated (context : ContextId)
  | contextDisposed (context : ContextId)
  | contextLimitReached (max : Nat)
  | scriptError (context : ContextId) (message : String)
  | registrationRefused (service : Service)
  | serviceReplaced (service : Service)
  | serviceMissing (service : Service)
  | hostCaptured (services : Nat)
  | listenerRegistered (context : ContextId) (listener : Nat)
  | payloadMalformed
  | eventDispatched (context : ContextId) (module : String) (delivered failed : Nat)
  | summarySkipped (measure : String) (fault : Fault)
  | bindingsInstalled (context : ContextId)
  | invokingModule (context : ContextId) (module method : String)
  deriving DecidableEq

namespace Log

def level : Log → Level
  | commandAppended .. => .trace
  | commandRefused .. | scriptError .. | registrationRefused _ => .error
  | contextLimitReached _ | payloadMalformed => .warn
  | hostCaptured _ => .info
  | _ => .debug

def message : Log → String
  | commandAppended .. => "command appended"
  | commandRefused .. => "command appended after context teardown"
  | queueDrained .. => "command queue drained"
  | contextCreated _ => "execution context created"
  | contextDisposed _ => "execution context disposed"
  | contextLimitReached _ => "execution context limit reached"
  | scriptError _ m => "script error: " ++ m
  | registrationRefused _ => "host service registered after capture"
  | serviceReplaced _ => "host service replaced"
  | serviceMissing _ => "host service not registered"
  | hostCaptured _ => "host thread captured"
  | listenerRegistered .. => "module listener registered"
  | payloadMalformed => "malformed module event payload, passing null"
  | eventDispatched .. => "module event dispatched"
  | summarySkipped _ fault => "summary skipped: " ++ fault.message
  | bindingsInstalled _ => "script bindings installed"
  | invokingModule .. => "invoking host module"

/-- The fields of a record, as text. -/
def fields : Log → List (String × String)
  | commandAppended c k t | commandRefused c k t =>
    [("context", toString c), ("kind", k.name), ("target_id", toString t)]
  | queueDrained c n => [("context", toString c), ("count", toString n)]
  | contextCreated c | contextDisposed c | bindingsInstalled c | scriptError c _ =>
    [("context", toString c)]
  | contextLimitReached n => [("max", toString n)]
  | registrationRefused s | serviceReplaced s | serviceMissing s => [("service", s.name)]
  | hostCaptured n => [("services", toString n)]
  | listenerRegistered c l => [("context", toString c), ("listener", toString l)]
  | payloadMalformed => []
  | eventDispatched c m d f =>
    [("context", toString c), ("module", m), ("delivered", toString d), ("failed", toString f)]
  | summarySkipped m _ => [("measure", m)]
  | invokingModule c m method => [("context", toString c), ("module", m), ("method", method)]

end Log
end ScriptHost

/-
Host services: the entry points that a host offers, what is passed to them and what they reply.
-/
import ScriptHost.Binary64.Basic

namespace ScriptHost

/-- Identifies an execution context to the host and the renderer. -/
abbrev ContextId := Int

/-- The entry points that are known, in their declared order. -/
inductive Service where
  | invokeModule
  | requestBatchUpdate
  | reloadApp
  | devicePixelRatio
  | platformBrightness
  | onJsError
  | flushUICommand
  deriving DecidableEq, Inhabited, Repr

namespace Service

def all : List Service :=
  [invokeModule, requestBatchUpdate, reloadApp, devicePixelRatio, platformBrightness, onJsError,
    flushUICommand]

def name : Service → String
  | invokeModule => "invokeModule"
  | requestBatchUpdate => "requestBatchUpdate"
  | reloadApp => "reloadApp"
  | devicePixelRatio => "devicePixelRatio"
  | platformBrightness => "platformBrightness"
  | onJsError => "onJsError"
  | flushUICommand => "flushUICommand"

/-- How a service is called in a description of a service table. -/
def label : Service → String
  | invokeModule => "InvokeModule"
  | requestBatchUpdate => "RequestBatchUpdate"
  | reloadApp => "ReloadApp"
  | devicePixelRatio => "DevicePixelRatio"
  | platformBrightness => "PlatformBrightness"
  | onJsError => "OnJsError"
  | flushUICommand => "FlushUiCommand"

def ofName? (s : String) : Option Service := all.find? (·.name = s)

end Service

/-- An argument of a service. -/
inductive Arg where
  | int (i : Int)
  | float (x : Binary64)
  | text (s : String)
  deriving DecidableEq, Inhabited

/-- What a service replies. -/
inductive Reply where
  | void
  | int (i : Int)
  | float (x : Binary64)
  | text (s : String)
  deriving DecidableEq, Inhabited

namespace Reply

/-- Only a text counts as a text. -/
def text? : Reply → Option String
  | text s => some s
  | _ => none

/-- A ratio may come as a float or as an integer. -/
def ratio? : Reply → Option Binary64
  | float x => some x
  | int i => some (Binary64.ofInt i)
  | _ => none

end Reply
end ScriptHost

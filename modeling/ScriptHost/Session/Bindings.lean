/-
The functions that a script runtime installs.

`performance` offers the timeline of the context, `__bridge__` the module listeners, the modules
of the host and the command queue.  Arguments are brought into shape one after the other, from the
left, and the first that does not fit ends the call with a thrown error.
-/
import ScriptHost.Session.Styles
import ScriptHost.Script.Conversion
import ScriptHost.Script.Standard
import ScriptHost.Text.Clipped

namespace ScriptHost.Session

open Script (Value Binding Invoke Callable)

/-- What a script does: it may throw. -/
abbrev ScriptM := ExceptT Value SessionM

/-- A runtime, as its functions see it. -/
structure Realm where
  perform : Performer
  runtime : Nat
  context : Context
  call : Invoke SessionM
  /-- Bounds the nesting of values that are written as JSON. -/
  depth : Nat

namespace Realm

/-! ### Errors -/

def errorClass : FaultKind → String
  | .reference => "ReferenceError"
  | .type => "TypeError"
  | .range => "RangeError"
  | .internal => "InternalError"

/-- A fault as a script catches it. -/
def thrown (f : Fault) : Value := .error (errorClass f.kind) (Text.clip f.message)

def throwFault {α : Type} (f : Fault) : ScriptM α := throw (thrown f)

/-- Goes on with the result of an operation of the library. -/
def orThrow {α : Type} : Except Fault α → ScriptM α
  | .ok a => return a
  | .error f => throwFault f

/-! ### Arguments -/

variable (r : Realm)

/-- The text of an argument; absent, null and undefined ones have none. -/
def text? (v : Option Value) : ScriptM (Option String) :=
  match v with
  | none => return none
  | some v => if v.isNullish then return none else return some (← Script.toText r.call v)

/-- The name of an entry, which has to be there. -/
def entryName (args : List Value) (operation : String) : ScriptM String :=
  if args.isEmpty then throwFault (.missingArgument operation "Performance")
  else return (← r.text? args[0]?).getD "undefined"

/-- The target of a command: a number, cut to a signed 64-bit word. -/
def targetId (args : List Value) (operation : String) : ScriptM Int :=
  match args[0]?.bind Value.number? with
  | some x => return x.truncate (-9223372036854775808) 9223372036854775807
  | none => throwFault (.missingArgument operation "UICommand")

/-- A text argument of a command, which has to be there. -/
def requiredText (v : Option Value) (operation : String) : ScriptM String := do
  match ← r.text? v with
  | some text => return text
  | none => throwFault (.missingArgument operation "UICommand")

/-! ### The timeline -/

def entryValue (e : Entry) : Value := .ofJson (.object e.members)

def entryValues (es : List Entry) : Value := .array (es.map entryValue)

def snapshot : ScriptM Value := do
  let now ← nowOf r.context.timeline
  let origin := (← timelineAt r.context.timeline).origin
  return .ofJson (.object [("now", .ofReal now), ("timeOrigin", .ofReal origin)])

def mark (args : List Value) : ScriptM Value := do
  let name ← r.entryName args "mark"
  let start := args[1]?.bind Value.number?
  return entryValue (← markTimeline r.context.timeline name start)

def measure (args : List Value) : ScriptM Value := do
  let name ← r.entryName args "measure"
  let start ← r.text? args[1]?
  let finish ← r.text? args[2]?
  return entryValue (← orThrow (← measureTimeline r.context.timeline name start finish))

def clear (type : EntryType) (args : List Value) : ScriptM Value := do
  let name ← r.text? args[0]?
  clearTimeline r.context.timeline type name
  return .undefined

def getEntries : ScriptM Value := do
  return entryValues (← mergedEntries r.context.timeline)

def getEntriesByName (args : List Value) : ScriptM Value := do
  let name ← r.entryName args "getEntriesByName"
  return entryValues (Timeline.named name (← mergedEntries r.context.timeline))

/-- An unknown type has no entries, and the timing source is not asked for it. -/
def getEntriesByType (args : List Value) : ScriptM Value := do
  let type ← r.entryName args "getEntriesByType"
  match EntryType.ofName? type with
  | some type => return entryValues (Timeline.typed type (← mergedEntries r.context.timeline))
  | none => return entryValues []

/-! ### Modules -/

def rosterAt (runtime : Nat) : SessionM (Roster Callable) := do
  return ((← get).runtimes[runtime]?.getD default).roster

def setRoster (runtime : Nat) (roster : Roster Callable) : SessionM Unit :=
  modifyRuntime runtime fun r => { r with roster }

def notAFunction : Fault :=
  .typeFault (Fault.failedTo "addModuleListener" "ModuleManager" ++
    "parameter 1 is not a function.")

def addModuleListener (args : List Value) : ScriptM Value :=
  match args with
  | [] => throwFault (.missingArgument "addModuleListener" "ModuleManager")
  | v :: _ =>
    match v.callable? with
    | none => throwFault notAFunction
    | some f => do
      let (handle, roster) := (← rosterAt r.runtime).register f
      setRoster r.runtime roster
      log (.listenerRegistered r.context.id handle)
      return .ofNat handle

/-- The greatest 64-bit word. -/
def greatestWord : Nat := Nat.pow 2 64 - 1

/-- The handle that a script means by a number.  It means none by one that is not finite, is below
zero, has something after the point or is beyond all words; any other number is made a word. -/
def handleOf? (x : Binary64) : Option Handle :=
  if ¬ x.isFinite ∨ x.lt .zero ∨ ¬ x.isWhole ∨ (Binary64.ofNat greatestWord).lt x then none
  else some (x.truncate 0 greatestWord).toNat

/-- Removes the listener that a script means by a number, if there is one. -/
def unregisterExact {L : Type} (roster : Roster L) (x : Binary64) : Bool × Roster L :=
  match handleOf? x with
  | some handle => roster.unregister handle
  | none => (false, roster)

def removeModuleListener (args : List Value) : ScriptM Value :=
  match args[0]?.bind Value.number? with
  | none => throwFault (.missingArgument "removeModuleListener" "ModuleManager")
  | some x => do
    let (found, roster) := unregisterExact (← rosterAt r.runtime) x
    setRoster r.runtime roster
    return .bool found

def tooFewArguments (present : Nat) : Fault :=
  .typeFault (Fault.failedTo "invokeModule" "ModuleManager" ++
    "2 arguments required, but only " ++ toString present ++ " present.")

/-- The parameters of a module call: a text as it is, anything else as its JSON text. -/
def moduleParams (v : Option Value) : ScriptM (Option String) :=
  match v with
  | none => return none
  | some (.text s) => return some s
  | some v => if v.isNullish then return none else Script.stringify r.call r.depth "" v

def invokeModule (args : List Value) : ScriptM Value := do
  if args.length < 2 then throwFault (tooFewArguments args.length)
  else
    let module := (← r.text? args[0]?).getD ""
    let method := (← r.text? args[1]?).getD ""
    let params ← r.moduleParams args[2]?
    log (.invokingModule r.context.id module method)
    let set ← services r.context.gate
    match ← invokeHostModule r.perform set r.context.id module method params with
    | some reply => return .text reply
    | none => return .null

/-! ### Commands -/

/-- The declaration of a target; a new one is made on first use. -/
def styleOf (runtime : Nat) (target : Int) : SessionM StyleId := do
  match ((← get).runtimes[runtime]?.getD default).styles.lookup target with
  | some style => return style
  | none =>
    let style ← holding Holdings.newStyle
    modifyRuntime runtime fun r => { r with styles := (target, style) :: r.styles }
    return style

/-- Sets a property of a target; an empty value removes it. -/
def setStyle (args : List Value) : ScriptM Value := do
  let target ← targetId args "setStyle"
  let name ← r.requiredText args[1]? "setStyle"
  let value := (← r.text? args[2]?).getD ""
  let d := declaration r.context (← styleOf r.runtime target) target
  if value = "" then
    let old ← orThrow (← removeProperty r.perform r.context d name)
    changeHoldings fun h => h.letGo old
  else orThrow (← setProperty r.perform r.context d name value)
  return .undefined

/-- Does something while the atom of a text is held. -/
def holdingAtom {α : Type} (text : String) (act : ScriptM α) : ScriptM α :=
  ExceptT.mk do
    let atom ← holding fun h => h.take r.context.table text
    let outcome ← act.run
    changeHoldings fun h => h.letGo atom
    return outcome

/-- Appends a command about an attribute.  Its name is interned, and held as long as the command
is under way. -/
def appendAttribute (kind : CommandKind) (operation : String) (args : List Value)
    (value : ScriptM (Option String)) : ScriptM Value := do
  let target ← targetId args operation
  let name ← r.requiredText args[1]? operation
  r.holdingAtom name do
    let value ← value
    orThrow (← appendCommand r.perform r.context.queue (.make target kind (some name) value none))
    return .undefined

def setAttribute (args : List Value) : ScriptM Value :=
  r.appendAttribute .setAttribute "setAttribute" args do
    return some ((← r.text? args[2]?).getD "")

def removeAttribute (args : List Value) : ScriptM Value :=
  r.appendAttribute .removeAttribute "removeAttribute" args (return none)

def flushUICommand : ScriptM Value := do
  let pending ← flushQueue r.perform r.context.queue
  let set ← services r.context.gate
  let _ ← callService r.perform set .flushUICommand r.context.id []
  return .bool pending

/-! ### All of them -/

/-- Calls a function of the runtime. -/
def apply (b : Binding) (args : List Value) : ScriptM Value :=
  match b with
  | .now => do return .number (← nowOf r.context.timeline)
  | .toJSON => r.snapshot
  | .mark => r.mark args
  | .measure => r.measure args
  | .clearMarks => r.clear .mark args
  | .clearMeasures => r.clear .measure args
  | .getEntries => r.getEntries
  | .getEntriesByName => r.getEntriesByName args
  | .getEntriesByType => r.getEntriesByType args
  | .summary => do return .ofNat (← summarize r.context.timeline)
  | .addModuleListener => r.addModuleListener args
  | .removeModuleListener => r.removeModuleListener args
  | .invokeModule => r.invokeModule args
  | .setStyle => r.setStyle args
  | .setAttribute => r.setAttribute args
  | .removeAttribute => r.removeAttribute args
  | .flushUICommand => r.flushUICommand

def functions (bs : List Binding) : List (String × Value) :=
  bs.map fun b => (b.name, .function (.binding b))

/-- The global `performance`; the summary is there only with profiling on. -/
def performanceObject (origin : Binary64) (profile : Bool) : Value :=
  let summary : List Binding := if profile then [.summary] else []
  .object .plain (("timeOrigin", .number origin) ::
    functions ([.now, .toJSON, .mark, .measure, .clearMarks, .clearMeasures, .getEntries,
      .getEntriesByName, .getEntriesByType] ++ summary))

/-- The global `__bridge__`. -/
def bridgeObject : Value :=
  .object .plain (functions [.addModuleListener, .removeModuleListener, .invokeModule, .setStyle,
    .setAttribute, .removeAttribute, .flushUICommand])

/-- A global of the runtime: one that the host installs, or a standard one. -/
def global? (name : String) : SessionM (Option Value) := do
  let origin := (← timelineAt r.context.timeline).origin
  let installed := [("performance", performanceObject origin r.context.config.profile),
    ("__bridge__", bridgeObject)]
  if name = "globalThis" then return some (.object .plain installed)
  else return (installed.lookup name) <|> Script.standardGlobal? name

end Realm
end ScriptHost.Session

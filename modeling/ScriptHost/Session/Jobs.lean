/-
Jobs and modules of a script runtime.

Jobs wait in a queue and run one at a time, first in, first out.  A module without a wait at its
top level runs to its end at once.  Any other one runs up to its first wait, goes on in jobs, and
settles in a job of its own; whoever needs its outcome runs jobs until it has settled or none is
left.
-/
import ScriptHost.Session.Evaluation

namespace ScriptHost.Session.Realm

open Script (Value Stmt ScriptError)

variable (r : Realm)

/-- What an uncaught throw means to the host; it is reported there. -/
def reportThrown (thrown : Value) : SessionM ScriptError := do
  let e ← ScriptError.ofThrown r.call thrown
  reportError r.perform r.context e.message
  return e

/-- Reports an error that ended an evaluation. -/
def reported {α : Type} (outcome : Except Value α) : SessionM (Except ScriptError α) := do
  match outcome with
  | .ok a => return .ok a
  | .error thrown => return .error (← r.reportThrown thrown)

/-- A script whose text cannot be parsed throws before anything of it runs. -/
def parsed (code : List Stmt) : Except Value (List Stmt) :=
  if Stmt.anyBroken code then .error (.error "SyntaxError" "variable name expected") else .ok code

/-- Evaluates a script. -/
def evaluate (code : List Stmt) : SessionM (Except ScriptError Value) := do
  r.reported (← (do r.run (← Script.settled (parsed code)) : ScriptM Value).run)

/-! ### Jobs -/

/-- Runs the statements of a module up to a wait; the result is what remains to be done after it,
and whether the wait is for ever. -/
def untilAwait : List Stmt → ScriptM (Option (Bool × List Stmt))
  | [] => return none
  | .await forever :: rest => return some (forever, rest)
  | s :: rest => do
    let _ ← r.statement s
    untilAwait rest

/-- Goes on with a module. -/
def advanceModule (module : Nat) (code : List Stmt) : SessionM Unit := do
  match ← (r.untilAwait code).run with
  | .error thrown => r.enqueue (.settle module (some thrown))
  | .ok none => r.enqueue (.settle module none)
  | .ok (some (true, _)) => return
  | .ok (some (false, rest)) => r.enqueue (.resume module rest)

/-- Does what a job does. -/
def runJob (j : Job) : ScriptM Unit :=
  match j with
  | .run body swallows => ExceptT.mk do
    match ← (r.run body).run with
    | .ok _ => return .ok ()
    | .error thrown => return if swallows then .ok () else .error thrown
  | .resume module rest => r.advanceModule module rest
  | .settle module thrown =>
    modifyRuntime r.runtime fun r =>
      { r with modules := r.modules.setIfInBounds module (some thrown) }

/-- Takes the first job off the queue. -/
def nextJob : SessionM (Option Job) := do
  match ((← get).runtimes[r.runtime]?.getD default).jobs with
  | [] => return none
  | j :: rest =>
    modifyRuntime r.runtime fun r => { r with jobs := rest }
    return some j

/-- Runs jobs until none is left or one throws; at most `limit` of them. -/
def runJobs : Nat → ScriptM Unit
  | 0 => return
  | limit + 1 => do
    match ← r.nextJob with
    | none => return
    | some j =>
      r.runJob j
      runJobs limit

/-- The most jobs that are run in one go. -/
def jobLimit : Nat := 1000000000

/-! ### Modules -/

/-- Runs jobs until a module has settled, whatever they throw; nothing if it never does. -/
def finishModule (module : Nat) : Nat → SessionM (Option (Option Value))
  | 0 => return none
  | limit + 1 => do
    match (((← get).runtimes[r.runtime]?.getD default).modules[module]?).join with
    | some outcome => return some outcome
    | none =>
      match ← r.nextJob with
      | none => return none
      | some j =>
        let _ ← (r.runJob j).run
        finishModule module limit

/-- A module waits for something that will not come. -/
def deadlock : ScriptError :=
  ⟨.runtime, "Error blocking on a promise resulted in a dead lock"⟩

def addModule : SessionM Nat := do
  let module := ((← get).runtimes[r.runtime]?.getD default).modules.size
  modifyRuntime r.runtime fun r => { r with modules := r.modules.push none }
  return module

/-- Runs a module with waits at its top level. -/
def runAsync (code : List Stmt) : SessionM (Except ScriptError Unit) := do
  let module ← r.addModule
  r.advanceModule module code
  match ← r.finishModule module jobLimit with
  | some none => return .ok ()
  | some (some thrown) => return .error (← r.reportThrown thrown)
  | none =>
    reportError r.perform r.context deadlock.message
    return .error deadlock

/-- Runs a module that has been declared. -/
def runModule (code : List Stmt) : SessionM (Except ScriptError Unit) := do
  if code.any Stmt.isAwait then r.runAsync code
  else return (← r.reported (← (r.run code).run)).map fun _ => ()

/-- A module cannot have a name with a NUL; the error tells how many bytes stand before the
first. -/
def nameError? (name : String) : Option ScriptError :=
  let before := name.toList.takeWhile (· ≠ '\x00')
  if before = name.toList then none
  else some ⟨.runtime, "String contained internal null bytes: nul byte found in provided data " ++
    "at position: " ++ toString (String.ofList before).utf8ByteSize⟩

/-- Declares a module: its name is looked at first, then its text. -/
def declareModule (name : String) (code : List Stmt) :
    SessionM (Except ScriptError (List Stmt)) := do
  match nameError? name with
  | none => r.reported (parsed code)
  | some e =>
    reportError r.perform r.context e.message
    return .error e

/-- Declares a module and runs it. -/
def evaluateModule (name : String) (code : List Stmt) : SessionM (Except ScriptError Unit) := do
  match ← r.declareModule name code with
  | .ok code => r.runModule code
  | .error e => return .error e

end ScriptHost.Session.Realm

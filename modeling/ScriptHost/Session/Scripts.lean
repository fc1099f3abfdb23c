/-
Script runtimes in the steps of a session.
-/
import ScriptHost.Session.Jobs
import ScriptHost.Session.Listeners

namespace ScriptHost.Session

open Script (Value Stmt Callable ScriptError)

/-- The least memory limit under which a runtime can be set up. -/
def leastMemory : Nat := 65536

/-- A limit under which a runtime cannot be set up; zero is no limit. -/
def tooLittleMemory (limit : Nat) : Bool := 0 < limit ∧ limit < leastMemory

def outOfMemory : ScriptError := ⟨.runtime, "Allocation failed while creating object"⟩

/-- Installs the functions of a new runtime; the result is its place. -/
def addRuntime (context : Nat) : SessionM Nat := do
  let c ← contextAt context
  if c.config.profile then
    let _ ← markTimeline c.timeline Phase.bindingsStart none
  let s ← get
  let i := s.runtimes.size
  set { s with runtimes := s.runtimes.push { context } }
  if c.config.profile then
    let _ ← markTimeline c.timeline Phase.bindingsEnd none
  log (.bindingsInstalled c.id)
  return i

def runtimeAt (i : Nat) : SessionM Runtime := do
  return (← get).runtimes[i]?.getD default

/-- The realm in which the scripts of a runtime begin. -/
def realmOf (perform : Performer) (i : Nat) : SessionM Realm := do
  return Realm.outermost perform i (← contextAt (← runtimeAt i).context)

/-- Takes what scripts have recorded since the last time. -/
def takeRecorded (i : Nat) : SessionM (List Json) := do
  let recorded := (← runtimeAt i).recorded.reverse
  modifyRuntime i fun r => { r with recorded := [] }
  return recorded

/-- The answer to an evaluation, with everything that was recorded in its course. -/
def answerScript {α : Type} (i : Nat) (shown : α → Json) (outcome : Except ScriptError α) :
    SessionM Answer := do
  let recorded ← takeRecorded i
  match outcome with
  | .ok a => return ⟨.ok (shown a), recorded⟩
  | .error e => return ⟨.error (.script e), recorded⟩

/-! ### Listeners -/

/-- The event object that a listener is handed. -/
def eventObject (event : Option String) : Value :=
  match event with
  | some type => .object .plain [("type", .text type)]
  | none => .null

/-- What a listener is called with. -/
def listenerArgs (e : ModuleEvent) : List Value :=
  [.text e.module, eventObject e.event, (e.payload.map Value.ofJson).getD .null]

/-- Calls a listener; the result is the message of what it threw. -/
def callListener (r : Realm) (f : Callable) (e : ModuleEvent) : SessionM (Option String) := do
  match ← (r.call f (listenerArgs e)).run with
  | .ok _ => return none
  | .error thrown => return some (← ScriptError.ofThrown r.call thrown).message

/-- The listeners of a runtime, in the midst of the session. -/
def scriptSurroundings (r : Realm) (context : Nat) : Surroundings Session Callable where
  context := r.context.id
  isValid s := (s.contexts[context]?.getD default).valid
  roster s := (s.runtimes[r.runtime]?.getD default).roster
  setRoster roster s := (Realm.setRoster r.runtime roster s).2
  call f e s := callListener r f e s
  report message s := (reportError r.perform r.context message s).2
  log l s := { s with effects := s.effects.push (.log l) }

def dispatchScript (perform : Performer) (i : Nat) (module : String) (event extra : Option String) :
    SessionM (Except Fault DispatchReport) := do
  let r ← realmOf perform i
  (scriptSurroundings r (← runtimeAt i).context).dispatch module event extra

/-! ### Steps -/

def unit (_ : Unit) : Json := .null

def performScript (perform : Performer) (a : ScriptAction) : SessionM Answer :=
  match a with
  | .new id context => withObject context? context fun c => do
    if tooLittleMemory (← contextAt c).config.memoryLimit then
      return ⟨.error (.script outOfMemory), []⟩
    else
      bind id (.runtime (← addRuntime c))
      return .nat 0
  | .listeners context => withObject context? context fun c => do
    return .of (.array (shownSize 0 ++ [.int (← contextAt c).id]))
  | .eval on code => withObject runtime? on fun i => do
    answerScript i shownCompletion (← (← realmOf perform i).evaluate code)
  | .exec on code => withObject runtime? on fun i => do
    answerScript i (fun _ => .null) (← (← realmOf perform i).evaluate code)
  | .script on module code => withObject runtime? on fun i => do
    answerScript i unit (← (← realmOf perform i).evaluateModule module code)
  | .compile on module code keep => withObject runtime? on fun i => do
    match ← (← realmOf perform i).declareModule module code with
    | .ok code =>
      bind keep (.program code)
      return .flag false
    | .error e => answerScript i unit (.error e)
  | .load on program => withObject runtime? on fun i => withObject program? program fun code => do
    answerScript i unit (← (← realmOf perform i).runModule code)
  | .event on module event extra => withObject runtime? on fun i => do
    let outcome ← dispatchScript perform i module event extra
    let recorded ← takeRecorded i
    match outcome with
    | .ok report => return ⟨.ok (shownReport report), recorded⟩
    | .error f => return ⟨.error (.viaBindings f), recorded⟩
  | .jobs on => withObject runtime? on fun i => do
    let r ← realmOf perform i
    answerScript i unit (← r.reported (← (r.runJobs Realm.jobLimit).run))
  | .count on => withObject runtime? on fun i => do
    let r ← runtimeAt i
    return .of (.array [.int r.roster.size, .int (← contextAt r.context).id])

end ScriptHost.Session

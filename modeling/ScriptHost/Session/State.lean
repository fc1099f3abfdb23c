/-
The state of a session.

Objects are kept in arrays by kind and are never removed from them; names refer to their places.
What is observable about dropping an object is who holds which atoms, so `drop` lets the atoms go
that nobody can reach any more: those of a table, a cache, a declaration, and those of a context
once no name, declaration, dispatcher, script runtime or registry refers to it.  A step under way
refers to the object that it works on; one that is dropped meanwhile lives on until the step ends.

What a step does to the outside is recorded as effects, in order.
-/
import ScriptHost.Session.Step
import ScriptHost.Command.Queue
import ScriptHost.Timeline.Phase
import ScriptHost.Registry
import ScriptHost.Holdings
import ScriptHost.Listener.Dispatch
import ScriptHost.Script.Value

namespace ScriptHost

/-- Why a step failed. -/
inductive Failure where
  | fault (f : Fault)
  /-- A fault that came out of the script bindings. -/
  | viaBindings (f : Fault)
  | script (e : Script.ScriptError)
  /-- The step names an object that is not there, or of another kind. -/
  | unknown
  /-- Reactions nest too deep. -/
  | tooDeep

/-- What came of a step: its result, and what scripts recorded in its course. -/
structure Answer where
  result : Except Failure Json
  recorded : List Json := []

namespace Answer

def of (j : Json) : Answer := ⟨.ok j, []⟩
def done : Answer := of .null
def flag (b : Bool) : Answer := of (.bool b)
def nat (n : Nat) : Answer := of (.int n)
def text (s : String) : Answer := of (.text s)
def fault (f : Fault) : Answer := ⟨.error (.fault f), []⟩
def unknown : Answer := ⟨.error .unknown, []⟩

end Answer

/-- What a step does to the outside. -/
inductive Effect where
  /-- An entry point of the host is called. -/
  | host (service : Service) (context : ContextId) (args : List Arg)
  /-- A sink is told that commands are waiting. -/
  | sink (context : ContextId)
  /-- A timing source is asked. -/
  | fetch (context : ContextId)
  /-- The markup reader is called. -/
  | parse (markup : String)
  /-- A native listener is called. -/
  | heard (label : String) (event : ModuleEvent)
  /-- A step of a reaction has ended. -/
  | did (word : String) (answer : Answer)
  | log (l : Log)

namespace Session

/-- A reaction at work. -/
structure Reacting where
  reaction : Reaction Step
  calls : Nat := 0

/-- What stands behind a registered service. -/
structure EntryPoint where
  service : Service
  answering : Answering
  reacting : Nat

/-- Who is told that commands are waiting. -/
inductive Sink where
  /-- A sink that records the call and reacts to it. -/
  | recording (reacting : Nat)
  /-- The service of the host that asks for an update. -/
  | host (gate : Nat)
  deriving Inhabited

structure QueueObject where
  queue : Queue
  sink : Sink
  deriving Inhabited

inductive Clock where
  /-- The clock of the process, from a moment on. -/
  | system (since : Nat)
  | manual (clock : Nat)
  deriving Inhabited

structure TimelineObject where
  timeline : Timeline
  clock : Clock
  source : Option Nat
  deriving Inhabited

/-- An execution context, with the places of its parts. -/
structure Context where
  id : ContextId
  config : Config
  valid : Bool := true
  gate : Nat
  queue : Nat
  timeline : Nat
  table : TableId
  names : CacheId
  deriving Inhabited

structure RegistryObject where
  registry : Registry Nat
  gate : Nat
  source : Option Nat
  deriving Inhabited

/-- A style declaration, the context that it belongs to and the target that it styles. -/
structure StyleObject where
  style : StyleId
  context : Nat
  target : Int
  deriving Inhabited

structure NativeListener where
  label : String
  failure : Option String
  reacting : Nat

structure Dispatcher where
  context : Nat
  roster : Roster NativeListener := {}
  deriving Inhabited

/-- Something that waits for its turn in a script runtime. -/
inductive Job where
  /-- Runs a body; what it throws is swallowed if a promise takes it. -/
  | run (body : List Script.Stmt) (swallows : Bool)
  /-- Goes on with a module. -/
  | resume (module : Nat) (rest : List Script.Stmt)
  /-- Settles a module; `some` is what it threw. -/
  | settle (module : Nat) (thrown : Option Script.Value)

/-- A script runtime of a context. -/
structure Runtime where
  context : Nat
  roster : Roster Script.Callable := {}
  kept : List (String × Script.Value) := []
  /-- The declarations of the targets whose style a script has touched. -/
  styles : List (Int × StyleId) := []
  jobs : List Job := []
  /-- Modules that are evaluated asynchronously; `none` while one is under way. -/
  modules : Array (Option (Option Script.Value)) := #[]
  /-- What scripts have recorded, latest first. -/
  recorded : List Json := []
  deriving Inhabited

/-- What a name refers to. -/
inductive Ref where
  | gate (i : Nat)
  | services (set : ServiceSet Nat)
  | thread (t : ThreadId)
  | table (t : TableId)
  | cache (c : CacheId)
  | clock (i : Nat)
  | source (i : Nat)
  | queue (i : Nat)
  | timeline (i : Nat)
  | context (i : Nat)
  | registry (i : Nat)
  | style (o : StyleObject)
  | dispatcher (i : Nat)
  | runtime (i : Nat)
  | program (code : List Script.Stmt)

/-- The references are to one and the same object, of a kind that holds atoms itself. -/
def Ref.same : Ref → Ref → Bool
  | .table t, .table t' => t = t'
  | .cache c, .cache c' => c = c'
  | .style o, .style o' => o.style = o'.style
  | .runtime i, .runtime i' => i = i'
  | _, _ => false

end Session

open Session in
structure Session where
  /-- The clock of the process, in microseconds. -/
  micros : Nat := 0
  /-- The thread on which steps are performed. -/
  thread : ThreadId := 1
  nextThread : ThreadId := 2
  holdings : Holdings := {}
  reactings : Array Reacting := #[]
  entryPoints : Array EntryPoint := #[]
  gates : Array (Gate Nat) := #[]
  clocks : Array Nat := #[]
  sources : Array (List Entry) := #[]
  queues : Array QueueObject := #[]
  timelines : Array TimelineObject := #[]
  contexts : Array Context := #[]
  registries : Array RegistryObject := #[]
  dispatchers : Array Dispatcher := #[]
  runtimes : Array Runtime := #[]
  objects : List (String × Ref) := []
  /-- The objects on which the steps under way work, the innermost first. -/
  working : List Ref := []
  effects : Array Effect := #[]

abbrev SessionM := StateM Session

namespace Session

/-- Performs a step of a reaction. -/
abbrev Performer := Step → SessionM Answer

def emit (e : Effect) : SessionM Unit := modify fun s => { s with effects := s.effects.push e }

def log (l : Log) : SessionM Unit := emit (.log l)

/-- Runs an operation on the holdings. -/
def holding {α : Type} (f : Holdings → α × Holdings) : SessionM α := do
  let s ← get
  let (a, holdings) := f s.holdings
  set { s with holdings }
  return a

def changeHoldings (f : Holdings → Holdings) : SessionM Unit :=
  modify fun s => { s with holdings := f s.holdings }

def modifyQueue (i : Nat) (f : Queue → Queue) : SessionM Unit :=
  modify fun s =>
    { s with queues := s.queues.modify i fun q => { q with queue := f q.queue } }

def modifyTimeline (i : Nat) (f : Timeline → Timeline) : SessionM Unit :=
  modify fun s =>
    { s with timelines := s.timelines.modify i fun t => { t with timeline := f t.timeline } }

def modifyContext (i : Nat) (f : Context → Context) : SessionM Unit :=
  modify fun s => { s with contexts := s.contexts.modify i f }

def modifyRuntime (i : Nat) (f : Runtime → Runtime) : SessionM Unit :=
  modify fun s => { s with runtimes := s.runtimes.modify i f }

/-! ### Names -/

def ref? (s : Session) (name : String) : Option Ref := s.objects.lookup name

def gate? (s : Session) (name : String) : Option Nat :=
  match s.ref? name with
  | some (.gate i) => some i
  | some (.context i) => (s.contexts[i]?).map Context.gate
  | _ => none

/-- A table, or the one of a context. -/
def table? (s : Session) (name : String) : Option TableId :=
  match s.ref? name with
  | some (.table t) => some t
  | some (.context i) => (s.contexts[i]?).map Context.table
  | _ => none

def cache? (s : Session) (name : String) : Option CacheId :=
  match s.ref? name with
  | some (.cache c) => some c
  | _ => none

/-- A queue, or the one of a context. -/
def queue? (s : Session) (name : String) : Option Nat :=
  match s.ref? name with
  | some (.queue i) => some i
  | some (.context i) => (s.contexts[i]?).map Context.queue
  | _ => none

/-- A timeline, or the one of a context. -/
def timeline? (s : Session) (name : String) : Option Nat :=
  match s.ref? name with
  | some (.timeline i) => some i
  | some (.context i) => (s.contexts[i]?).map Context.timeline
  | _ => none

def clock? (s : Session) (name : String) : Option Nat :=
  match s.ref? name with
  | some (.clock i) => some i
  | _ => none

def source? (s : Session) (name : String) : Option Nat :=
  match s.ref? name with
  | some (.source i) => some i
  | _ => none

def thread? (s : Session) (name : String) : Option ThreadId :=
  match s.ref? name with
  | some (.thread t) => some t
  | _ => none

def context? (s : Session) (name : String) : Option Nat :=
  match s.ref? name with
  | some (.context i) => some i
  | _ => none

def registry? (s : Session) (name : String) : Option Nat :=
  match s.ref? name with
  | some (.registry i) => some i
  | _ => none

def style? (s : Session) (name : String) : Option StyleObject :=
  match s.ref? name with
  | some (.style o) => some o
  | _ => none

def dispatcher? (s : Session) (name : String) : Option Nat :=
  match s.ref? name with
  | some (.dispatcher i) => some i
  | _ => none

def runtime? (s : Session) (name : String) : Option Nat :=
  match s.ref? name with
  | some (.runtime i) => some i
  | _ => none

def program? (s : Session) (name : String) : Option (List Script.Stmt) :=
  match s.ref? name with
  | some (.program code) => some code
  | _ => none

/-! ### Dropping -/

/-- The context to which the object of a name holds on. -/
def heldContexts (s : Session) : Ref → List Nat
  | .context i => [i]
  | .registry i => ((s.registries[i]?).map fun r => r.registry.contexts.map (·.2)).getD []
  | .style o => [o.context]
  | .dispatcher i => ((s.dispatchers[i]?).map fun d => [d.context]).getD []
  | .runtime i => ((s.runtimes[i]?).map fun r => [r.context]).getD []
  | _ => []

/-- The references of names and of steps under way. -/
def references (s : Session) : List Ref := s.objects.map (·.2) ++ s.working

/-- Something that is referred to holds on to the context. -/
def holdsContext (s : Session) (context : Nat) : Bool :=
  s.references.any fun r => (s.heldContexts r).contains context

/-- Lets the atoms of a context go if nobody holds on to it any more. -/
def releaseContext (context : Nat) : SessionM Unit := do
  let s ← get
  match s.contexts[context]? with
  | none => return
  | some c =>
    if s.holdsContext context then return
    else changeHoldings fun h => (h.dropCache c.names).dropTable c.table

def releaseContexts : List Nat → SessionM Unit
  | [] => return
  | context :: rest => do
    releaseContext context
    releaseContexts rest

/-- Lets go the declarations and the listeners of a runtime. -/
def releaseRuntime (i : Nat) : SessionM Unit := do
  let styles := ((← get).runtimes[i]?.map Runtime.styles).getD []
  changeHoldings fun h => styles.foldl (fun h (_, i) => h.dropStyle i) h
  modifyRuntime i fun r => { r with roster := r.roster.clear, styles := [] }

/-- Lets go the atoms that only the object behind a reference held. -/
def releaseAtoms (r : Ref) : SessionM Unit :=
  match r with
  | .table t => changeHoldings fun h => h.dropTable t
  | .cache c => changeHoldings fun h => h.dropCache c
  | .style o => changeHoldings fun h => h.dropStyle o.style
  | .runtime i => releaseRuntime i
  | _ => return

/-- Lets go what the object behind a reference held, unless it is still referred to. -/
def releaseRef (r : Ref) : SessionM Unit := do
  let s ← get
  if s.references.any r.same then return
  else
    releaseAtoms r
    releaseContexts (s.heldContexts r)

/-- Does something while a step works on the object of a name. -/
def workingOn {α : Type} (name : Option String) (act : SessionM α) : SessionM α := do
  match name.bind (← get).ref? with
  | none => act
  | some r =>
    modify fun s => { s with working := r :: s.working }
    let a ← act
    modify fun s => { s with working := s.working.tail }
    releaseRef r
    return a

/-- Drops the object of a name; says whether there was one. -/
def dropName (name : String) : SessionM Bool := do
  match (← get).ref? name with
  | none => return false
  | some r =>
    modify fun s => { s with objects := s.objects.filter (·.1 ≠ name) }
    releaseRef r
    return true

/-- Names an object; an older object of that name is dropped. -/
def bind (name : String) (r : Ref) : SessionM Unit := do
  let old := (← get).ref? name
  modify fun s => { s with objects := (name, r) :: s.objects.filter (·.1 ≠ name) }
  match old with
  | some old => releaseRef old
  | none => pure ()

end Session
end ScriptHost

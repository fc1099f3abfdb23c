/-
Contexts and registries in the steps of a session.

A context owns its atom table, name cache, command queue and timeline.  With profiling on it asks
a timing source and marks the beginning and the end of its own creation.  Disposing of a context
closes its queue, once and for good.
-/
import ScriptHost.Session.Gates
import ScriptHost.Session.Atoms

namespace ScriptHost.Session

/-- Makes a context; the result is its place. -/
def addContext (id : ContextId) (config : Config) (gate : Nat) (sink : Sink)
    (source : Option Nat) : SessionM Nat := do
  let timeline ← addTimeline id none (if config.profile then source else none)
  if config.profile then
    let _ ← markTimeline timeline Phase.contextStart none
  let queue ← addQueue id config.batchUpdates sink
  let table ← holding fun h => h.newTable config.preintern
  if config.profile then
    let _ ← markTimeline timeline Phase.contextEnd none
  log (.contextCreated id)
  let names ← holding Holdings.newCache
  let s ← get
  set { s with contexts := s.contexts.push { id, config, gate, queue, timeline, table, names } }
  return s.contexts.size

def contextAt (i : Nat) : SessionM Context := do
  return (← get).contexts[i]?.getD default

/-- Disposes of a context; once it is disposed of, nothing happens. -/
def disposeContext (i : Nat) : SessionM Unit := do
  let c ← contextAt i
  if c.valid then
    modifyContext i fun c => { c with valid := false }
    modifyQueue c.queue Queue.close
    log (.contextDisposed c.id)

/-- Calls the markup reader on behalf of a valid context. -/
def parseMarkup (i : Nat) (markup : String) : SessionM (Except Fault (List String)) := do
  let c ← contextAt i
  if c.valid then
    emit (.parse markup)
    return .ok [markup]
  else return .error (.contextDisposed c.id)

/-- The configuration of an action; without a text it is the default. -/
def configOf (text : Option String) : Except Fault Config :=
  match text with
  | some text => Config.read text
  | none => .ok {}

def shownContext (c : Context) : Json :=
  Json.ofMembers [("id", .int c.id), ("valid", .bool c.valid), ("config", shownConfig c.config)]

def performContext (perform : Performer) (a : ContextAction Step) : SessionM Answer :=
  match a with
  | .new id context gate config sink source =>
    match configOf config with
    | .error fault => return .fault fault
    | .ok config => withObject gate? gate fun gate => do
      let source ← optional source? source
      let sink ←
        match sink with
        | some reaction => do pure (.recording (← addReacting reaction))
        | none => pure (.host gate)
      bind id (.context (← addContext context config gate sink source))
      return .done
  | .inspect on => withObject context? on fun i => do
    return .of (shownContext (← contextAt i))
  | .propertyName on name keep => withObject context? on fun i => do
    let c ← contextAt i
    answerAtom keep (← holding fun h => h.resolve c.names c.table name)
  | .report on message caller => withObject context? on fun i => do
    onThread caller (reportError perform (← contextAt i) message)
    return .done
  | .dispose on => withObject context? on fun i => do
    disposeContext i
    return .flag (← contextAt i).valid
  | .parse on markup => withObject context? on fun i => do
    match ← parseMarkup i markup with
    | .ok tree => return .of (.array (tree.map .text))
    | .error fault => return .fault fault
  | .sameGate on gate => withObject context? on fun i => withObject gate? gate fun g => do
    return .flag ((← contextAt i).gate = g)
/-! ### Registries -/

def registryAt (i : Nat) : SessionM RegistryObject := do
  return (← get).registries[i]?.getD default

def modifyRegistry (i : Nat) (f : Registry Nat → Registry Nat) : SessionM Unit :=
  modify fun s =>
    { s with registries := s.registries.modify i fun r => { r with registry := f r.registry } }

def addRegistry (gate : Nat) (max : Nat) (source : Option Nat) : SessionM Nat := do
  let s ← get
  set { s with registries := s.registries.push { registry := { max }, gate, source } }
  return s.registries.size

/-- Creates a context under the next name of a registry; the result is its place. -/
def createContext (registry : Nat) (config : Config) : SessionM (Except Fault Nat) := do
  let r ← registryAt registry
  match r.registry.nextContext with
  | .error fault =>
    log (.contextLimitReached r.registry.max)
    return .error fault
  | .ok id =>
    let c ← addContext id config r.gate (.host r.gate) r.source
    modifyRegistry registry fun r => r.enter c
    return .ok c

/-- Strikes a context out of a registry and disposes of it; says whether it was there. -/
def strikeContext (registry : Nat) (id : ContextId) : SessionM Bool := do
  let r ← registryAt registry
  let (c, registry') := r.registry.remove id
  modifyRegistry registry fun _ => registry'
  match c with
  | none => return false
  | some c =>
    disposeContext c
    releaseContext c
    return true

/-- Shows a registered context, and whether it is the one of a name. -/
def shownRegistered (s : Session) (i : Nat) (same : Option String) : Json :=
  let c := s.contexts[i]?.getD default
  let same : Json :=
    match same with
    | some name => .bool (s.context? name = some i)
    | none => .null
  .array [.int c.id, .bool c.valid, same]

def performRegistry (a : RegistryAction) : SessionM Answer :=
  match a with
  | .new id gate max source => withObject gate? gate fun gate => do
    bind id (.registry (← addRegistry gate max (← optional source? source)))
    return .done
  | .create on config keep => withObject registry? on fun i => do
    match configOf config with
    | .error fault => return .fault fault
    | .ok config =>
      match ← createContext i config with
      | .error fault => return .fault fault
      | .ok c =>
        match keep with
        | some name => bind name (.context c)
        | none => pure ()
        return .of (.int (← contextAt c).id)
  | .get on context same => withObject registry? on fun i => do
    match (← registryAt i).registry.get? context with
    | none => return .done
    | some c => return .of (shownRegistered (← get) c same)
  | .dispose on context => withObject registry? on fun i => do
    return .flag (← strikeContext i context)
  | .size on => withObject registry? on fun i => do
    return .of (.array (shownSize (← registryAt i).registry.size))

end ScriptHost.Session

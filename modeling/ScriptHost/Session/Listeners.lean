/-
Native listeners in the steps of a session.
-/
import ScriptHost.Session.Contexts

namespace ScriptHost.Session

def dispatcherAt (i : Nat) : SessionM Dispatcher := do
  return (← get).dispatchers[i]?.getD default

def setRoster (i : Nat) (r : Roster NativeListener) (s : Session) : Session :=
  { s with dispatchers := s.dispatchers.modify i fun d => { d with roster := r } }

/-- A native listener tells what it heard, reacts, and then fails if it has to. -/
def callNative (perform : Performer) (l : NativeListener) (e : ModuleEvent) :
    SessionM (Option String) := do
  emit (.heard l.label e)
  react perform l.reacting
  return l.failure

/-- A dispatcher of native listeners, in the midst of the session. -/
def nativeSurroundings (perform : Performer) (i : Nat) (context : Nat) (c : Context) :
    Surroundings Session NativeListener where
  context := c.id
  isValid s := (s.contexts[context]?.getD default).valid
  roster s := (s.dispatchers[i]?.getD default).roster
  setRoster := setRoster i
  call l e s := callNative perform l e s
  report message s := (reportError perform c message s).2
  log l s := { s with effects := s.effects.push (.log l) }

def shownReport (r : DispatchReport) : Json :=
  .object [("delivered", .int r.delivered), ("failed", .int r.failed)]

/-- Registers a listener; the result is its handle. -/
def registerNative (i : Nat) (l : NativeListener) : SessionM Handle := do
  let d ← dispatcherAt i
  let (h, roster) := d.roster.register l
  modify (setRoster i roster)
  log (.listenerRegistered (← contextAt d.context).id h)
  return h

def addDispatcher (context : Nat) : SessionM Nat := do
  let s ← get
  set { s with dispatchers := s.dispatchers.push { context } }
  return s.dispatchers.size

def performListeners (perform : Performer) (a : ListenerAction Step) : SessionM Answer :=
  match a with
  | .new id context => withObject context? context fun c => do
    bind id (.dispatcher (← addDispatcher c))
    return .done
  | .add on label failure reaction => withObject dispatcher? on fun i => do
    let reacting ← addReacting reaction
    return .nat (← registerNative i { label, failure, reacting })
  | .remove on handle => withObject dispatcher? on fun i => do
    let (found, roster) := (← dispatcherAt i).roster.unregister handle
    modify (setRoster i roster)
    return .flag found
  | .dispatch on module event extra => withObject dispatcher? on fun i => do
    let context := (← dispatcherAt i).context
    let w := nativeSurroundings perform i context (← contextAt context)
    match ← (w.dispatch module event extra : SessionM _) with
    | .ok report => return .of (shownReport report)
    | .error fault => return .fault fault
  | .clear on => withObject dispatcher? on fun i => do
    modify (setRoster i (← dispatcherAt i).roster.clear)
    return .done
  | .size on => withObject dispatcher? on fun i => do
    return .of (.array (shownSize (← dispatcherAt i).roster.size))
  | .context on => withObject dispatcher? on fun i => do
    let c ← contextAt (← dispatcherAt i).context
    return .of (.array [.int c.id, .bool c.valid])

end ScriptHost.Session

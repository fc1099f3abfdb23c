/-
Gates and services in the steps of a session.
-/
import ScriptHost.Session.Queues

namespace ScriptHost.Session

/-- A thread that nobody has seen yet. -/
def freshThread : SessionM ThreadId := do
  let s ← get
  set { s with nextThread := s.nextThread + 1 }
  return s.nextThread

def gateAt (i : Nat) : SessionM (Gate Nat) := do
  return (← get).gates[i]?.getD default

def setGate (i : Nat) (g : Gate Nat) : SessionM Unit :=
  modify fun s => { s with gates := s.gates.setIfInBounds i g }

def addGate : SessionM Nat := do
  let s ← get
  set { s with gates := s.gates.push default }
  return s.gates.size

def addEntryPoint (service : Service) (answering : Answering) (reaction : Reaction Step) :
    SessionM Nat := do
  let reacting ← addReacting reaction
  let s ← get
  set { s with entryPoints := s.entryPoints.push { service, answering, reacting } }
  return s.entryPoints.size

/-- Registers an entry point with a gate. -/
def registerService (gate : Nat) (service : Service) (entry : Nat) : SessionM Answer := do
  match (← gateAt gate).register service entry with
  | .ok (replaced, g) =>
    setGate gate g
    if replaced then log (.serviceReplaced service)
    return .done
  | .error fault =>
    log (.registrationRefused service)
    return .fault fault

/-- Captures a thread for a gate. -/
def captureThread (gate : Nat) (t : ThreadId) : SessionM Answer := do
  let g ← gateAt gate
  match g.capture t with
  | .ok g' =>
    log (.hostCaptured g.pending.length)
    setGate gate g'
    return .done
  | .error fault => return .fault fault

/-- How the captured thread is called; the session itself runs on thread `1`. -/
def threadLabel (g : Gate Nat) : String :=
  match g.captured with
  | none => "none"
  | some (t, _) => if t = 1 then "main" else "other"

def performGate (a : GateAction Step) : SessionM Answer :=
  match a with
  | .new id => do
    bind id (.gate (← addGate))
    return .done
  | .register on service answering reaction => withObject gate? on fun g => do
    registerService g service (← addEntryPoint service answering reaction)
  | .capture on capturer => withObject gate? on fun g => do
    match capturer with
    | .main => captureThread g (← get).thread
    | .fresh => captureThread g (← freshThread)
    | .kept thread => withObject thread? thread fun t => captureThread g t
  | .newThread id => do
    bind id (.thread (← freshThread))
    return .done
  | .captured on => withObject gate? on fun g => do
    return .text (threadLabel (← gateAt g))

/-! ### Services -/

/-- The services of the object of a name, as seen from the thread that is given or calls. -/
def servicesOf (on : String) (thread : Option String) (caller : Caller) :
    SessionM (Option (ServiceSet Nat)) := do
  let s ← get
  match s.ref? on, s.gate? on with
  | some (.services set), _ => return some set
  | _, none => return none
  | _, some gate =>
    match thread, caller with
    | some name, _ =>
      match s.thread? name with
      | some t => return some (← servicesFor gate t)
      | none => return none
    | none, .here => return some (← services gate)
    | none, .elsewhere => return some (← servicesFor gate (← freshThread))

/-- Whether services are live, which of them reach the host, and the size of their table. -/
def shownServices (set : ServiceSet Nat) : Json :=
  let size : Json :=
    match set with
    | .live table => .array (shownSize table.length)
    | .empty => .null
  .array [.bool set.isLive, .array (set.reachable.map fun s => .text s.name), size]

/-- The arguments of a call of a host module. -/
def moduleArgs (module method : String) (params : Option String) : List Arg :=
  [.text module, .text method] ++ (params.map Arg.text).toList

/-- Calls a module of the host; only a text counts as a reply. -/
def invokeHostModule (perform : Performer) (set : ServiceSet Nat) (context : ContextId)
    (module method : String) (params : Option String) : SessionM (Option String) := do
  let reply ← callService perform set .invokeModule context (moduleArgs module method params)
  return reply.text?

def performServices (perform : Performer) (a : ServiceAction) : SessionM Answer := do
  match ← servicesOf a.on a.thread a.caller with
  | none => return .unknown
  | some set =>
    match a.call with
    | .keep id =>
      bind id (.services set)
      return .flag set.isLive
    | .reachable => return .of (shownServices set)
    | .call service args =>
      return .of (shownReply (← callService perform set service a.context args))
    | .notify service args =>
      let _ ← callService perform set service a.context args
      return .done
    | .invokeModule module method params =>
      return .of (shownText? (← invokeHostModule perform set a.context module method params))
    | .devicePixelRatio =>
      return .of (shownReal? (← callService perform set .devicePixelRatio a.context []).ratio?)
    | .platformBrightness =>
      return .of (shownText? (← callService perform set .platformBrightness a.context []).text?)

end ScriptHost.Session

/-
Calls that leave the library and the steps by which they are answered.

Entry points of the host, sinks and native listeners may react with steps of their own.  A call
counts as soon as it begins, so a reaction that calls itself again comes to an end.
-/
import ScriptHost.Session.Shown
import ScriptHost.Command.Outlet

namespace ScriptHost.Session

/-- Performs the steps of a reaction, one after the other. -/
def performAll (perform : Performer) : List Step → SessionM Unit
  | [] => return
  | step :: rest => do
    let answer ← perform step
    emit (.did step.word answer)
    performAll perform rest

/-- Counts a call, and reacts to it while there are reactions left. -/
def react (perform : Performer) (i : Nat) : SessionM Unit := do
  match (← get).reactings[i]? with
  | none => return
  | some r =>
    modify fun s =>
      { s with reactings := s.reactings.modify i fun r => { r with calls := r.calls + 1 } }
    if r.calls < r.reaction.times then performAll perform r.reaction.acts

/-- Keeps a reaction; the result is its place. -/
def addReacting (reaction : Reaction Step) : SessionM Nat := do
  let s ← get
  set { s with reactings := s.reactings.push { reaction } }
  return s.reactings.size

/-- Runs something on the thread of a caller. -/
def onThread {α : Type} (caller : Caller) (m : SessionM α) : SessionM α := do
  match caller with
  | .here => m
  | .elsewhere =>
    let s ← get
    set { s with thread := s.nextThread, nextThread := s.nextThread + 1 }
    let a ← m
    modify fun s' => { s' with thread := s.thread }
    return a

/-! ### The host -/

/-- What an entry point replies to some arguments. -/
def replyTo (args : List Arg) : Answering → Reply
  | .fixed reply => reply
  | .echo => .text ("|".intercalate (args.map fun a => (shownArg a).write))

/-- Enters the host. -/
def enterHost (perform : Performer) (i : Nat) (context : ContextId) (args : List Arg) :
    SessionM Reply := do
  match (← get).entryPoints[i]? with
  | none => return .void
  | some e =>
    emit (.host e.service context args)
    react perform e.reacting
    return replyTo args e.answering

/-- Calls a service. -/
def callService (perform : Performer) (set : ServiceSet Nat) (service : Service)
    (context : ContextId) (args : List Arg) : SessionM Reply := do
  match set.reach service with
  | .host i => enterHost perform i context args
  | .missing =>
    log (.serviceMissing service)
    return .void
  | .nowhere => return .void

/-- The services of a gate as seen from a thread. -/
def servicesFor (gate : Nat) (thread : ThreadId) : SessionM (ServiceSet Nat) := do
  return (((← get).gates[gate]?).map fun g => g.servicesFor thread).getD .empty

/-- The services of a gate as seen from the present thread. -/
def services (gate : Nat) : SessionM (ServiceSet Nat) := do
  servicesFor gate (← get).thread

/-- Reports a script error on the error channel of a context. -/
def reportError (perform : Performer) (c : Context) (message : String) : SessionM Unit := do
  log (.scriptError c.id message)
  let set ← services c.gate
  let _ ← callService perform set .onJsError c.id [.text message]

/-! ### Queues -/

/-- A sink is told that commands are waiting. -/
def notify (perform : Performer) (sink : Sink) (context : ContextId) : SessionM Unit := do
  match sink with
  | .recording r =>
    emit (.sink context)
    react perform r
  | .host gate =>
    let set ← services gate
    let _ ← callService perform set .requestBatchUpdate context []

/-- A queue of the session at work. -/
def outlet (perform : Performer) (i : Nat) : Outlet Session where
  queue s := (s.queues[i]?.getD default).queue
  setQueue q s := { s with queues := s.queues.modify i fun o => { o with queue := q } }
  signal context s := (notify perform (s.queues[i]?.getD default).sink context s).2
  log l s := { s with effects := s.effects.push (.log l) }

def appendCommand (perform : Performer) (i : Nat) (c : Command) : SessionM (Except Fault Unit) :=
  (outlet perform i).append c

def flushQueue (perform : Performer) (i : Nat) : SessionM Bool := (outlet perform i).flush

/-- Makes a queue; the result is its place. -/
def addQueue (context : ContextId) (batching : Bool) (sink : Sink) : SessionM Nat := do
  let s ← get
  set { s with queues := s.queues.push { queue := { context, batching }, sink } }
  return s.queues.size

end ScriptHost.Session

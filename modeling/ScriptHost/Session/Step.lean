/-
Steps of a session.

A session keeps objects by name.  Each step makes, uses or drops such objects; `id` names what a
step makes, `on` what it works on.  Entry points of the host, sinks of command queues and native
listeners react to being called with steps of their own, so the actions that install them are
parametrised by the type of steps, and `Step` closes the circle.
-/
import ScriptHost.Config
import ScriptHost.Command.Basic
import ScriptHost.Gate.Basic
import ScriptHost.Timeline.Entry
import ScriptHost.Script.Program

namespace ScriptHost.Session

/-- The steps that something performs on each of its first `times` calls. -/
structure Reaction (S : Type) where
  acts : List S := []
  times : Nat := 1000

/-- The thread on which a call is made: the one of the session, or a fresh one. -/
inductive Caller where
  | here
  | elsewhere
  deriving DecidableEq, Inhabited

inductive AtomAction where
  | newTable (id : String) (pinned : Option (List String))
  | intern (on : String) (text : Option String) (keep : Option String)
  | takeEmpty (on keep : String)
  | contains (on text : String)
  | size (on : String)
  | clone (atom keep : String)
  /-- Drops a handle, directly or through a table. -/
  | drop (atom : String)
  | inspect (atom : String)
  | describe (atom : String)
  | equal (a b : String)
  | distinct (atoms : List String)
  | newCache (id : String)
  | resolve (on table name : String) (keep : Option String)
  | cacheSize (on : String)

inductive QueueAction (S : Type) where
  | new (id : String) (context : ContextId) (sink : Reaction S)
  | append (on : String) (command : Command) (caller : Caller)
  | appendMany (on : String) (count : Nat) (kind : CommandKind) (first : Option String)
  | drain (on : String) (countOnly : Bool)
  | setBatching (on : String) (batching : Bool)
  | flush (on : String) (caller : Caller)
  | close (on : String)
  | state (on : String)

inductive TimelineAction where
  | newClock (id : String)
  | setClock (on : String) (micros : Nat)
  | advanceClock (on : String) (micros : Nat)
  | newSource (id : String) (entries : List Entry)
  | setSource (on : String) (entries : List Entry)
  | new (id : String) (context : ContextId) (clock source : Option String)
  | now (on : String)
  | origin (on : String)
  | snapshot (on : String)
  | mark (on name : String) (start : Option Binary64)
  | measure (on name : String) (start finish : Option String)
  | clear (on : String) (type : EntryType) (name : Option String)
  | entries (on : String)
  | own (on : String)
  | named (on name : String)
  | typed (on type : String)
  | summary (on : String)

/-- What an entry point replies. -/
inductive Answering where
  | fixed (reply : Reply)
  /-- A text made of the arguments. -/
  | echo

/-- The thread that a gate captures. -/
inductive Capturer where
  | main
  | fresh
  | kept (thread : String)

inductive GateAction (S : Type) where
  | new (id : String)
  | register (on : String) (service : Service) (answering : Answering) (reaction : Reaction S)
  | capture (on : String) (capturer : Capturer)
  | newThread (id : String)
  | captured (on : String)

/-- What a set of services is asked to do. -/
inductive ServiceCall where
  | keep (id : String)
  | reachable
  | call (service : Service) (args : List Arg)
  /-- A call whose reply is of no interest. -/
  | notify (service : Service) (args : List Arg)
  | invokeModule (module method : String) (params : Option String)
  | devicePixelRatio
  | platformBrightness

/-- A call on the services of a gate, of a context or of a kept set, as seen from a thread. -/
structure ServiceAction where
  on : String
  thread : Option String
  caller : Caller
  context : ContextId
  call : ServiceCall

inductive ContextAction (S : Type) where
  | new (id : String) (context : ContextId) (gate : String) (config : Option String)
      (sink : Option (Reaction S)) (source : Option String)
  | inspect (on : String)
  | propertyName (on name : String) (keep : Option String)
  | report (on message : String) (caller : Caller)
  | dispose (on : String)
  | parse (on markup : String)
  | sameGate (on gate : String)

inductive RegistryAction where
  | new (id gate : String) (max : Nat) (source : Option String)
  | create (on : String) (config : Option String) (keep : Option String)
  | get (on : String) (context : ContextId) (same : Option String)
  | dispose (on : String) (context : ContextId)
  | size (on : String)

inductive StyleAction where
  | new (id context : String) (target : Int)
  | set (on name value : String)
  | get (on name : String)
  | remove (on name : String)
  | css (on : String)
  | copy (on source : String)
  | size (on : String)

inductive ListenerAction (S : Type) where
  | new (id context : String)
  | add (on label : String) (failure : Option String) (reaction : Reaction S)
  | remove (on : String) (handle : Nat)
  | dispatch (on module : String) (event extra : Option String)
  | clear (on : String)
  | size (on : String)
  | context (on : String)

inductive ScriptAction where
  | new (id context : String)
  /-- A fresh listener set that is cleared at once. -/
  | listeners (context : String)
  | eval (on : String) (code : List Script.Stmt)
  | exec (on : String) (code : List Script.Stmt)
  /-- Evaluates a module of that name. -/
  | script (on module : String) (code : List Script.Stmt)
  | compile (on module : String) (code : List Script.Stmt) (keep : String)
  | load (on program : String)
  | event (on module : String) (event extra : Option String)
  | jobs (on : String)
  | count (on : String)

inductive Action (S : Type) where
  /-- Moves the clocks of the process on. -/
  | advance (micros : Nat)
  | drop (on : String)
  | describe (on : String)
  | atoms (a : AtomAction)
  | queue (a : QueueAction S)
  | timeline (a : TimelineAction)
  | gate (a : GateAction S)
  | services (a : ServiceAction)
  | context (a : ContextAction S)
  | registry (a : RegistryAction)
  | style (a : StyleAction)
  | listeners (a : ListenerAction S)
  | script (a : ScriptAction)

/-- The name of the object that an action works on, where reactions may run in its course. -/
def Action.subject? {S : Type} : Action S → Option String
  | .queue (.append on ..) | .queue (.appendMany on ..) | .queue (.setBatching on _)
  | .queue (.flush on _) | .queue (.close on) | .context (.report on ..)
  | .context (.dispose on) | .style (.set on ..) | .style (.remove on _)
  | .listeners (.dispatch on ..) | .script (.eval on _) | .script (.exec on _)
  | .script (.script on ..) | .script (.compile on ..) | .script (.load on _)
  | .script (.event on ..) | .script (.jobs on) => some on
  | _ => none

/-- An action, with the word by which it was asked for. -/
inductive Step where
  | mk (word : String) (action : Action Step)

def Step.word : Step → String
  | .mk word _ => word

def Step.action : Step → Action Step
  | .mk _ action => action

instance : Inhabited Step := ⟨.mk "" (.advance 0)⟩

end ScriptHost.Session

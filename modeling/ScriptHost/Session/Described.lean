/-
Descriptions of the objects of a session.
-/
import ScriptHost.Session.Styles
import ScriptHost.Session.Listeners

namespace ScriptHost.Session

/-- A description that names the fields of an object. -/
def describeFields (name : String) (fields : List (String × String)) : String :=
  name ++ " \x7b " ++ ", ".intercalate (fields.map fun (k, v) => k ++ ": " ++ v) ++ " \x7d"

def describeFlag (b : Bool) : String := if b then "true" else "false"

def describeTable (h : Holdings) (t : TableId) : String :=
  let pinned : Nat := ((h.tables[t]?.join).map fun table => table.pinned.length).getD 0
  describeFields "AtomTable" [("live", toString (h.heap.live t)), ("pinned", toString pinned)]

def describeCache (h : Holdings) (c : CacheId) : String :=
  describeFields "PropertyNameCache" [("cached", toString (h.cache c).length)]

def describeQueue (q : Queue) : String :=
  describeFields "CommandQueue" [("context_id", toString q.context),
    ("pending", toString q.pending.size), ("batching", describeFlag q.batching),
    ("closed", describeFlag q.closed)]

def describeTimeline (t : Timeline) : String :=
  describeFields "PerformanceTimeline" [("context_id", toString t.context),
    ("entries", toString t.entries.length), ("time_origin", Binary64.plainLayout.write t.origin)]

def describeContext (c : Context) (q : Queue) : String :=
  describeFields "ExecutionContext" [("id", toString c.id), ("valid", describeFlag c.valid),
    ("queue", describeQueue q)]

def describeStyle (h : Holdings) (o : StyleObject) : String :=
  let property : Atom × Atom → String := fun (name, value) =>
    "(" ++ describeAtom h.heap name ++ ", " ++ describeAtom h.heap value ++ ")"
  describeFields "StyleDeclaration" [("target_id", toString o.target),
    ("properties", "[" ++ ", ".intercalate ((h.properties o.style).map property) ++ "]")]

def describeDispatcher (context : ContextId) (listeners : Nat) : String :=
  describeFields "ModuleEventDispatcher" [("context", toString context),
    ("listeners", toString listeners)]

/-- The description of what a name refers to, if it has one. -/
def describe (s : Session) : Ref → Option String
  | .gate i => some (s.gates[i]?.getD default).describe
  | .services set => some set.describe
  | .table t => some (describeTable s.holdings t)
  | .cache c => some (describeCache s.holdings c)
  | .queue i => some (describeQueue (s.queues[i]?.getD default).queue)
  | .timeline i => some (describeTimeline (s.timelines[i]?.getD default).timeline)
  | .context i =>
    let c := s.contexts[i]?.getD default
    some (describeContext c (s.queues[c.queue]?.getD default).queue)
  | .registry i => some (s.registries[i]?.getD default).registry.describe
  | .style o => some (describeStyle s.holdings o)
  | .dispatcher i =>
    let d := s.dispatchers[i]?.getD default
    some (describeDispatcher (s.contexts[d.context]?.getD default).id d.roster.size)
  | _ => none

def performDescribe (on : String) : SessionM Answer :=
  withObject (fun s name => (s.ref? name).bind (describe s)) on fun text => return .text text

end ScriptHost.Session

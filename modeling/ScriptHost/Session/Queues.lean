/-
Command queues in the steps of a session.
-/
import ScriptHost.Session.Calling
import ScriptHost.Session.Timelines

namespace ScriptHost.Session

def queueAt (i : Nat) : SessionM Queue := do
  return ((← get).queues[i]?.getD default).queue

/-- Appends commands for the targets from `target` on; the first refusal ends it. -/
def appendMany (perform : Performer) (i : Nat) (kind : CommandKind) (first : Option String) :
    Nat → Int → SessionM (Except Fault Unit)
  | 0, _ => return .ok ()
  | count + 1, target => do
    match ← appendCommand perform i (.make target kind first none none) with
    | .ok () => appendMany perform i kind first count (target + 1)
    | .error fault => return .error fault

/-- The answer to an append: how many commands are waiting. -/
def answerAppend (i : Nat) : Except Fault Unit → SessionM Answer
  | .ok () => return .nat (← queueAt i).pending.size
  | .error fault => return .fault fault

def shownQueue (q : Queue) : Json :=
  Json.ofMembers [("ctx", .int q.context), ("len", .int q.pending.size),
    ("empty", .bool q.pending.isEmpty), ("batching", .bool q.batching), ("closed", .bool q.closed)]

def performQueue (perform : Performer) (a : QueueAction Step) : SessionM Answer :=
  match a with
  | .new id context sink => do
    let sink ← addReacting sink
    bind id (.queue (← addQueue context false (.recording sink)))
    return .done
  | .append on command caller => withObject queue? on fun i => do
    answerAppend i (← onThread caller (appendCommand perform i command))
  | .appendMany on count kind first => withObject queue? on fun i => do
    answerAppend i (← appendMany perform i kind first count 0)
  | .drain on countOnly => withObject queue? on fun i => do
    let commands ← (outlet perform i).drain
    if countOnly then return .nat commands.size
    else return .of (.array (commands.toList.map shownCommand))
  | .setBatching on batching => withObject queue? on fun i => do
    modify ((outlet perform i).setBatching batching)
    return .done
  | .flush on caller => withObject queue? on fun i => do
    return .flag (← onThread caller (flushQueue perform i))
  | .close on => withObject queue? on fun i => do
    modify (outlet perform i).close
    return .done
  | .state on => withObject queue? on fun i => do
    return .of (shownQueue (← queueAt i))

end ScriptHost.Session

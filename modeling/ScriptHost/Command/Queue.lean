/-
The command queue of a context.

Commands wait in the order in which they were pushed until they are drained, all at once.  A
closed queue takes no more commands but keeps those that wait.  Pushing never tells the renderer
by itself: `signals` says whether it has to be told after a push.
-/
import ScriptHost.Command.Basic
import ScriptHost.Fault

namespace ScriptHost

structure Queue where
  context : ContextId
  pending : Array Command := #[]
  /-- While batching, a push does not signal. -/
  batching : Bool := false
  closed : Bool := false
  deriving Inhabited

namespace Queue

/-- Adds a command at the end; a closed queue refuses it. -/
def push (q : Queue) (c : Command) : Except Fault Queue :=
  if q.closed then .error (.contextDisposed q.context)
  else .ok { q with pending := q.pending.push c }

/-- A push on this queue is followed by a signal. -/
def signals (q : Queue) : Bool := ¬ q.batching

/-- Commands are waiting. -/
def isPending (q : Queue) : Bool := ¬ q.pending.isEmpty

/-- All waiting commands, and the queue without them. -/
def drain (q : Queue) : Array Command × Queue := (q.pending, { q with pending := #[] })

def setBatching (q : Queue) (on : Bool) : Queue := { q with batching := on }

def close (q : Queue) : Queue := { q with closed := true }

theorem push_eq_ok_iff {q q' : Queue} {c : Command} :
    q.push c = .ok q' ↔ q.closed = false ∧ q' = { q with pending := q.pending.push c } := by
  unfold push
  cases h : q.closed <;> simp [eq_comm]

theorem push_eq_error_iff {q : Queue} {c : Command} {f : Fault} :
    q.push c = .error f ↔ q.closed = true ∧ f = .contextDisposed q.context := by
  unfold push
  cases h : q.closed <;> simp [eq_comm]

end Queue
end ScriptHost

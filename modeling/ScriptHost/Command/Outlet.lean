/-
A command queue at work.

Whoever renders is told that commands are waiting and may then do anything: drain the queue, push
more commands, close it.  So the operations act on a state that holds the queue among other
things, and `Outlet` says what they need of it.  A signal comes after the change that it is about:
when it is delivered, the command that raised it already waits in the queue.
-/
import ScriptHost.Command.Queue
import ScriptHost.Log

namespace ScriptHost

/-- What the operations of a queue need of a state `σ` that holds it. -/
structure Outlet (σ : Type) where
  queue : σ → Queue
  setQueue : Queue → σ → σ
  /-- The renderer is told that commands of a context are waiting. -/
  signal : ContextId → σ → σ
  log : Log → σ → σ

namespace Outlet

variable {σ : Type} (w : Outlet σ)

/-- Pushes a command and signals, unless the queue is batching; a closed queue refuses. -/
def append (c : Command) (s : σ) : Except Fault Unit × σ :=
  let q := w.queue s
  match q.push c with
  | .error fault => (.error fault, w.log (.commandRefused q.context c.kind c.target) s)
  | .ok q' =>
    let s := w.log (.commandAppended q.context c.kind c.target) (w.setQueue q' s)
    (.ok (), if q'.signals then w.signal q.context s else s)

/-- Signals if commands are waiting; says whether they were. -/
def flush (s : σ) : Bool × σ :=
  let q := w.queue s
  if q.isPending then (true, w.signal q.context s) else (false, s)

/-- Takes all waiting commands out of the queue. -/
def drain (s : σ) : Array Command × σ :=
  let q := w.queue s
  let (commands, q') := q.drain
  let s := w.setQueue q' s
  (commands, if commands.isEmpty then s else w.log (.queueDrained q.context commands.size) s)

def setBatching (on : Bool) (s : σ) : σ := w.setQueue ((w.queue s).setBatching on) s

def close (s : σ) : σ := w.setQueue (w.queue s).close s

theorem append_of_closed {c : Command} {s : σ} (h : (w.queue s).closed = true) :
    w.append c s = (.error (.contextDisposed (w.queue s).context),
      w.log (.commandRefused (w.queue s).context c.kind c.target) s) := by
  rw [append, Queue.push_eq_error_iff.2 ⟨h, rfl⟩]

theorem append_of_open {c : Command} {s : σ} (h : (w.queue s).closed = false) :
    (w.append c s).1 = .ok () := by
  rw [append, Queue.push_eq_ok_iff.2 ⟨h, rfl⟩]

theorem flush_fst (s : σ) : (w.flush s).1 = (w.queue s).isPending := by
  rw [flush]
  cases (w.queue s).isPending <;> simp

theorem drain_fst (s : σ) : (w.drain s).1 = (w.queue s).pending := rfl

end Outlet
end ScriptHost

/-
What holds along everything a session does.

A relation between sessions is `Pervasive` if it can be chained and holds along every elementary
change.  Then it holds along every operation of the library (`Along`), provided that it holds along
what is done by those who are called in its course.  So what is to be known of whole scripts is
proved once for each elementary change, and the way through the operations is made only once.

Reporting an error of a script is a change of its own: few operations do so, and there are relations
that hold along all others only.  `Reporting` relations hold along reports too.

Design notes: a class, since the relation is the same all the way through.  What is done on another
thread is a field, not a pair of changes: relations may depend on the thread being the old one again
in the end.  What only bookkeeping is concerned with is left out of the `view` of a session, and a
pervasive relation cannot tell sessions apart that look alike.
-/
import ScriptHost.Proofs.Timeline.Requests

namespace ScriptHost

/-- The effect is a report of a script error. -/
def Effect.isReport : Effect → Bool
  | .log (.scriptError ..) => true
  | _ => false

namespace Session

open Script (Value Invoke)

/-- What of a session is more than bookkeeping. -/
structure View where
  thread : ThreadId
  queues : Array QueueObject
  timelines : Array TimelineObject
  contexts : Array Context
  dispatchers : Array Dispatcher
  runtimes : Array Runtime
  effects : Array Effect

def view (s : Session) : View where
  thread := s.thread
  queues := s.queues
  timelines := s.timelines
  contexts := s.contexts
  dispatchers := s.dispatchers
  runtimes := s.runtimes
  effects := s.effects

/-- A relation that holds along whatever a session does, except for reports of script errors. -/
class Pervasive (R : Session → Session → Prop) : Prop where
  trans {s t u : Session} (h : R s t) (h' : R t u) : R s u
  unseen {s t : Session} (h : t.view = s.view) : R s t
  elsewhere {s t : Session} (thread nextThread : ThreadId)
    (h : R { s with thread, nextThread } t) : R s { t with thread := s.thread }
  emit (e : Effect) (he : e.isReport = false) (s : Session) :
    R s { s with effects := s.effects.push e }
  newTimeline (o : TimelineObject) (s : Session) :
    R s { s with timelines := s.timelines.push o }
  /-- A timeline changes only by what it is asked. -/
  timeline (i : Nat) (q : Timeline.Request) (s : Session) :
    R s (modifyTimeline i (fun t => (t.respond (s.presentTime i) (s.sourceEntries i) q).2) s).2
  newQueue (context : ContextId) (batching : Bool) (sink : Sink) (s : Session) :
    R s { s with queues := s.queues.push { queue := { context, batching }, sink } }
  queue (i : Nat) {s t : Session} {e : Outlet.Event} (h : (quietOutlet i).Step s e t) : R s t
  /-- A context is made around a queue of its name. -/
  newContext (c : Context) (s : Session) (hvalid : c.valid = true) (hqueue : c.queue < s.queues.size)
    (hid : ((quietOutlet c.queue).queue s).context = c.id) :
    R s { s with contexts := s.contexts.push c }
  dispose (i : Nat) (s : Session) : R s (disposeContext i s).2
  newDispatcher (context : Nat) (s : Session) :
    R s { s with dispatchers := s.dispatchers.push { context } }
  roster (i : Nat) (s : Session) {r : Roster NativeListener}
    (h : (s.dispatchers[i]?.getD default).roster.Change r) : R s (setRoster i r s)
  newRuntime (context : Nat) (s : Session) :
    R s { s with runtimes := s.runtimes.push { context } }
  /-- A runtime stays with its context, and its roster only changes as rosters do. -/
  runtime (i : Nat) (f : Runtime → Runtime) (s : Session)
    (hcontext : (f (s.runtimes[i]?.getD default)).context = (s.runtimes[i]?.getD default).context)
    (hroster : (s.runtimes[i]?.getD default).roster.Later
      (f (s.runtimes[i]?.getD default)).roster) : R s (modifyRuntime i f s).2

/-- A relation that holds along whatever a session does. -/
class Reporting (R : Session → Session → Prop) : Prop extends Pervasive R where
  report (context : ContextId) (message : String) (s : Session) :
    R s { s with effects := s.effects.push (.log (.scriptError context message)) }

/-- The relation holds between the states before and after the operation. -/
def Along {α : Type} (R : Session → Session → Prop) (m : SessionM α) : Prop := ∀ s, R s (m s).2

/-- Along every call of a function. -/
def CallsAlong (R : Session → Session → Prop) (call : Invoke SessionM) : Prop :=
  ∀ f args, Along R (call f args).run

/-- Along whatever those do whom a realm calls. -/
structure Realm.Keeps (R : Session → Session → Prop) (r : Realm) : Prop where
  perform (step : Step) : Along R (r.perform step)
  call : CallsAlong R r.call

namespace Along

variable {α β : Type} {R : Session → Session → Prop} [Pervasive R]

section Operations

variable {m : SessionM α}

theorem unseen (h : ∀ s, (m s).2.view = s.view) : Along R m := fun s => Pervasive.unseen (h s)

theorem pure (a : α) : Along R (Pure.pure a : SessionM α) := .unseen fun _ => rfl

theorem get : Along R (MonadState.get : SessionM Session) := .unseen fun _ => rfl

theorem bind {f : α → SessionM β} (hm : Along R m) (hf : ∀ a, Along R (f a)) :
    Along R (m >>= f) :=
  fun s => Pervasive.trans (hm s) (hf (m s).1 (m s).2)

/-- After a change, the operation goes on. -/
theorem after {s t : Session} (hm : Along R m) (h : R s t) : R s (m t).2 :=
  Pervasive.trans h (hm t)

end Operations

section Scripts

variable {m : ScriptM α}

theorem run_pure (a : α) : Along R (Pure.pure a : ScriptM α).run := .pure _

theorem run_throw (v : Value) : Along R (throw v : ScriptM α).run := .pure _

theorem run_lift {m : SessionM α} (hm : Along R m) : Along R (liftM m : ScriptM α).run :=
  .bind hm fun _ => .pure _

theorem run_bind {f : α → ScriptM β} (hm : Along R m.run) (hf : ∀ a, Along R (f a).run) :
    Along R (m >>= f).run := by
  rw [ExceptT.run_bind]
  refine .bind hm fun outcome => ?_
  cases outcome with
  | ok a => exact hf a
  | error v => exact .pure _

theorem run_mapM {f : α → ScriptM β} (hf : ∀ a, Along R (f a).run) (as : List α) :
    Along R (as.mapM f).run := by
  induction as with
  | nil => exact .run_pure []
  | cons a as ih =>
    rw [List.mapM_cons]
    exact .run_bind (hf a) fun _ => .run_bind ih fun _ => .run_pure _

end Scripts

end Along

end Session
end ScriptHost

/-
Properties that pass from reactions to calls.

A property of operations is `Compositional` if operations have it that are put together of such
which have it, and if those have it that do no more than count calls and add effects.  If the
steps of reactions have such a property, then so do the calls that leave the library, since there
is nothing else in them: `Compositional.callService` and `Compositional.notify`.
-/
import ScriptHost.Proofs.Session.Moves

namespace ScriptHost.Session

/-- The property passes from the parts of an operation to the whole. -/
structure Compositional (P : (α : Type) → SessionM α → Prop) : Prop where
  /-- Nothing but the counts of reactions and the effects has changed. -/
  quiet {α : Type} {m : SessionM α}
    (h : ∀ s, ∃ reactings effects, (m s).2 = { s with reactings, effects }) : P α m
  bind {α β : Type} {m : SessionM α} {f : α → SessionM β} (hm : P α m) (hf : ∀ a, P β (f a)) :
    P β (m >>= f)

namespace Compositional

variable {P : (α : Type) → SessionM α → Prop} (hP : Compositional P)
include hP

theorem pure {α : Type} (a : α) : P α (Pure.pure a) := hP.quiet fun _ => ⟨_, _, rfl⟩

theorem get : P Session MonadState.get := hP.quiet fun _ => ⟨_, _, rfl⟩

theorem emit (e : Effect) : P Unit (emit e) := hP.quiet fun _ => ⟨_, _, rfl⟩

theorem services (gate : Nat) : P (ServiceSet Nat) (services gate) :=
  hP.quiet fun _ => ⟨_, _, rfl⟩

theorem withObject {α : Type} (find? : Session → String → Option α) (name : String)
    {act : α → SessionM Answer} (h : ∀ a, P Answer (act a)) :
    P Answer (withObject find? name act) := by
  rw [Session.withObject]
  refine hP.bind hP.get fun s => ?_
  split
  · exact h _
  · exact hP.pure _

variable {p : Performer} (hp : ∀ step, P Answer (p step))
include hp

theorem performAll (steps : List Step) : P Unit (performAll p steps) := by
  induction steps with
  | nil => exact hP.pure ()
  | cons step rest ih => exact hP.bind (hp step) fun _ => hP.bind (hP.emit _) fun _ => ih

theorem react (i : Nat) : P Unit (react p i) := by
  rw [Session.react]
  refine hP.bind hP.get fun s => ?_
  split
  · exact hP.pure ()
  · refine hP.bind (hP.quiet fun _ => ⟨_, _, rfl⟩) fun _ => ?_
    split
    · exact hP.performAll hp _
    · exact hP.pure ()

theorem callService (set : ServiceSet Nat) (service : Service) (context : ContextId)
    (args : List Arg) : P Reply (callService p set service context args) := by
  rw [Session.callService]
  split
  · rw [enterHost]
    refine hP.bind hP.get fun s => ?_
    split
    · exact hP.pure _
    · exact hP.bind (hP.emit _) fun _ => hP.bind (hP.react hp _) fun _ => hP.pure _
  · exact hP.bind (hP.emit _) fun _ => hP.pure _
  · exact hP.pure _

theorem notify (sink : Sink) (context : ContextId) : P Unit (notify p sink context) := by
  cases sink with
  | recording r => exact hP.bind (hP.emit _) fun _ => hP.react hp r
  | host gate =>
    refine hP.bind (hP.services gate) fun set => ?_
    exact hP.bind (hP.callService hp set _ _ _) fun _ => hP.pure _

end Compositional
end ScriptHost.Session

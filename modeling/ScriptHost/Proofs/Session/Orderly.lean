/-
Whatever a session performs, it performs by moves.

To move, provided that one has moved so far, is a relation that holds along every elementary change.
So operations are orderly if those are whom they call (`orderly_perform`).
-/
import ScriptHost.Proofs.Session.Scripts

namespace ScriptHost.Session

open Script (Invoke)

/-- From a state that follows `o`, the other one is reached by moves. -/
def MovesSince (o s t : Session) : Prop := Moves o s → Moves s t

namespace MovesSince

variable {o s t : Session}

theorem of_move (h : Move s t) : MovesSince o s t := fun _ => .single h

theorem of_elsewhere (h : Elsewhere s t) : MovesSince o s t := .of_move (.elsewhere h)

end MovesSince

instance (o : Session) : Reporting (MovesSince o) where
  trans h h' hs := (h hs).trans (h' (hs.trans (h hs)))
  unseen h := .of_elsewhere ⟨congrArg View.queues h, congrArg View.contexts h,
    congrArg View.dispatchers h, congrArg View.runtimes h⟩
  elsewhere := @fun s t thread nextThread h hs => by
    -- the thread is changed for a time, which no move notices
    have hbefore : Move s { s with thread, nextThread } := .elsewhere ⟨rfl, rfl, rfl, rfl⟩
    have hafter : Move t { t with thread := s.thread } := .elsewhere ⟨rfl, rfl, rfl, rfl⟩
    exact (Relation.ReflTransGen.head hbefore (h (hs.tail hbefore))).tail hafter
  emit e _ s := .of_elsewhere ⟨rfl, rfl, rfl, rfl⟩
  newTimeline timeline s := .of_elsewhere ⟨rfl, rfl, rfl, rfl⟩
  timeline i q s := .of_elsewhere ⟨rfl, rfl, rfl, rfl⟩
  newQueue context batching sink s := .of_move (.newQueue context batching sink s)
  queue i _ _ _ h := .of_move (.queue i h)
  newContext c s hvalid hqueue hid := .of_move (.newContext c s hvalid hqueue hid)
  dispose i s := .of_move (.dispose i s)
  newDispatcher context s := .of_move (.newDispatcher context s)
  roster i s _ h := .of_move (.roster i s h)
  newRuntime context s := .of_move (.newRuntime context s)
  runtime i f s hcontext hroster := .of_move (.runtime i f s hcontext hroster)
  report context message s := .of_elsewhere ⟨rfl, rfl, rfl, rfl⟩

/-- Functions are called by moves only. -/
def OrderlyCalls (o : Session) (call : Invoke SessionM) : Prop := ∀ f args, Orderly o (call f args).run

variable {o : Session}

theorem Along.orderly {α : Type} {m : SessionM α} (hm : Along (MovesSince o) m) : Orderly o m := hm

/-- What an orderly operation leads to is reached by moves. -/
theorem Along.moves {α : Type} {m : SessionM α} {a : α} {s t : Session}
    (hm : Along (MovesSince o) m) (hs : Moves o s) (h : m s = (a, t)) : Moves s t := by
  have hmoves := hm s hs
  rwa [h] at hmoves

theorem moves_holding {α : Type} {p : Performer} (c : Context) {f : Holdings → α × Holdings}
    {s t : Session} {a : α} (h : (desk p c).holding f s = (a, t)) : Moves s t :=
  related_holding (R := MovesSince s) c h .refl

namespace Realm

/-- Whoever a realm calls keeps to moves. -/
structure Lawful (o : Session) (r : Realm) : Prop where
  perform (step : Step) : Orderly o (r.perform step)
  call : OrderlyCalls o r.call

theorem Lawful.keeps {r : Realm} (hr : r.Lawful o) : r.Keeps (MovesSince o) :=
  ⟨hr.perform, hr.call⟩

theorem lawful_outermost {p : Performer} (hp : ∀ step, Orderly o (p step)) (runtime : Nat)
    (c : Context) : (outermost p runtime c).Lawful o :=
  have hkeeps := keeps_outermost (R := MovesSince o) hp runtime c
  ⟨hkeeps.perform, hkeeps.call⟩

end Realm

/-- **Whatever a session performs, it performs by moves.** -/
theorem orderly_perform (depth : Nat) (step : Step) : Orderly o (perform depth step) :=
  along_perform (R := MovesSince o) depth step

theorem orderly_showSteps (logs : Bool) (steps : List Step) : Orderly o (showSteps logs steps) := by
  induction steps with
  | nil => exact .pure _
  | cons step rest ih =>
    have hstep : Orderly o (showStep logs step) :=
      .bind (.elsewhere fun _ => ⟨rfl, rfl, rfl, rfl⟩) fun _ =>
        .bind (orderly_perform greatestDepth step) fun _ => .bind .get fun _ => .pure _
    exact .bind hstep fun _ => .bind ih fun _ => .pure _

end ScriptHost.Session

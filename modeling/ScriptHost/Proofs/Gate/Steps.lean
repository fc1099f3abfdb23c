/-
Steps that work with gates.

Seen from one gate, the steps of a session that work with gates and services are runs, whichever
gate or set they name and whatever the entry points of the host do in the course of a call, as
long as the steps of their reactions are runs in turn (`gatekept_performGate`,
`gatekept_performServices`).
-/
import ScriptHost.Proofs.Gate.History
import ScriptHost.Proofs.Session.Reactions

namespace ScriptHost.Session

variable {i : Nat} {s t u : Session}

/-! ### Runs one after the other -/

theorem GateRun.trans {h h' : List GateEvent} (hst : GateRun i s h t) (htu : GateRun i t h' u) :
    GateRun i s (h ++ h') u := by
  induction htu with
  | nil => rwa [List.append_nil]
  | elsewhere _ hgate hpoints ih => exact ih.elsewhere hgate hpoints
  | call _ step ih =>
    rw [← List.append_assoc]
    exact ih.call step

/-- Where gates and entry points are the same, the gate has not been called. -/
theorem gateRun_of_same (hgates : t.gates = s.gates) (hpoints : t.entryPoints = s.entryPoints) :
    GateRun i s [] t :=
  .elsewhere .nil (by rw [hgates]) fun _ _ h => hpoints ▸ h

theorem GateStep.size_gates {j : Nat} {e : GateEvent} (step : GateStep j s e t) :
    t.gates.size = s.gates.size := by
  rcases step.changes.2 with hgates | ⟨g, hgates⟩
  · rw [hgates]
  · rw [hgates, Array.size_setIfInBounds]

/-- Seen from one gate, a call on any gate is at most a call. -/
theorem GateStep.run {j : Nat} {e : GateEvent} (step : GateStep j s e t) :
    ∃ h, GateRun i s h t := by
  by_cases hij : j = i
  · subst hij
    exact ⟨_, .call .nil step⟩
  · obtain ⟨hpoints, hgates⟩ := step.changes
    refine ⟨[], .elsewhere .nil ?_ fun _ _ h => hpoints ▸ h⟩
    rcases hgates with hgates | ⟨g, hgates⟩
    · rw [hgates]
    · rw [hgates, Array.getElem?_setIfInBounds_ne hij]

/-- A gate stays where it is. -/
theorem GateRun.lt_size {h : List GateEvent} (run : GateRun i s h u) (hi : i < s.gates.size) :
    i < u.gates.size := by
  induction run with
  | nil => exact hi
  | elsewhere _ hgate _ ih =>
    rw [Array.getElem?_eq_getElem ih] at hgate
    exact (Array.getElem?_eq_some_iff.mp hgate).1
  | call _ step ih => rwa [step.size_gates]

/-! ### How operations are put together -/

/-- Seen from the gate, whatever the operation does is a run. -/
def Gatekept {α : Type} (i : Nat) (m : SessionM α) : Prop :=
  ∀ s, i < s.gates.size → ∃ h, GateRun i s h (m s).2

namespace Gatekept

variable {α β : Type} {m : SessionM α}

theorem of_same (h : ∀ s, (m s).2.gates = s.gates ∧ (m s).2.entryPoints = s.entryPoints) :
    Gatekept i m :=
  fun s _ => ⟨[], gateRun_of_same (h s).1 (h s).2⟩

theorem pure (a : α) : Gatekept i (Pure.pure a : SessionM α) := .of_same fun _ => ⟨rfl, rfl⟩

theorem get : Gatekept i (MonadState.get : SessionM Session) := .of_same fun _ => ⟨rfl, rfl⟩

theorem bind {f : α → SessionM β} (hm : Gatekept i m) (hf : ∀ a, Gatekept i (f a)) :
    Gatekept i (m >>= f) := by
  intro s hi
  obtain ⟨h, hrun⟩ := hm s hi
  obtain ⟨h', hrun'⟩ := hf (m s).1 (m s).2 (hrun.lt_size hi)
  exact ⟨h ++ h', hrun.trans hrun'⟩

end Gatekept

theorem compositional_gatekept (i : Nat) : Compositional fun _ => Gatekept i where
  quiet h := .of_same fun s => by
    obtain ⟨_, _, hs⟩ := h s
    rw [hs]
    exact ⟨rfl, rfl⟩
  bind := .bind

/-! ### Objects -/

theorem gatekept_changeHoldings (f : Holdings → Holdings) : Gatekept i (changeHoldings f) :=
  .of_same fun _ => ⟨rfl, rfl⟩

theorem gatekept_releaseContexts (contexts : List Nat) : Gatekept i (releaseContexts contexts) := by
  induction contexts with
  | nil => exact .pure ()
  | cons context rest ih =>
    refine .bind ?_ fun _ => ih
    rw [releaseContext]
    refine .bind .get fun s => ?_
    split
    · exact .pure ()
    · split
      · exact .pure ()
      · exact gatekept_changeHoldings _

theorem gatekept_releaseRef (r : Ref) : Gatekept i (releaseRef r) := by
  rw [releaseRef]
  refine .bind .get fun s => ?_
  split
  · exact .pure ()
  · refine .bind ?_ fun _ => gatekept_releaseContexts _
    cases r with
    | table t => exact gatekept_changeHoldings _
    | cache c => exact gatekept_changeHoldings _
    | style o => exact gatekept_changeHoldings _
    | runtime j =>
      refine .bind .get fun _ => .bind (gatekept_changeHoldings _) fun _ => ?_
      exact .of_same fun _ => ⟨rfl, rfl⟩
    | _ => exact .pure ()

theorem gatekept_bind (name : String) (r : Ref) : Gatekept i (Session.bind name r) := by
  rw [Session.bind]
  refine .bind .get fun s => ?_
  refine .bind (.of_same fun _ => ⟨rfl, rfl⟩) fun _ => ?_
  split
  · exact gatekept_releaseRef _
  · exact .pure ()

/-! ### Gates -/

theorem gatekept_freshThread : Gatekept i freshThread := .of_same fun _ => ⟨rfl, rfl⟩

/-- A new gate is another one. -/
theorem gatekept_addGate : Gatekept i addGate := by
  refine fun s hi => ⟨[], .elsewhere .nil ?_ fun _ _ h => h⟩
  show (s.gates.push default)[i]? = s.gates[i]?
  rw [Array.getElem?_push, if_neg (Nat.ne_of_lt hi)]

/-- An entry point is there when it is registered. -/
theorem gatekept_registerNew (j : Nat) (service : Service) (answering : Answering)
    (reaction : Reaction Step) :
    Gatekept i (do registerService j service (← addEntryPoint service answering reaction)) := by
  intro s _
  have hpoint : (addEntryPoint service answering reaction s).2.entryPoints[
      (addEntryPoint service answering reaction s).1]? =
      some { service, answering, reacting := s.reactings.size } :=
    Array.getElem?_push_size
  have hadd : GateRun i s [] (addEntryPoint service answering reaction s).2 := by
    refine .elsewhere .nil rfl fun k point hk => ?_
    show (s.entryPoints.push _)[k]? = some point
    rw [Array.getElem?_push, if_neg, hk]
    exact Nat.ne_of_lt (Array.getElem?_eq_some_iff.mp hk).1
  obtain ⟨h, hrun⟩ := (GateStep.register (i := j) service _ hpoint).run (i := i)
  exact ⟨_, hadd.trans hrun⟩

theorem gatekept_captureThread (j : Nat) (thread : ThreadId) :
    Gatekept i (captureThread j thread) :=
  fun s _ => (GateStep.capture (i := j) thread s).run

theorem gatekept_servicesFor (j : Nat) (thread : ThreadId) : Gatekept i (servicesFor j thread) :=
  fun s _ => (GateStep.ask (i := j) thread s).run

theorem gatekept_performGate (a : GateAction Step) : Gatekept i (performGate a) := by
  have hwhole := compositional_gatekept i
  cases a with
  | new id => exact .bind gatekept_addGate fun _ => .bind (gatekept_bind _ _) fun _ => .pure _
  | register on service answering reaction =>
    exact hwhole.withObject _ _ fun j => gatekept_registerNew j service answering reaction
  | capture on capturer =>
    refine hwhole.withObject _ _ fun j => ?_
    cases capturer with
    | main => exact .bind .get fun _ => gatekept_captureThread j _
    | fresh => exact .bind gatekept_freshThread fun _ => gatekept_captureThread j _
    | kept thread => exact hwhole.withObject _ _ fun t => gatekept_captureThread j t
  | newThread id =>
    exact .bind gatekept_freshThread fun _ => .bind (gatekept_bind _ _) fun _ => .pure _
  | captured on =>
    exact hwhole.withObject _ _ fun j => .bind (.bind .get fun _ => .pure _) fun _ => .pure _

/-! ### Services -/

theorem gatekept_servicesOf (on : String) (thread : Option String) (caller : Caller) :
    Gatekept i (servicesOf on thread caller) := by
  rw [servicesOf]
  refine .bind .get fun s => ?_
  split
  · exact .pure _
  · exact .pure _
  · split
    · split
      · exact .bind (gatekept_servicesFor _ _) fun _ => .pure _
      · exact .pure _
    · exact .bind (.bind .get fun _ => gatekept_servicesFor _ _) fun _ => .pure _
    · refine .bind gatekept_freshThread fun _ => ?_
      exact .bind (gatekept_servicesFor _ _) fun _ => .pure _

theorem gatekept_performServices {p : Performer} (hp : ∀ step, Gatekept i (p step))
    (a : ServiceAction) : Gatekept i (performServices p a) := by
  rw [performServices]
  refine .bind (gatekept_servicesOf _ _ _) fun found => ?_
  cases found with
  | none => exact .pure _
  | some set =>
    have hcall := (compositional_gatekept i).callService hp set
    dsimp only
    cases a.call with
    | keep id => exact .bind (gatekept_bind _ _) fun _ => .pure _
    | reachable => exact .pure _
    | call service args => exact .bind (hcall _ _ _) fun _ => .pure _
    | notify service args => exact .bind (hcall _ _ _) fun _ => .pure _
    | invokeModule module method params =>
      exact .bind (.bind (hcall _ _ _) fun _ => .pure _) fun _ => .pure _
    | devicePixelRatio => exact .bind (hcall _ _ _) fun _ => .pure _
    | platformBrightness => exact .bind (hcall _ _ _) fun _ => .pure _

end ScriptHost.Session

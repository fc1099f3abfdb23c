/-
The host as the renderer.

A context without a sink of its own signals through the gate: the host is asked for an update, and
that only on the captured thread.  A `Course` follows the calls on the queue of such a context, on
whatever thread each of them is made, among what is asked of the gate.

* `Course.fits` — what each call returned, and what became visible of its signal;
* `Course.rung` — how often the host was asked for an update, told from the history;
* `Course.replies` — results and contents of the queue depend on the calls alone;
* `Course.signals` — all of it together, for contexts that are made with the gate as their sink;
* `Course.complete`, `Course.elsewhere_onThread` — complete calls, also on another thread, are
  courses up to where the host reacts;
* `Course.make_outlet` — and so what they return and ask the host for is told, where it does nothing
  more than hear it.

Design notes: a signal that does not reach the host is no event of the queue, so nothing of the
gate shows in what the queue does.  That is why two courses with the same calls can be compared
without a word about what became of their signals.  As in an `Outlet.Run`, a call is taken up to the
place where the host reacts, and what the host does there follows as calls of its own.
-/
import ScriptHost.Proofs.Command.Signals
import ScriptHost.Proofs.Gate.Entering
import ScriptHost.Proofs.Session.Registration

namespace ScriptHost

namespace Queue

/-- What calls one after the other return. -/
def answers : Queue → List Outlet.Call → List Outlet.Event
  | _, [] => []
  | q, call :: calls => q.answer call :: (q.after call).answers calls

theorem answers_concat (q : Queue) (calls : List Outlet.Call) (call : Outlet.Call) :
    q.answers (calls ++ [call]) = q.answers calls ++ [(calls.foldl after q).answer call] := by
  induction calls generalizing q with
  | nil => rfl
  | cons first calls ih => exact congrArg (q.answer first :: ·) (ih (q.after first))

end Queue

/-- The arguments with which the host is asked for an update of a context. -/
def Effect.ring? (k : ContextId) : Effect → Option (List Arg)
  | .host .requestBatchUpdate context args => if context = k then some args else none
  | _ => none

namespace Session

/-- The updates of a context for which the host has been asked. -/
def rung (s : Session) (k : ContextId) : List (List Arg) :=
  s.effects.toList.filterMap (Effect.ring? k)

/-! ### Courses -/

/-- A queue of a session whose signals go to the host; calls end where the host reacts. -/
def hostOutlet (gate i : Nat) : Outlet Session :=
  { quietOutlet i with
    signal := fun context s => approach gate .requestBatchUpdate context [] s }

/-- What concerns neither the queue nor the gate, and does not ask the host for an update. -/
structure Still (gate i : Nat) (k : ContextId) (s t : Session) : Prop where
  queue : t.queues[i]? = s.queues[i]?
  gate : t.gates[gate]? = s.gates[gate]?
  points : ∀ (place : Nat) (point : EntryPoint),
    s.entryPoints[place]? = some point → t.entryPoints[place]? = some point
  rung : t.rung k = s.rung k

/-- A call on the gate, or one on the queue: the thread on which it was made, the queue that it
found, what it returned and what became visible of its signal. -/
inductive Occurrence where
  | gate (e : GateEvent)
  | call (thread : ThreadId) (call : Outlet.Call) (queue : Queue) (result : Outlet.Event)
      (told : List Effect)

/-- A run of a session, with what happened to a gate and to a queue that signals through it. -/
inductive Course (gate i : Nat) (k : ContextId) (s : Session) : List Occurrence → Session → Prop
  | nil : Course gate i k s [] s
  | elsewhere {h : List Occurrence} {t u : Session} (run : Course gate i k s h t)
      (still : Still gate i k t u) : Course gate i k s h u
  | gate {h : List Occurrence} {e : GateEvent} {t u : Session} (run : Course gate i k s h t)
      (step : GateStep gate t e u) : Course gate i k s (h ++ [.gate e]) u
  | call {h : List Occurrence} {t : Session} {told : List Effect} (run : Course gate i k s h t)
      (call : Outlet.Call)
      (htold : ((hostOutlet gate i).make call t).2.effects.toList =
        ((quietOutlet i).make call t).2.effects.toList ++ told) :
      Course gate i k s (h ++ [.call t.thread call ((quietOutlet i).queue t)
        ((hostOutlet gate i).make call t).1 told]) ((hostOutlet gate i).make call t).2

namespace Occurrence

/-- The call on the gate. -/
def gate? : Occurrence → Option GateEvent
  | gate e => some e
  | call .. => none

/-- The call on the queue. -/
def call? : Occurrence → Option Outlet.Call
  | gate _ => none
  | call _ c _ _ _ => some c

/-- What the call on the queue returned. -/
def result? : Occurrence → Option Outlet.Event
  | gate _ => none
  | call _ _ _ r _ => some r

end Occurrence

/-- What happened to the gate. -/
def gateEvents (h : List Occurrence) : List GateEvent := h.filterMap Occurrence.gate?

/-- What was asked of the queue. -/
def calls (h : List Occurrence) : List Outlet.Call := h.filterMap Occurrence.call?

/-- What the queue returned. -/
def results (h : List Occurrence) : List Outlet.Event := h.filterMap Occurrence.result?

/-- What becomes visible of a signal on a thread, after such a history of the gate: the host is
asked once, if the thread has been captured and the service was offered before. -/
def signalled (before : List GateEvent) (thread : ThreadId) (k : ContextId) : List Effect :=
  if captor before = some thread then
    match offered before .requestBatchUpdate with
    | some _ => [.host .requestBatchUpdate k []]
    | none => [.log (.serviceMissing .requestBatchUpdate)]
  else []

/-- The number of signals that reach the host, after such a history of the gate. -/
def reaching (before : List GateEvent) : List Occurrence → Nat
  | [] => 0
  | .gate e :: h => reaching (before ++ [e]) h
  | .call thread call q _ _ :: h =>
    (if (q.due call).isSome ∧ captor before = some thread ∧
      (offered before .requestBatchUpdate).isSome then 1 else 0) + reaching before h

theorem reaching_append (before : List GateEvent) (h h' : List Occurrence) :
    reaching before (h ++ h') = reaching before h + reaching (before ++ gateEvents h) h' := by
  induction h generalizing before with
  | nil => simp [reaching, gateEvents]
  | cons x h ih =>
    cases x with
    | gate e => simpa [reaching, gateEvents, Occurrence.gate?] using ih (before ++ [e])
    | call thread call q result told =>
      simp only [List.cons_append, reaching, ih, gateEvents, Occurrence.gate?,
        List.filterMap_cons, Nat.add_assoc]

/-! ### One call -/

section Make

variable {gate i : Nat} {k : ContextId} {s t : Session} {call : Outlet.Call} {e : GateEvent}

theorem rung_log (l : Log) (s : Session) :
    rung { s with effects := s.effects.push (.log l) } k = s.rung k := by
  simp [rung, Effect.ring?]

/-- What a call changes without a signal: the queue, and the log. -/
structure Muted (i : Nat) (k : ContextId) (s t : Session) : Prop where
  rung : t.rung k = s.rung k
  sink : t.queues[i]?.map (·.sink) = s.queues[i]?.map (·.sink)
  rest : t = { s with queues := t.queues, effects := t.effects }

theorem Muted.with_effects (h : Muted i k s t) (effects : Array Effect) :
    { t with effects } = { s with queues := t.queues, effects } :=
  congrArg (fun u : Session => { u with effects }) h.rest

theorem quiet_make (i : Nat) (k : ContextId) (call : Outlet.Call) (s : Session) :
    Muted i k s ((quietOutlet i).make call s).2 := by
  refine (Outlet.step_make (quietOutlet i) call s).preserves (P := Muted i k s)
    (fun q t ht => ⟨ht.rung, ?_, ?_⟩) (fun l t ht => ⟨(rung_log l t).trans ht.rung, ht.sink, ?_⟩)
    ⟨rfl, rfl, rfl⟩
  · rw [← ht.sink]
    show ((t.queues.modify i _)[i]?).map _ = _
    rw [Array.getElem?_modify, if_pos rfl]
    cases t.queues[i]? <;> rfl
  · rw [ht.rest]
    rfl
  · exact ht.with_effects _

/-- Calls on a gate leave the queues alone and write to nothing but the log. -/
theorem GateStep.aside (step : GateStep gate s e t) :
    t.queues = s.queues ∧ t.rung k = s.rung k := by
  cases step with
  | register service place hpoint =>
    rw [registerService, bind_apply]
    rcases (gateAt gate s).1.register service place with fault | ⟨_ | _, g⟩
    · exact ⟨rfl, rung_log _ s⟩
    · exact ⟨rfl, rfl⟩
    · exact ⟨rfl, rung_log _ _⟩
  | capture thread =>
    rw [captureThread, bind_apply]
    cases (gateAt gate s).1.capture thread with
    | error fault => exact ⟨rfl, rfl⟩
    | ok g => exact ⟨rfl, rung_log _ s⟩
  | ask thread => exact ⟨rfl, rfl⟩

/-- A call ends where it would end without a signal, or where the host has been approached. -/
theorem make_hostOutlet (gate i : Nat) (call : Outlet.Call) (s : Session) :
    ((hostOutlet gate i).make call s).2 =
      match ((quietOutlet i).queue s).due call with
      | none => ((quietOutlet i).make call s).2
      | some n =>
        approach gate .requestBatchUpdate n.context [] ((quietOutlet i).make call s).2 := by
  cases hdue : ((quietOutlet i).queue s).due call with
  | none => exact Outlet.make_snd_of_not_due (w := hostOutlet gate i) hdue
  | some n => exact Outlet.make_snd_of_due (w := hostOutlet gate i) hdue

/-- What a call adds to what is visible, apart from the call itself. -/
theorem told_exists (gate i : Nat) (call : Outlet.Call) (s : Session) :
    ∃ told, ((hostOutlet gate i).make call s).2.effects.toList =
      ((quietOutlet i).make call s).2.effects.toList ++ told := by
  rw [make_hostOutlet]
  cases ((quietOutlet i).queue s).due call with
  | none => exact ⟨[], (List.append_nil _).symm⟩
  | some n => exact ⟨_, Array.toList_appendList⟩

/-- Whatever becomes of its signal, a call makes of the queue what it makes of it without. -/
theorem queues_make (gate i : Nat) (call : Outlet.Call) (s : Session) :
    ((hostOutlet gate i).make call s).2.queues = ((quietOutlet i).make call s).2.queues := by
  rw [make_hostOutlet]
  cases ((quietOutlet i).queue s).due call <;> rfl

theorem gate_make (gate i : Nat) (call : Outlet.Call) (s : Session) :
    let t := ((hostOutlet gate i).make call s).2
    t.gates = s.gates ∧ t.entryPoints = s.entryPoints := by
  have hrest := (quiet_make i 0 call s).rest
  have hgates := congrArg Session.gates hrest
  have hpoints := congrArg Session.entryPoints hrest
  rw [make_hostOutlet]
  cases ((quietOutlet i).queue s).due call with
  | none => exact ⟨hgates, hpoints⟩
  | some n => exact ⟨hgates, hpoints⟩

end Make

/-- Every entry point is registered for the service whose name it has. -/
def Named (h : List GateEvent) : Prop :=
  ∀ service place point answer, .register service place point answer ∈ h → point.service = service

theorem Named.left {h h' : List GateEvent} (hh : Named (h ++ h')) : Named h :=
  fun service place point answer hmem =>
    hh service place point answer (List.mem_append_left h' hmem)

/-- What becomes visible of the signal of a call depends on what was asked of the gate before. -/
theorem told_eq {gate i : Nat} {s₀ s : Session} {before : List GateEvent} {call : Outlet.Call}
    {told : List Effect} (hnew : s₀.gates[gate]? = some {}) (run : GateRun gate s₀ before s)
    (hnamed : Named before)
    (htold : ((hostOutlet gate i).make call s).2.effects.toList =
      ((quietOutlet i).make call s).2.effects.toList ++ told) :
    told = if (((quietOutlet i).queue s).due call).isSome then
      signalled before s.thread ((quietOutlet i).queue s).context else [] := by
  rw [make_hostOutlet] at htold
  cases hdue : ((quietOutlet i).queue s).due call with
  | none =>
    rw [hdue] at htold
    exact List.self_eq_append_right.mp htold
  | some n =>
    rw [hdue] at htold
    -- the host is approached when the call has changed the queue, which the gate does not notice
    have hrest := (quiet_make i 0 call s).rest
    have hthread := congrArg Session.thread hrest
    have hrun : GateRun gate s₀ before ((quietOutlet i).make call s).2 :=
      run.elsewhere (by rw [hrest]) fun place point hpoint => by rwa [hrest]
    have hentering := hrun.entering hnew .requestBatchUpdate n.context []
    rw [hthread] at hentering
    have hadded : told = _ := (List.append_cancel_left (Array.toList_appendList.symm.trans htold)).symm
    rw [hadded, hentering, Option.isSome_some, if_pos rfl, signalled, Queue.context_of_due hdue]
    refine if_congr Iff.rfl ?_ rfl
    cases ho : offered before .requestBatchUpdate with
    | none => rfl
    | some offer =>
      obtain ⟨place, point⟩ := offer
      obtain ⟨answer, hmem⟩ := mem_of_offered ho
      dsimp only
      rw [hnamed _ _ _ _ hmem]

theorem filterMap_signalled (before : List GateEvent) (thread : ThreadId) (k : ContextId) :
    (signalled before thread k).filterMap (Effect.ring? k) =
      List.replicate (if captor before = some thread ∧
        (offered before .requestBatchUpdate).isSome then 1 else 0) [] := by
  rw [signalled]
  by_cases hc : captor before = some thread
  · rw [if_pos hc]
    cases offered before .requestBatchUpdate with
    | none => simp [Effect.ring?]
    | some offer => simp [hc, Effect.ring?]
  · simp [hc]

/-! ### What a course does -/

namespace Course

variable {gate i : Nat} {k : ContextId} {s₀ s t u : Session} {h₀ : List GateEvent}
  {h : List Occurrence}

theorem trans {h' : List Occurrence} (hst : Course gate i k s h t)
    (htu : Course gate i k t h' u) : Course gate i k s (h ++ h') u := by
  induction htu with
  | nil => rwa [List.append_nil]
  | elsewhere _ still ih => exact .elsewhere ih still
  | gate _ step ih => exact List.append_assoc h _ _ ▸ .gate ih step
  | call _ call htold ih => exact List.append_assoc h _ _ ▸ .call ih call htold

/-- Seen from the gate, a course is a run. -/
theorem gateRun (before : GateRun gate s₀ h₀ s) (run : Course gate i k s h u) :
    GateRun gate s₀ (h₀ ++ gateEvents h) u := by
  induction run with
  | nil => exact (List.append_nil h₀).symm ▸ before
  | elsewhere _ still ih => exact .elsewhere ih still.gate still.points
  | @gate h e _ _ _ step ih =>
    rw [gateEvents, List.filterMap_append, ← List.append_assoc]
    exact ih.call step
  | @call h v told _ call htold ih =>
    obtain ⟨hgates, hpoints⟩ := gate_make gate i call v
    rw [gateEvents, List.filterMap_append, ← List.append_assoc]
    refine (List.append_nil (h₀ ++ gateEvents h)).symm ▸ ih.elsewhere ?_ fun place point hpoint => ?_
    · rw [hgates]
    · rwa [hpoints]

/-- The queue is there, and what it holds and has returned depends on the calls alone. -/
theorem replies (run : Course gate i k s h u) (hi : i < s.queues.size) :
    i < u.queues.size ∧
      (quietOutlet i).queue u = (calls h).foldl Queue.after ((quietOutlet i).queue s) ∧
      results h = ((quietOutlet i).queue s).answers (calls h) := by
  induction run with
  | nil => exact ⟨hi, rfl, rfl⟩
  | elsewhere _ still ih =>
    obtain ⟨hv, hqueue, hresults⟩ := ih
    refine ⟨?_, ?_, hresults⟩
    · have hqueue := still.queue.trans (Array.getElem?_eq_getElem hv)
      exact (Array.getElem?_eq_some_iff.mp hqueue).1
    · rw [← hqueue]
      exact congrArg (fun o : Option QueueObject => (o.getD default).queue) still.queue
  | gate _ step ih =>
    obtain ⟨hv, hqueue, hresults⟩ := ih
    obtain ⟨hqueues, -⟩ := step.aside (k := k)
    rw [calls, results, List.filterMap_append, List.filterMap_append]
    refine ⟨hqueues ▸ hv, ?_, (List.append_nil _).trans (hresults.trans ?_)⟩
    · rw [List.foldl_append]
      refine Eq.trans ?_ hqueue
      exact congrArg (fun queues : Array QueueObject => (queues[i]?.getD default).queue) hqueues
    · exact congrArg _ (List.append_nil _).symm
  | @call h v told _ call htold ih =>
    obtain ⟨hv, hqueue, hresults⟩ := ih
    have hholds := holds_quietOutlet_iff.mpr hv
    have hstep := Outlet.step_make (quietOutlet i) call v
    have hqueues := queues_make gate i call v
    rw [calls, results, List.filterMap_append, List.filterMap_append]
    refine ⟨?_, ?_, ?_⟩
    · rw [hqueues]
      exact holds_quietOutlet_iff.mp (hstep.holds (quietOutlet_lawful i) hholds)
    · rw [List.foldl_append]
      show _ = Queue.after ((calls h).foldl Queue.after _) call
      rw [← hqueue, Queue.after, ← hstep.queue_eq (quietOutlet_lawful i) hholds]
      exact congrArg (fun queues : Array QueueObject => (queues[i]?.getD default).queue) hqueues
    · show results h ++ [_] = Queue.answers _ (calls h ++ [call])
      rw [Queue.answers_concat, ← hqueue, ← hresults, Outlet.make_fst]
      rfl

/-- A course passes a state at every call. -/
theorem before (run : Course gate i k s h u) {h₁ h₂ : List Occurrence} {thread : ThreadId}
    {call : Outlet.Call} {q : Queue} {result : Outlet.Event} {told : List Effect}
    (hh : h = h₁ ++ .call thread call q result told :: h₂) :
    ∃ v, Course gate i k s h₁ v ∧ thread = v.thread ∧ q = (quietOutlet i).queue v ∧
      result = ((hostOutlet gate i).make call v).1 ∧
      ((hostOutlet gate i).make call v).2.effects.toList =
        ((quietOutlet i).make call v).2.effects.toList ++ told := by
  induction run generalizing h₂ with
  | nil => exact absurd hh (by simp)
  | elsewhere _ _ ih => exact ih hh
  | gate run step ih =>
    rcases List.eq_nil_or_concat h₂ with rfl | ⟨h₂, last, rfl⟩
    · obtain ⟨-, hlast⟩ := List.append_inj' hh rfl
      exact absurd (List.singleton_inj.mp hlast) nofun
    · rw [List.concat_eq_append, ← List.cons_append, ← List.append_assoc] at hh
      exact ih (List.append_inj' hh rfl).1
  | @call _ v _ run _ htold ih =>
    -- the call is the last one, or it was made before
    rcases List.eq_nil_or_concat h₂ with rfl | ⟨h₂, last, rfl⟩
    · obtain ⟨rfl, hlast⟩ := List.append_inj' hh rfl
      cases List.singleton_inj.mp hlast
      exact ⟨v, run, rfl, rfl, rfl, htold⟩
    · rw [List.concat_eq_append, ← List.cons_append, ← List.append_assoc] at hh
      exact ih (List.append_inj' hh rfl).1

/-- Every call returns what the calls before it demand, and what becomes visible of its signal
depends on its thread and on what was asked of the gate before. -/
theorem fits (hnew : s₀.gates[gate]? = some {}) (before : GateRun gate s₀ h₀ s)
    (hi : i < s.queues.size) (run : Course gate i k s h u)
    (hnamed : Named (h₀ ++ gateEvents h)) {h₁ h₂ : List Occurrence} {thread : ThreadId}
    {call : Outlet.Call} {q : Queue} {result : Outlet.Event} {told : List Effect}
    (hh : h = h₁ ++ .call thread call q result told :: h₂) :
    q = (calls h₁).foldl Queue.after ((quietOutlet i).queue s) ∧ result = q.answer call ∧
      told = if (q.due call).isSome then
        signalled (h₀ ++ gateEvents h₁) thread ((quietOutlet i).queue s).context else [] := by
  obtain ⟨v, hrun, rfl, rfl, rfl, htold⟩ := run.before hh
  obtain ⟨-, hqueue, -⟩ := hrun.replies hi
  refine ⟨hqueue, Outlet.make_fst call v, ?_⟩
  have hnamed' : Named (h₀ ++ gateEvents h₁) := by
    rw [hh, gateEvents, List.filterMap_append, ← List.append_assoc] at hnamed
    exact hnamed.left
  rw [told_eq hnew (hrun.gateRun before) hnamed' htold, hqueue, Queue.context_foldl_after]

/-- The host is asked for an update once for each signal that reaches it. -/
theorem rung (hnew : s₀.gates[gate]? = some {}) (before : GateRun gate s₀ h₀ s)
    (hi : i < s.queues.size) (hcontext : ((quietOutlet i).queue s).context = k)
    (run : Course gate i k s h u) (hnamed : Named (h₀ ++ gateEvents h)) :
    u.rung k = s.rung k ++ List.replicate (reaching h₀ h) [] := by
  induction run with
  | nil => exact (List.append_nil _).symm
  | elsewhere _ still ih => rw [still.rung, ih hnamed]
  | gate _ step ih =>
    rw [gateEvents, List.filterMap_append, ← List.append_assoc] at hnamed
    rw [step.aside.2, ih hnamed.left, reaching_append]
    rfl
  | @call h v told run call htold ih =>
    rw [gateEvents, List.filterMap_append, ← List.append_assoc] at hnamed
    obtain ⟨-, hqueue, -⟩ := run.replies hi
    have hk : ((quietOutlet i).queue v).context = k := by
      rw [hqueue, Queue.context_foldl_after, hcontext]
    have htold' := told_eq hnew (run.gateRun before) hnamed.left htold
    have hquiet := (quiet_make i k call v).rung
    rw [Session.rung, htold, List.filterMap_append, reaching_append, List.replicate_add,
      ← List.append_assoc, ← ih hnamed.left, ← hquiet, Session.rung]
    congr 1
    rw [htold', hk, reaching, reaching, Nat.add_zero]
    by_cases hdue : (((quietOutlet i).queue v).due call).isSome
    · simp only [hdue, if_true, true_and]
      exact filterMap_signalled _ _ k
    · simp [hdue]

end Course

/-! ### Complete calls -/

section Complete

variable {gate i : Nat} {k : ContextId} {s t : Session} {h : List Occurrence} {p : Performer}

/-- Where the sink of a queue is the host, a signal approaches it, and then the host may react. -/
theorem signal_outlet (hsink : s.queues[i]?.map (·.sink) = some (.host gate))
    (context : ContextId) :
    (outlet p i).signal context s = (hostOutlet gate i).signal context s ∨
      ∃ r, (outlet p i).signal context s =
        (react p r ((hostOutlet gate i).signal context s)).2 := by
  obtain ⟨o, ho, hhost⟩ := Option.map_eq_some_iff.mp hsink
  have hnotify : (outlet p i).signal context s = (notify p (.host gate) context s).2 := by
    show (notify p (s.queues[i]?.getD default).sink context s).2 = _
    rw [ho, Option.getD_some, hhost]
  rw [hnotify]
  exact callServices_snd p gate .requestBatchUpdate context [] s

/-- A complete call is a course up to the place where the host reacts, if it is asked. -/
theorem Course.complete (hsink : s.queues[i]?.map (·.sink) = some (.host gate))
    (call : Outlet.Call) :
    ∃ told v, Course gate i k s
        [.call s.thread call ((quietOutlet i).queue s) ((outlet p i).make call s).1 told] v ∧
      v.queues[i]?.map (·.sink) = some (.host gate) ∧
      v = { s with queues := v.queues, effects := v.effects } ∧
      (((outlet p i).make call s).2 = v ∨ ∃ r, ((outlet p i).make call s).2 = (react p r v).2) := by
  obtain ⟨told, htold⟩ := told_exists gate i call s
  have hcall : Course gate i k s ([] ++ [_]) _ := .call .nil call htold
  have hfst : ((hostOutlet gate i).make call s).1 = ((outlet p i).make call s).1 :=
    (Outlet.make_fst call s).trans (Outlet.make_fst (w := outlet p i) call s).symm
  rw [hfst] at hcall
  have hmuted := quiet_make i 0 call s
  have hquiet : (((quietOutlet i).make call s).2).queues[i]?.map (·.sink) = some (.host gate) :=
    hmuted.sink.trans hsink
  cases hdue : ((quietOutlet i).queue s).due call with
  | none =>
    rw [Outlet.make_snd_of_not_due (w := outlet p i) hdue]
    rw [Outlet.make_snd_of_not_due (w := hostOutlet gate i) hdue] at hcall
    exact ⟨told, _, hcall, hquiet, hmuted.rest, Or.inl rfl⟩
  | some n =>
    rw [Outlet.make_snd_of_due (w := hostOutlet gate i) hdue] at hcall
    rw [Outlet.make_snd_of_due (w := outlet p i) hdue]
    exact ⟨told, _, hcall, hquiet, hmuted.with_effects _,
      signal_outlet (p := p) hquiet n.context⟩

/-- What is a course on a thread that nobody has seen yet is one in the midst of another thread. -/
theorem Course.elsewhere_onThread {α : Type} {m : SessionM α}
    (hm : Course gate i k
      { s with thread := s.nextThread, nextThread := s.nextThread + 1 } h
      (m { s with thread := s.nextThread, nextThread := s.nextThread + 1 }).2) :
    Course gate i k s h (onThread .elsewhere m s).2 := by
  have hleave : Course gate i k s []
      { s with thread := s.nextThread, nextThread := s.nextThread + 1 } :=
    .elsewhere .nil ⟨rfl, rfl, fun _ _ => id, rfl⟩
  exact .elsewhere (hleave.trans hm) ⟨rfl, rfl, fun _ _ => id, rfl⟩

/-- A queue signals through the gate, and the host does nothing when it is asked. -/
structure Idle (gate i : Nat) (s : Session) : Prop where
  sink : s.queues[i]?.map (·.sink) = some (.host gate)
  acts : ∀ (r : Nat) (reacting : Reacting), s.reactings[r]? = some reacting →
    reacting.reaction.acts = []

/-- Such a host only counts how often it is asked. -/
theorem Idle.react (hs : Idle gate i s) (p : Performer) (r : Nat) :
    Idle gate i (react p r s).2 ∧ Still gate i k s (react p r s).2 ∧
      (react p r s).2 = { s with reactings := (react p r s).2.reactings } := by
  rw [Session.react, get_bind_apply]
  cases hr : s.reactings[r]? with
  | none => exact ⟨hs, ⟨rfl, rfl, fun _ _ => id, rfl⟩, rfl⟩
  | some reacting =>
    have hcounted : Idle gate i { s with
        reactings := s.reactings.modify r fun r => { r with calls := r.calls + 1 } } := by
      refine ⟨hs.sink, fun j reacting' hj => ?_⟩
      rw [Array.getElem?_modify] at hj
      split at hj
      · obtain ⟨before, hbefore, rfl⟩ := Option.map_eq_some_iff.mp hj
        exact hs.acts j before hbefore
      · exact hs.acts j reacting' hj
    have hnothing : ∀ u, (if reacting.calls < reacting.reaction.times
        then performAll p reacting.reaction.acts else Pure.pure () : SessionM Unit) u = ((), u) := by
      intro u
      rw [hs.acts r reacting hr]
      split <;> rfl
    dsimp only
    rw [bind_apply, hnothing]
    exact ⟨hcounted, ⟨rfl, rfl, fun _ _ => id, rfl⟩, rfl⟩

theorem Idle.lt (hs : Idle gate i s) : i < s.queues.size := by
  obtain ⟨o, ho, -⟩ := Option.map_eq_some_iff.mp hs.sink
  exact (Array.getElem?_eq_some_iff.mp ho).1

/-- Then a complete call is a course. -/
theorem Idle.make (hs : Idle gate i s) (p : Performer) (call : Outlet.Call) :
    let q := (quietOutlet i).queue s
    let t := ((outlet p i).make call s).2
    Idle gate i t ∧ (quietOutlet i).queue t = q.after call ∧
      t = { s with queues := t.queues, effects := t.effects, reactings := t.reactings } ∧
      ∃ told, Course gate i k s [.call s.thread call q (q.answer call) told] t := by
  intro q t
  obtain ⟨told, v, hcall, hsink, hrest, hend⟩ := Course.complete (p := p) (k := k) hs.sink call
  rw [Outlet.make_fst] at hcall
  have hv : Idle gate i v := ⟨hsink, by rw [hrest]; exact hs.acts⟩
  have hafter : Idle gate i t ∧ Still gate i k v t ∧ t = { v with reactings := t.reactings } := by
    rcases hend with hend | ⟨r, hend⟩
    · have ht : t = v := hend
      rw [ht]
      exact ⟨hv, ⟨rfl, rfl, fun _ _ => id, rfl⟩, rfl⟩
    · have ht : t = (Session.react p r v).2 := hend
      rw [ht]
      exact hv.react p r
  obtain ⟨hidle, hstill, hcounted⟩ := hafter
  have hcourse := hcall.elsewhere hstill
  refine ⟨hidle, (hcourse.replies hs.lt).2.1, ?_, told, hcourse⟩
  rw [hcounted, hrest]

/-- **What an append, or any other call, does on a queue that signals to the host.**  It returns and
makes of the queue what the calls before it demand, and the host is asked for an update, once and
without arguments, exactly if a signal is due, on the captured thread, after the service was
offered; otherwise it is not asked. -/
theorem Course.make_outlet {s₀ : Session} {h₀ : List GateEvent}
    (hnew : s₀.gates[gate]? = some {}) (before : GateRun gate s₀ h₀ s) (hi : i < s.queues.size)
    (hcontext : ((quietOutlet i).queue s).context = k) (run : Course gate i k s h t)
    (hnamed : Named (h₀ ++ gateEvents h)) (ht : Idle gate i t) (p : Performer)
    (call : Outlet.Call) :
    let q := (calls h).foldl Queue.after ((quietOutlet i).queue s)
    let made := (outlet p i).make call t
    made.1 = q.answer call ∧ (outlet p i).queue made.2 = q.after call ∧
      made.2.rung k = t.rung k ++
        if (q.due call).isSome ∧ captor (h₀ ++ gateEvents h) = some t.thread ∧
          (offered (h₀ ++ gateEvents h) .requestBatchUpdate).isSome then [[]] else [] := by
  intro q made
  have hqueue : (quietOutlet i).queue t = q := (run.replies hi).2.1
  obtain ⟨-, hleft, -, told, hcall⟩ := ht.make (k := k) p call
  rw [hqueue] at hleft hcall
  refine ⟨?_, hleft, ?_⟩
  · exact (Outlet.make_fst (w := outlet p i) call t).trans (congrArg (Queue.answer · call) hqueue)
  · -- one signal more reaches the host, or none
    have hnamed' : Named (h₀ ++ gateEvents (h ++ [.call t.thread call q (q.answer call) told])) := by
      rw [gateEvents, List.filterMap_append]
      exact (List.append_nil (gateEvents h)).symm ▸ hnamed
    rw [(run.trans hcall).rung hnew before hi hcontext hnamed',
      run.rung hnew before hi hcontext hnamed, reaching_append, List.replicate_add,
      List.append_assoc, reaching, reaching, Nat.add_zero]
    split <;> rfl

end Complete

/-! ### Contexts of a gate -/

/-- A context is made that signals through the gate: by itself, or under the next name of a
registry of the gate. -/
inductive Made (gate : Nat) (s : Session) (c : Context) : Session → Prop
  | alone (id : ContextId) (config : Config) (source : Option Nat)
      (hc : (addContext id config gate (.host gate) source s).2.contexts[
        (addContext id config gate (.host gate) source s).1]? = some c) :
      Made gate s c (addContext id config gate (.host gate) source s).2
  | registered (registry : Nat) (config : Config) {place : Nat}
      (hgate : (s.registries[registry]?.getD default).gate = gate)
      (hplace : (createContext registry config s).1 = .ok place)
      (hc : (createContext registry config s).2.contexts[place]? = some c) :
      Made gate s c (createContext registry config s).2

/-- Making a context leaves the gates alone. -/
theorem addContext_gates (id : ContextId) (config : Config) (gate : Nat) (sink : Sink)
    (source : Option Nat) (s : Session) :
    (addContext id config gate sink source s).2.gates = s.gates ∧
      (addContext id config gate sink source s).2.entryPoints = s.entryPoints := by
  rw [addContext]
  cases config.profile with
  | false =>
    simp only [Bool.false_eq_true, if_false]
    exact ⟨rfl, rfl⟩
  | true =>
    simp only [if_true]
    exact ⟨rfl, rfl⟩

theorem createContext_eq_ok {registry place : Nat} {config : Config} {s : Session}
    (h : (createContext registry config s).1 = .ok place) :
    ∃ id, let gate := (s.registries[registry]?.getD default).gate
      let made := addContext id config gate (.host gate)
        (s.registries[registry]?.getD default).source s
      place = made.1 ∧ (createContext registry config s).2 =
        (modifyRegistry registry (fun r => r.enter made.1) made.2).2 := by
  have hregistry : registryAt registry s = (s.registries[registry]?.getD default, s) := rfl
  rw [createContext, bind_apply, hregistry] at h ⊢
  dsimp only at h ⊢
  cases hnext : (s.registries[registry]?.getD default).registry.nextContext with
  | error fault =>
    rw [hnext] at h
    cases h
  | ok id =>
    rw [hnext] at h
    exact ⟨id, (Except.ok.inj h).symm, rfl⟩

/-- A new context has a queue of its own, with nothing in it. -/
theorem Made.queue {gate : Nat} {s t : Session} {c : Context} (made : Made gate s c t) :
    t.gates = s.gates ∧ t.entryPoints = s.entryPoints ∧ t.queues[c.queue]? =
      some { queue := { context := c.id, batching := c.config.batchUpdates }
             sink := .host gate } := by
  have hadded : ∀ id config source,
      (addContext id config gate (.host gate) source s).2.contexts[
        (addContext id config gate (.host gate) source s).1]? = some c →
      (addContext id config gate (.host gate) source s).2.queues[c.queue]? =
        some { queue := { context := c.id, batching := c.config.batchUpdates }
               sink := .host gate } := by
    intro id config source hc
    obtain ⟨hcontexts, hqueues, -, -⟩ := added_addContext id config gate (.host gate) source s
    rw [addContext_fst, hcontexts, Array.getElem?_push_size] at hc
    obtain rfl := Option.some.inj hc
    rw [hqueues, Array.getElem?_push_size]
  cases made with
  | alone id config source hc =>
    obtain ⟨hgates, hpoints⟩ := addContext_gates id config gate (.host gate) source s
    exact ⟨hgates, hpoints, hadded id config source hc⟩
  | registered registry config hgate hplace hc =>
    obtain ⟨id, hfst, hsnd⟩ := createContext_eq_ok hplace
    rw [hgate] at hfst hsnd
    rw [hsnd] at hc ⊢
    subst hfst
    obtain ⟨hgates, hpoints⟩ := addContext_gates id config gate (.host gate)
      (s.registries[registry]?.getD default).source s
    exact ⟨hgates, hpoints, hadded id config _ hc⟩

/-- **The host as the renderer.**  A context is made with the gate as its sink, after any history
of a new gate, and then its queue and the gate are called in any order and on any threads.  A call
returns what the calls before it demand, and its signal, if one is due, asks the host for an update
of the context, without arguments, exactly if it is raised on the captured thread after the
capture, with the service registered before; otherwise the host is not asked.  Over the whole
course the host has been asked once for each such signal.  And whatever becomes of the signals:
wherever the same calls are made on a queue that begins the same, they return the same and leave
the same. -/
theorem Course.signals {gate : Nat} {s₀ s t u : Session} {c : Context} {h₀ : List GateEvent}
    {h : List Occurrence} (hnew : s₀.gates[gate]? = some {}) (before : GateRun gate s₀ h₀ s)
    (made : Made gate s c t) (run : Course gate c.queue c.id t h u)
    (hnamed : Named (h₀ ++ gateEvents h)) :
    let start : Queue := { context := c.id, batching := c.config.batchUpdates }
    (∀ h₁ thread call q result told h₂, h = h₁ ++ .call thread call q result told :: h₂ →
      q = (calls h₁).foldl Queue.after start ∧ result = q.answer call ∧
        told = if (q.due call).isSome then signalled (h₀ ++ gateEvents h₁) thread c.id else []) ∧
    u.rung c.id = t.rung c.id ++ List.replicate (reaching h₀ h) [] ∧
    ∀ {gate' i' : Nat} {k' : ContextId} {h' : List Occurrence} {t' u' : Session},
      Course gate' i' k' t' h' u' → i' < t'.queues.size → (quietOutlet i').queue t' = start →
      calls h' = calls h → results h' = results h ∧
        (quietOutlet i').queue u' = (quietOutlet c.queue).queue u := by
  intro start
  obtain ⟨hgates, hpoints, hqueue⟩ := made.queue
  have hi : c.queue < t.queues.size := (Array.getElem?_eq_some_iff.mp hqueue).1
  have hstart : (quietOutlet c.queue).queue t = start := by
    show (t.queues[c.queue]?.getD default).queue = _
    rw [hqueue]
    rfl
  have before' : GateRun gate s₀ h₀ t :=
    before.elsewhere (by rw [hgates]) fun place point hpoint => by rwa [hpoints]
  refine ⟨fun h₁ thread call q result told h₂ hh => ?_, ?_, fun run' hi' hstart' hcalls => ?_⟩
  · have hfits := run.fits hnew before' hi hnamed hh
    rwa [hstart] at hfits
  · exact run.rung hnew before' hi (by rw [hstart]) hnamed
  · obtain ⟨-, hleft, hresults⟩ := run.replies hi
    obtain ⟨-, hleft', hresults'⟩ := run'.replies hi'
    rw [hresults, hresults', hleft, hleft', hstart, hstart', hcalls]
    exact ⟨rfl, rfl⟩

/-- A host with a new gate and a way to ask for updates. -/
def sampleScreen : Session where
  entryPoints := #[⟨.requestBatchUpdate, .fixed .void, 0⟩]
  gates := #[{}]

/-- The same, when that way is registered and there is a context. -/
def paintedScreen : Session :=
  (addContext 7 {} 0 (.host 0) none (registerService 0 .requestBatchUpdate 0 sampleScreen).2).2

/-- An append before the capture, one after it, and a flush on another thread. -/
def sampleSignals (told₁ told₂ told₃ : List Effect) : List Occurrence :=
  let c := Command.make 1 .createElement (some "div") none none
  let q : Queue := { context := 7 }
  [.call 1 (.append c) q (.append c (.ok ())) told₁,
    .gate (.capture 1 .done),
    .call 1 (.append c) { q with pending := #[c] } (.append c (.ok ())) told₂,
    .call 2 .flush { q with pending := #[c, c] } (.flush true) told₃]

/-- What they leave, where the session performs what the host asks for. -/
def signalledScreen : Session :=
  let w := outlet (perform greatestDepth) 0
  let c := Command.make 1 .createElement (some "div") none none
  let v := (captureThread 0 1 (w.make (.append c) paintedScreen).2).2
  (onThread .elsewhere (w.make .flush) (w.make (.append c) v).2).2

theorem sampleSignals_course : ∃ told₁ told₂ told₃,
    Course 0 0 7 paintedScreen (sampleSignals told₁ told₂ told₃) signalledScreen := by
  let p := perform greatestDepth
  let c := Command.make 1 .createElement (some "div") none none
  let v := (captureThread 0 1 ((outlet p 0).make (.append c) paintedScreen).2).2
  let x := ((outlet p 0).make (.append c) v).2
  have hpainted : Idle 0 0 paintedScreen := ⟨rfl, fun r reacting hr => absurd hr nofun⟩
  have hq : (quietOutlet 0).queue paintedScreen = { context := 7 } := rfl
  obtain ⟨hidle₁, hq₁, hrest₁, told₁, h₁⟩ := hpainted.make (k := 7) p (.append c)
  have hv : Idle 0 0 v := ⟨hidle₁.sink, hidle₁.acts⟩
  have hqv : (quietOutlet 0).queue v = { context := 7, pending := #[c] } := hq₁.trans (hq ▸ rfl)
  have hthread : v.thread = 1 := congrArg Session.thread hrest₁
  obtain ⟨hidle₂, hq₂, hrest₂, told₂, h₂⟩ := hv.make (k := 7) p (.append c)
  have hx : Idle 0 0 { x with thread := x.nextThread, nextThread := x.nextThread + 1 } :=
    ⟨hidle₂.sink, hidle₂.acts⟩
  have hqx : (quietOutlet 0).queue x = { context := 7, pending := #[c, c] } := hq₂.trans (hqv ▸ rfl)
  have hnext : x.nextThread = 2 :=
    (congrArg Session.nextThread hrest₂).trans (congrArg Session.nextThread hrest₁)
  obtain ⟨-, -, -, told₃, h₃⟩ := hx.make (k := 7) p .flush
  have h₃' : Course 0 0 7 x [.call x.nextThread .flush ((quietOutlet 0).queue x)
      (((quietOutlet 0).queue x).answer .flush) told₃] signalledScreen := h₃.elsewhere_onThread
  rw [hq] at h₁
  rw [hqv, hthread] at h₂
  rw [hqx, hnext] at h₃'
  exact ⟨told₁, told₂, told₃, ((h₁.gate (.capture 1 _)).trans h₂).trans h₃'⟩

/-- Of the three signals, the one that is raised on the captured thread reaches the host. -/
theorem sampleSignals_signals : ∃ told₁ told₂ told₃,
    Course 0 0 7 paintedScreen (sampleSignals told₁ told₂ told₃) signalledScreen ∧ told₁ = [] ∧
      told₂ = [.host .requestBatchUpdate 7 []] ∧ told₃ = [] ∧ signalledScreen.rung 7 = [[]] := by
  obtain ⟨told₁, told₂, told₃, run⟩ := sampleSignals_course
  have before : GateRun 0 sampleScreen [] sampleScreen := .nil
  have offer := before.call (.register .requestBatchUpdate 0 rfl)
  have made : Made 0 (registerService 0 .requestBatchUpdate 0 sampleScreen).2
      (paintedScreen.contexts[0]?.getD default) paintedScreen := .alone 7 {} none rfl
  obtain ⟨hfits, hrung, -⟩ := Course.signals rfl offer made run (by
    intro service place point answer hmem
    rcases List.mem_append.mp hmem with hmem | hmem
    · cases List.mem_singleton.mp hmem
      rfl
    · exact absurd (List.mem_singleton.mp hmem) nofun)
  refine ⟨told₁, told₂, told₃, run, ?_, ?_, ?_, hrung⟩
  · exact (hfits [] 1 _ _ _ told₁ _ rfl).2.2
  · exact (hfits (sampleSignals told₁ told₂ told₃ |>.take 2) 1 _ _ _ told₂ _ rfl).2.2
  · exact (hfits (sampleSignals told₁ told₂ told₃ |>.take 3) 2 _ _ _ told₃ [] rfl).2.2

end Session
end ScriptHost

/-
What holds along the operations on the objects of a session.

One lemma for each operation, in the order in which they are built on each other.  Along operations
that call the host, a sink or a listener a relation holds if it holds along the steps by which these
react.
-/
import ScriptHost.Proofs.Session.Along
import ScriptHost.Proofs.Style.Edit

namespace ScriptHost.Session

variable {R : Session → Session → Prop} [Pervasive R]

/-! ### The state -/

theorem along_emit {e : Effect} (he : e.isReport = false) : Along R (emit e) :=
  Pervasive.emit e he

theorem along_log {l : Log} (hl : (Effect.log l).isReport = false) : Along R (log l) :=
  along_emit hl

theorem along_holding {α : Type} (f : Holdings → α × Holdings) : Along R (holding f) :=
  .unseen fun _ => rfl

theorem along_changeHoldings (f : Holdings → Holdings) : Along R (changeHoldings f) :=
  .unseen fun _ => rfl

theorem along_modifyRuntime (i : Nat) {f : Runtime → Runtime}
    (hcontext : ∀ r, (f r).context = r.context) (hroster : ∀ r, (f r).roster = r.roster) :
    Along R (modifyRuntime i f) :=
  fun s => Pervasive.runtime i f s (hcontext _) (hroster _ ▸ .refl)

/-! ### Dropping -/

theorem along_releaseContext (context : Nat) : Along R (releaseContext context) := by
  rw [releaseContext]
  refine .bind .get fun s => ?_
  split
  · exact .pure ()
  · split
    · exact .pure ()
    · exact along_changeHoldings _

theorem along_releaseContexts (contexts : List Nat) : Along R (releaseContexts contexts) := by
  induction contexts with
  | nil => exact .pure ()
  | cons context rest ih => exact .bind (along_releaseContext context) fun _ => ih

theorem along_releaseRuntime (i : Nat) : Along R (releaseRuntime i) := by
  rw [releaseRuntime]
  refine .bind .get fun _ => .bind (along_changeHoldings _) fun _ => fun s => ?_
  -- of a dropped runtime the roster is left, with nobody on it
  exact Pervasive.runtime i _ s rfl (.single (.clear _))

theorem along_releaseAtoms (r : Ref) : Along R (releaseAtoms r) := by
  cases r with
  | table t => exact along_changeHoldings _
  | cache c => exact along_changeHoldings _
  | style o => exact along_changeHoldings _
  | runtime i => exact along_releaseRuntime i
  | _ => exact .pure ()

theorem along_releaseRef (r : Ref) : Along R (releaseRef r) := by
  rw [releaseRef]
  refine .bind .get fun s => ?_
  split
  · exact .pure ()
  · exact .bind (along_releaseAtoms r) fun _ => along_releaseContexts _

theorem along_workingOn {α : Type} (name : Option String) {act : SessionM α} (h : Along R act) :
    Along R (workingOn name act) := by
  rw [workingOn]
  refine .bind .get fun s => ?_
  split
  · exact h
  · refine .bind (.unseen fun _ => rfl) fun _ => .bind h fun a => ?_
    refine .bind (.unseen fun _ => rfl) fun _ => ?_
    exact .bind (along_releaseRef _) fun _ => .pure a

theorem along_dropName (name : String) : Along R (dropName name) := by
  rw [dropName]
  refine .bind .get fun s => ?_
  split
  · exact .pure false
  · refine .bind (.unseen fun _ => rfl) fun _ => ?_
    exact .bind (along_releaseRef _) fun _ => .pure true

theorem along_bind (name : String) (r : Ref) : Along R (Session.bind name r) := by
  rw [Session.bind]
  refine .bind .get fun s => ?_
  refine .bind (.unseen fun _ => rfl) fun _ => ?_
  split
  · exact along_releaseRef _
  · exact .pure ()

/-! ### Names -/

theorem along_withObject {α : Type} (find? : Session → String → Option α) (name : String)
    {act : α → SessionM Answer} (h : ∀ a, Along R (act a)) :
    Along R (withObject find? name act) := by
  rw [withObject]
  refine .bind .get fun s => ?_
  split
  · exact h _
  · exact .pure _

theorem along_optional {α : Type} (find? : Session → String → Option α)
    (name : Option String) : Along R (optional find? name) := .bind .get fun _ => .pure _

/-! ### Timelines -/

theorem along_nowOf (i : Nat) : Along R (nowOf i) := .bind .get fun _ => .pure _

theorem along_timelineAt (i : Nat) : Along R (timelineAt i) := .bind .get fun _ => .pure _

theorem along_fetchEntries (i : Nat) : Along R (fetchEntries i) := by
  rw [fetchEntries]
  refine .bind .get fun s => ?_
  dsimp only
  split
  · exact .pure _
  · exact .bind (along_emit rfl) fun _ => .pure _

theorem along_addTimeline (context : ContextId) (clock source : Option Nat) :
    Along R (addTimeline context clock source) := fun s => Pervasive.newTimeline _ s

theorem along_markTimeline (i : Nat) (name : String) (start : Option Binary64) :
    Along R (markTimeline i name start) := fun s => by
  rw [markTimeline_eq]
  exact Pervasive.timeline i (.mark name start) s

theorem along_clearTimeline (i : Nat) (type : EntryType) (name : Option String) :
    Along R (clearTimeline i type name) := Pervasive.timeline i (.clear type name)

theorem along_mergedEntries (i : Nat) : Along R (mergedEntries i) :=
  .bind (along_fetchEntries i) fun _ => .bind (along_timelineAt i) fun _ => .pure _

theorem along_measureTimeline (i : Nat) (name : String) (start finish : Option String) :
    Along R (measureTimeline i name start finish) := fun s => by
  have hlooked : R s (s.lookedUp i start finish) := by
    have hasked := along_fetchEntries (R := R) i s
    rw [fetchEntries_apply] at hasked
    rw [lookedUp]
    split
    · exact hasked
    · exact Pervasive.unseen rfl
  obtain ⟨effects, heq⟩ := s.lookedUp_eq i start finish
  rw [heq] at hlooked
  rw [measureTimeline_snd, heq]
  -- having looked up marks changes neither the time nor the entries of the source
  exact Pervasive.trans hlooked (Pervasive.timeline i (.measure name start finish) { s with effects })

theorem along_tellPhases (i : Nat) (outcomes : List (Phase × Option Fault)) :
    Along R (tellPhases i outcomes) := by
  induction outcomes with
  | nil => exact .pure ()
  | cons outcome rest ih =>
    obtain ⟨phase, fault⟩ := outcome
    refine .bind (along_fetchEntries i) fun _ => ?_
    cases fault with
    | none => exact ih
    | some fault => exact .bind (along_log rfl) fun _ => ih

theorem along_summarize (i : Nat) : Along R (summarize i) := fun s => by
  have htold := along_tellPhases (R := R) i
    ((s.timelines[i]?.getD default).timeline.summary (s.presentTime i) (s.sourceEntries i)).1 s
  have hsummary := summarize_eq i s
  obtain ⟨effects, heq⟩ := tellPhases_eq i
    ((s.timelines[i]?.getD default).timeline.summary (s.presentTime i) (s.sourceEntries i)).1 s
  dsimp only at hsummary
  rw [heq] at hsummary htold
  rw [hsummary]
  have hat := modifyTimeline_at i
    (fun t => (t.summary (s.presentTime i) (s.sourceEntries i)).2) { s with effects }
  rw [hat]
  exact Pervasive.trans htold (Pervasive.timeline i .summary { s with effects })

theorem along_addClock : Along R addClock := .unseen fun _ => rfl

theorem along_addSource (entries : List Entry) : Along R (addSource entries) :=
  .unseen fun _ => rfl

theorem along_performTimeline (a : TimelineAction) : Along R (performTimeline a) := by
  cases a with
  | newClock id => exact .bind along_addClock fun _ => .bind (along_bind _ _) fun _ => .pure _
  | setClock on micros =>
    refine along_withObject _ _ fun i => ?_
    exact .bind (.unseen fun _ => rfl) fun _ => .pure _
  | advanceClock on micros =>
    refine along_withObject _ _ fun i => ?_
    exact .bind (.unseen fun _ => rfl) fun _ => .pure _
  | newSource id entries =>
    exact .bind (along_addSource _) fun _ => .bind (along_bind _ _) fun _ => .pure _
  | setSource on entries =>
    refine along_withObject _ _ fun i => ?_
    exact .bind (.unseen fun _ => rfl) fun _ => .pure _
  | new id context clock source =>
    refine .bind (along_optional _ _) fun _ => .bind (along_optional _ _) fun _ => ?_
    exact .bind (along_addTimeline _ _ _) fun _ => .bind (along_bind _ _) fun _ => .pure _
  | now on => exact along_withObject _ _ fun i => .bind (along_nowOf i) fun _ => .pure _
  | origin on => exact along_withObject _ _ fun i => .bind (along_timelineAt i) fun _ => .pure _
  | snapshot on =>
    refine along_withObject _ _ fun i => .bind (along_nowOf i) fun _ => ?_
    exact .bind (along_timelineAt i) fun _ => .pure _
  | mark on name start =>
    exact along_withObject _ _ fun i => .bind (along_markTimeline i _ _) fun _ => .pure _
  | measure on name start finish =>
    refine along_withObject _ _ fun i => .bind (along_measureTimeline i _ _ _) fun outcome => ?_
    cases outcome <;> exact .pure _
  | clear on type name =>
    refine along_withObject _ _ fun i => .bind (along_clearTimeline i _ _) fun _ => ?_
    exact .bind (along_timelineAt i) fun _ => .pure _
  | entries on =>
    exact along_withObject _ _ fun i => .bind (along_mergedEntries i) fun _ => .pure _
  | own on => exact along_withObject _ _ fun i => .bind (along_timelineAt i) fun _ => .pure _
  | named on name =>
    exact along_withObject _ _ fun i => .bind (along_mergedEntries i) fun _ => .pure _
  | typed on type =>
    refine along_withObject _ _ fun i => ?_
    cases EntryType.ofName? type with
    | none => exact .pure _
    | some type => exact .bind (along_mergedEntries i) fun _ => .pure _
  | summary on => exact along_withObject _ _ fun i => .bind (along_summarize i) fun _ => .pure _

/-! ### Atoms -/

theorem along_keepOrLetGo (keep : Option String) (a : Atom) : Along R (keepOrLetGo keep a) :=
  along_changeHoldings _

theorem along_answerAtom (keep : Option String) (a : Atom) : Along R (answerAtom keep a) :=
  .bind .get fun _ => .bind (along_keepOrLetGo keep a) fun _ => .pure _

theorem along_textOf (a : Atom) : Along R (textOf a) := .bind .get fun _ => .pure _

theorem along_answerText (a : Atom) : Along R (answerText a) :=
  .bind (along_textOf a) fun _ => .bind (along_changeHoldings _) fun _ => .pure _

theorem along_performAtoms (a : AtomAction) : Along R (performAtoms a) := by
  cases a with
  | newTable id pinned =>
    exact .bind (along_holding _) fun _ => .bind (along_bind _ _) fun _ => .pure _
  | intern on text keep =>
    refine along_withObject _ _ fun t => .bind (along_holding _) fun a => ?_
    exact along_answerAtom keep a
  | takeEmpty on keep =>
    refine along_withObject _ _ fun t => .bind (along_holding _) fun a => ?_
    exact .bind (along_keepOrLetGo _ a) fun _ => .pure _
  | contains on text => exact along_withObject _ _ fun t => .bind .get fun _ => .pure _
  | size on => exact along_withObject _ _ fun t => .bind .get fun _ => .pure _
  | clone atom keep =>
    exact along_withObject _ _ fun a => .bind (along_changeHoldings _) fun _ => .pure _
  | drop atom =>
    exact along_withObject _ _ fun a => .bind (along_changeHoldings _) fun _ => .pure _
  | inspect atom => exact along_withObject _ _ fun a => .bind .get fun _ => .pure _
  | describe atom => exact along_withObject _ _ fun a => .bind .get fun _ => .pure _
  | equal a b => exact along_withObject _ _ fun a => along_withObject _ _ fun b => .pure _
  | distinct atoms => exact .bind .get fun _ => .pure _
  | newCache id =>
    exact .bind (along_holding _) fun _ => .bind (along_bind _ _) fun _ => .pure _
  | resolve on table name keep =>
    refine along_withObject _ _ fun c => along_withObject _ _ fun t => ?_
    refine .bind (along_holding _) fun a => .bind (along_textOf a) fun _ => ?_
    exact .bind (along_keepOrLetGo keep a) fun _ => .pure _
  | cacheSize on => exact along_withObject _ _ fun c => .bind .get fun _ => .pure _

/-! ### Calls -/

theorem along_addReacting (reaction : Reaction Step) : Along R (addReacting reaction) :=
  .unseen fun _ => rfl

theorem along_onThread {α : Type} (caller : Caller) {m : SessionM α} (h : Along R m) :
    Along R (onThread caller m) := by
  cases caller with
  | here => exact h
  | elsewhere =>
    intro s
    exact Pervasive.elsewhere s.nextThread (s.nextThread + 1) (h _)

theorem along_servicesFor (gate : Nat) (thread : ThreadId) : Along R (servicesFor gate thread) :=
  .bind .get fun _ => .pure _

theorem along_services (gate : Nat) : Along R (services gate) :=
  .bind .get fun _ => along_servicesFor _ _

section Calls

variable {p : Performer} (hp : ∀ step, Along R (p step))
include hp

theorem along_performAll (steps : List Step) : Along R (performAll p steps) := by
  induction steps with
  | nil => exact .pure ()
  | cons step rest ih => exact .bind (hp step) fun _ => .bind (along_emit rfl) fun _ => ih

theorem along_react (i : Nat) : Along R (react p i) := by
  rw [react]
  refine .bind .get fun s => ?_
  split
  · exact .pure ()
  · refine .bind (.unseen fun _ => rfl) fun _ => ?_
    split
    · exact along_performAll hp _
    · exact .pure ()

theorem along_enterHost (i : Nat) (context : ContextId) (args : List Arg) :
    Along R (enterHost p i context args) := by
  rw [enterHost]
  refine .bind .get fun s => ?_
  split
  · exact .pure _
  · exact .bind (along_emit rfl) fun _ => .bind (along_react hp _) fun _ => .pure _

theorem along_callService (set : ServiceSet Nat) (service : Service) (context : ContextId)
    (args : List Arg) : Along R (callService p set service context args) := by
  rw [callService]
  split
  · exact along_enterHost hp _ context args
  · exact .bind (along_log rfl) fun _ => .pure _
  · exact .pure _

theorem along_notify (sink : Sink) (context : ContextId) : Along R (notify p sink context) := by
  cases sink with
  | recording r => exact .bind (along_emit rfl) fun _ => along_react hp r
  | host gate =>
    refine .bind (along_services gate) fun set => ?_
    exact .bind (along_callService hp set _ _ _) fun _ => .pure _

/-! ### Queues -/

/-- An append changes the queue, and then whoever is told may do anything. -/
theorem along_appendCommand (i : Nat) (c : Command) : Along R (appendCommand p i c) := by
  intro s
  have hquiet : R s ((quietOutlet i).append c s).2 := Pervasive.queue i (.append c s)
  show R s ((outlet p i).append c s).2
  rcases Outlet.append_snd (outlet p i) c s with h | h
  · rw [h]
    exact hquiet
  · -- the sink is told in a state in which the command already waits
    rw [h]
    exact (along_notify hp _ _).after hquiet

theorem along_flushQueue (i : Nat) : Along R (flushQueue p i) := by
  intro s
  show R s ((outlet p i).flush s).2
  rcases Outlet.flush_snd (outlet p i) s with h | h
  · rw [h]
    exact Pervasive.unseen rfl
  · rw [h]
    exact along_notify hp _ _ s

theorem along_appendMany (i : Nat) (kind : CommandKind) (first : Option String) (count : Nat)
    (target : Int) : Along R (appendMany p i kind first count target) := by
  induction count generalizing target with
  | zero => exact .pure _
  | succ count ih =>
    refine .bind (along_appendCommand hp i _) fun outcome => ?_
    cases outcome with
    | ok _ => exact ih _
    | error fault => exact .pure _

omit hp in
theorem along_queueAt (i : Nat) : Along R (queueAt i) := .bind .get fun _ => .pure _

omit hp in
theorem along_answerAppend (i : Nat) (outcome : Except Fault Unit) :
    Along R (answerAppend i outcome) := by
  cases outcome with
  | ok _ => exact .bind (along_queueAt i) fun _ => .pure _
  | error fault => exact .pure _

omit hp in
theorem along_addQueue (context : ContextId) (batching : Bool) (sink : Sink) :
    Along R (addQueue context batching sink) :=
  fun s => Pervasive.newQueue context batching sink s

theorem along_performQueue (a : QueueAction Step) : Along R (performQueue p a) := by
  cases a with
  | new id context sink =>
    refine .bind (along_addReacting _) fun _ => .bind (along_addQueue _ _ _) fun _ => ?_
    exact .bind (along_bind _ _) fun _ => .pure _
  | append on command caller =>
    refine along_withObject _ _ fun i => ?_
    exact .bind (along_onThread caller (along_appendCommand hp i command)) fun outcome =>
      along_answerAppend i outcome
  | appendMany on count kind first =>
    refine along_withObject _ _ fun i => ?_
    exact .bind (along_appendMany hp i kind first count 0) fun outcome =>
      along_answerAppend i outcome
  -- what does not tell a sink is a single call on the queue
  | drain on countOnly =>
    refine along_withObject _ _ fun i => ?_
    refine .bind (fun s => Pervasive.queue i (.drain s)) fun commands => ?_
    split <;> exact .pure _
  | setBatching on batching =>
    refine along_withObject _ _ fun i => ?_
    exact .bind (fun s => Pervasive.queue i (.setBatching batching s)) fun _ => .pure _
  | flush on caller =>
    refine along_withObject _ _ fun i => ?_
    exact .bind (along_onThread caller (along_flushQueue hp i)) fun _ => .pure _
  | close on =>
    refine along_withObject _ _ fun i => ?_
    exact .bind (fun s => Pervasive.queue i (.close s)) fun _ => .pure _
  | state on => exact along_withObject _ _ fun i => .bind (along_queueAt i) fun _ => .pure _

end Calls

/-! ### Gates and services -/

theorem along_freshThread : Along R freshThread := .unseen fun _ => rfl

theorem along_gateAt (i : Nat) : Along R (gateAt i) := .bind .get fun _ => .pure _

theorem along_setGate (i : Nat) (g : Gate Nat) : Along R (setGate i g) :=
  .unseen fun _ => rfl

theorem along_addGate : Along R addGate := .unseen fun _ => rfl

theorem along_addEntryPoint (service : Service) (answering : Answering)
    (reaction : Reaction Step) : Along R (addEntryPoint service answering reaction) := by
  rw [addEntryPoint]
  exact .bind (along_addReacting _) fun _ => .unseen fun _ => rfl

theorem along_registerService (gate : Nat) (service : Service) (entry : Nat) :
    Along R (registerService gate service entry) := by
  rw [registerService]
  refine .bind (along_gateAt gate) fun g => ?_
  split
  · refine .bind (along_setGate gate _) fun _ => ?_
    split
    · exact .bind (along_log rfl) fun _ => .pure _
    · exact .bind (.pure _) fun _ => .pure _
  · exact .bind (along_log rfl) fun _ => .pure _

theorem along_captureThread (gate : Nat) (t : ThreadId) : Along R (captureThread gate t) := by
  rw [captureThread]
  refine .bind (along_gateAt gate) fun g => ?_
  split
  · exact .bind (along_log rfl) fun _ => .bind (along_setGate gate _) fun _ => .pure _
  · exact .pure _

theorem along_performGate (a : GateAction Step) : Along R (performGate a) := by
  cases a with
  | new id => exact .bind along_addGate fun _ => .bind (along_bind _ _) fun _ => .pure _
  | register on service answering reaction =>
    refine along_withObject _ _ fun g => ?_
    exact .bind (along_addEntryPoint _ _ _) fun _ => along_registerService g _ _
  | capture on capturer =>
    refine along_withObject _ _ fun g => ?_
    cases capturer with
    | main => exact .bind .get fun _ => along_captureThread g _
    | fresh => exact .bind along_freshThread fun _ => along_captureThread g _
    | kept thread => exact along_withObject _ _ fun t => along_captureThread g t
  | newThread id =>
    exact .bind along_freshThread fun _ => .bind (along_bind _ _) fun _ => .pure _
  | captured on => exact along_withObject _ _ fun g => .bind (along_gateAt g) fun _ => .pure _

theorem along_servicesOf (on : String) (thread : Option String) (caller : Caller) :
    Along R (servicesOf on thread caller) := by
  rw [servicesOf]
  refine .bind .get fun s => ?_
  split
  · exact .pure _
  · exact .pure _
  · split
    · split
      · exact .bind (along_servicesFor _ _) fun _ => .pure _
      · exact .pure _
    · exact .bind (along_services _) fun _ => .pure _
    · exact .bind along_freshThread fun _ => .bind (along_servicesFor _ _) fun _ => .pure _

section Services

variable {p : Performer} (hp : ∀ step, Along R (p step))
include hp

theorem along_invokeHostModule (set : ServiceSet Nat) (context : ContextId)
    (module method : String) (params : Option String) :
    Along R (invokeHostModule p set context module method params) :=
  .bind (along_callService hp set _ _ _) fun _ => .pure _

theorem along_performServices (a : ServiceAction) : Along R (performServices p a) := by
  rw [performServices]
  refine .bind (along_servicesOf _ _ _) fun found => ?_
  split
  · exact .pure _
  · split
    · exact .bind (along_bind _ _) fun _ => .pure _
    · exact .pure _
    · exact .bind (along_callService hp _ _ _ _) fun _ => .pure _
    · exact .bind (along_callService hp _ _ _ _) fun _ => .pure _
    · exact .bind (along_invokeHostModule hp _ _ _ _ _) fun _ => .pure _
    · exact .bind (along_callService hp _ _ _ _) fun _ => .pure _
    · exact .bind (along_callService hp _ _ _ _) fun _ => .pure _

end Services

/-! ### Reports -/

theorem along_reportError {R : Session → Session → Prop} [Reporting R] {p : Performer}
    (hp : ∀ step, Along R (p step)) (c : Context) (message : String) :
    Along R (reportError p c message) := by
  rw [reportError]
  refine .bind (Reporting.report c.id message) fun _ => .bind (along_services _) fun set => ?_
  exact .bind (along_callService hp set _ _ _) fun _ => .pure _

end ScriptHost.Session

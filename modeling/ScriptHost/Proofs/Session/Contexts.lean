/-
What holds along the operations on contexts, declarations and listeners.

A context is made around a queue that was made just before, so it has to be seen that the queue is
still there, under the same name, when the context is put in its place.  Along an edit a relation
holds in each of its outcomes, and along a dispatch if it holds along the turns of its listeners.
-/
import ScriptHost.Proofs.Session.Objects

namespace ScriptHost.Session

variable {R : Session → Session → Prop} [Pervasive R]

/-- The same from those states only that are of a kind. -/
def AlongFrom {α : Type} (R : Session → Session → Prop) (Q : Session → Prop) (m : SessionM α) :
    Prop :=
  ∀ s, Q s → R s (m s).2

section AlongFrom

variable {α β : Type} {m : SessionM α} {f : α → SessionM β}

/-- What an operation establishes can be used by what follows it. -/
theorem Along.bind_from {Q : α → Session → Prop} (hm : Along R m) (hQ : ∀ s, Q (m s).1 (m s).2)
    (hf : ∀ a, AlongFrom R (Q a) (f a)) : Along R (m >>= f) :=
  fun s => Pervasive.trans (hm s) (hf (m s).1 (m s).2 (hQ s))

/-- What an operation keeps can be used further on. -/
theorem AlongFrom.after {Q : Session → Prop} (hm : Along R m) (hQ : ∀ s, Q s → Q (m s).2)
    (hf : ∀ a, AlongFrom R Q (f a)) : AlongFrom R Q (m >>= f) :=
  fun s h => Pervasive.trans (hm s) (hf (m s).1 (m s).2 (hQ s h))

end AlongFrom

/-- A queue for a context of that name stands there. -/
def Queued (id : ContextId) (queue : Nat) (s : Session) : Prop :=
  queue < s.queues.size ∧ ((quietOutlet queue).queue s).context = id

theorem queued_addQueue (id : ContextId) (batching : Bool) (sink : Sink) (s : Session) :
    Queued id (addQueue id batching sink s).1 (addQueue id batching sink s).2 := by
  constructor
  · show s.queues.size < (s.queues.push _).size
    rw [Array.size_push]
    exact Nat.lt_succ_self _
  · show ((s.queues.push { queue := { context := id, batching }, sink })[s.queues.size]?.getD
      default).queue.context = id
    rw [Array.getElem?_push_size]
    rfl

theorem along_addContext (id : ContextId) (config : Config) (gate : Nat) (sink : Sink)
    (source : Option Nat) : Along R (addContext id config gate sink source) := by
  rw [addContext]
  refine .bind (along_addTimeline _ _ _) fun timeline => ?_
  cases config.profile with
  | false =>
    simp only [Bool.false_eq_true, if_false]
    -- from here on the queue is there, and nothing that follows takes it away
    refine .bind_from (along_addQueue _ _ _) (queued_addQueue id _ _) fun queue => ?_
    refine .after (along_holding _) (fun _ h => h) fun table => ?_
    refine .after (along_log rfl) (fun _ h => h) fun _ => ?_
    refine .after (along_holding _) (fun _ h => h) fun names => fun s hq => ?_
    exact Pervasive.newContext _ s rfl hq.1 hq.2
  | true =>
    -- a profiled context is made in the same way, with marks on its timeline in between
    simp only [if_true]
    refine .bind (along_markTimeline _ _ _) fun _ => ?_
    refine .bind_from (along_addQueue _ _ _) (queued_addQueue id _ _) fun queue => ?_
    refine .after (along_holding _) (fun _ h => h) fun table => ?_
    refine .after (along_markTimeline _ _ _) (fun _ h => h) fun _ => ?_
    refine .after (along_log rfl) (fun _ h => h) fun _ => ?_
    refine .after (along_holding _) (fun _ h => h) fun names => fun s hq => ?_
    exact Pervasive.newContext _ s rfl hq.1 hq.2

theorem along_contextAt (i : Nat) : Along R (contextAt i) := .bind .get fun _ => .pure _

theorem along_disposeContext (i : Nat) : Along R (disposeContext i) :=
  Pervasive.dispose i

theorem along_parseMarkup (i : Nat) (markup : String) : Along R (parseMarkup i markup) := by
  rw [parseMarkup]
  refine .bind (along_contextAt i) fun c => ?_
  split
  · exact .bind (along_emit rfl) fun _ => .pure _
  · exact .pure _

theorem along_registryAt (i : Nat) : Along R (registryAt i) := .bind .get fun _ => .pure _

theorem along_modifyRegistry (i : Nat) (f : Registry Nat → Registry Nat) :
    Along R (modifyRegistry i f) := .unseen fun _ => rfl

theorem along_addRegistry (gate max : Nat) (source : Option Nat) :
    Along R (addRegistry gate max source) := .unseen fun _ => rfl

theorem along_createContext (registry : Nat) (config : Config) :
    Along R (createContext registry config) := by
  rw [createContext]
  refine .bind (along_registryAt registry) fun r => ?_
  split
  · exact .bind (along_log rfl) fun _ => .pure _
  · refine .bind (along_addContext _ _ _ _ _) fun c => ?_
    exact .bind (along_modifyRegistry _ _) fun _ => .pure _

theorem along_strikeContext (registry : Nat) (id : ContextId) :
    Along R (strikeContext registry id) := by
  rw [strikeContext]
  refine .bind (along_registryAt registry) fun r => ?_
  refine .bind (along_modifyRegistry _ _) fun _ => ?_
  split
  · exact .pure _
  · refine .bind (along_disposeContext _) fun _ => ?_
    exact .bind (along_releaseContext _) fun _ => .pure _

theorem along_performRegistry (a : RegistryAction) : Along R (performRegistry a) := by
  cases a with
  | new id gate max source =>
    refine along_withObject _ _ fun gate => .bind (along_optional _ _) fun _ => ?_
    exact .bind (along_addRegistry _ _ _) fun _ => .bind (along_bind _ _) fun _ => .pure _
  | create on config keep =>
    refine along_withObject _ _ fun i => ?_
    split
    · exact .pure _
    · refine .bind (along_createContext i _) fun outcome => ?_
      split
      · exact .pure _
      next c =>
        split
        · exact .bind (along_bind _ _) fun _ => .bind (along_contextAt c) fun _ => .pure _
        · exact .bind (along_contextAt c) fun _ => .pure _
  | get on context same =>
    refine along_withObject _ _ fun i => .bind (along_registryAt i) fun r => ?_
    split
    · exact .pure _
    · exact .bind .get fun _ => .pure _
  | dispose on context =>
    exact along_withObject _ _ fun i => .bind (along_strikeContext i _) fun _ => .pure _
  | size on => exact along_withObject _ _ fun i => .bind (along_registryAt i) fun _ => .pure _

section Contexts

variable {R : Session → Session → Prop} [Reporting R] {p : Performer} (hp : ∀ step, Along R (p step))
include hp

theorem along_performContext (a : ContextAction Step) : Along R (performContext p a) := by
  cases a with
  | new id context gate config sink source =>
    -- with a sink of its own or without, a context is made and named in the end
    have hadd : ∀ config gate sink source, Along R (do
        bind id (.context (← addContext context config gate sink source))
        return Answer.done) := fun config gate sink source =>
      .bind (along_addContext _ _ _ _ _) fun _ => .bind (along_bind _ _) fun _ => .pure _
    simp only [performContext]
    split
    · exact .pure _
    · refine along_withObject _ _ fun gate => .bind (along_optional _ _) fun source => ?_
      split
      · exact .bind (along_addReacting _) fun _ => .bind (.pure _) fun _ => hadd _ _ _ _
      · exact .bind (.pure _) fun _ => hadd _ _ _ _
  | inspect on => exact along_withObject _ _ fun i => .bind (along_contextAt i) fun _ => .pure _
  | propertyName on name keep =>
    refine along_withObject _ _ fun i => .bind (along_contextAt i) fun c => ?_
    exact .bind (along_holding _) fun a => along_answerAtom keep a
  | report on message caller =>
    refine along_withObject _ _ fun i => .bind (along_contextAt i) fun c => ?_
    exact .bind (along_onThread caller (along_reportError hp c message)) fun _ => .pure _
  | dispose on =>
    refine along_withObject _ _ fun i => .bind (along_disposeContext i) fun _ => ?_
    exact .bind (along_contextAt i) fun _ => .pure _
  | parse on markup =>
    refine along_withObject _ _ fun i => .bind (along_parseMarkup i markup) fun outcome => ?_
    cases outcome <;> exact .pure _
  | sameGate on gate =>
    refine along_withObject _ _ fun i => along_withObject _ _ fun g => ?_
    exact .bind (along_contextAt i) fun _ => .pure _

end Contexts

/-! ### Declarations -/

section Styles

variable {p : Performer} (hp : ∀ step, Along R (p step)) (c : Context) (d : Style.Declaration)

theorem related_holding {α : Type} {f : Holdings → α × Holdings} {s t : Session} {a : α}
    (h : (desk p c).holding f s = (a, t)) : R s t := by
  obtain ⟨-, rfl⟩ := Prod.mk.inj h
  exact Pervasive.unseen rfl

include hp

theorem related_append {command : Command} {s t : Session} {outcome : Except Fault Unit}
    (h : (desk p c).append command s = (outcome, t)) : R s t := by
  obtain ⟨-, rfl⟩ := Prod.mk.inj h
  exact along_appendCommand hp c.queue command s

theorem along_setProperty (name value : String) : Along R (setProperty p c d name value) := by
  intro s
  obtain ⟨key, s₁, v, s₂, hkey, hvalue, houtcome⟩ := (desk p c).set_outcome d name value s
  -- the atoms are taken, perhaps a command is appended, and the holdings change once more
  have h₂ : R s s₂ := Pervasive.trans (related_holding c hkey) (related_holding c hvalue)
  have happended : ∀ {command outcome t}, (desk p c).append command s₂ = (outcome, t) → R s t :=
    fun h => Pervasive.trans h₂ (related_append hp c h)
  show R s ((desk p c).set d name value s).2
  generalize (desk p c).set d name value s = r at houtcome
  cases houtcome with
  | same => exact Pervasive.trans h₂ (Pervasive.unseen rfl)
  | made _ happend => exact Pervasive.trans (happended happend) (Pervasive.unseen rfl)
  | refused _ happend => exact Pervasive.trans (happended happend) (Pervasive.unseen rfl)

theorem along_removeProperty (name : String) : Along R (removeProperty p c d name) := by
  intro s
  obtain ⟨key, s₁, hkey, houtcome⟩ := (desk p c).remove_outcome d name s
  have h₁ : R s s₁ := related_holding c hkey
  have happended : ∀ {command outcome t}, (desk p c).append command s₁ = (outcome, t) → R s t :=
    fun h => Pervasive.trans h₁ (related_append hp c h)
  show R s ((desk p c).remove d name s).2
  generalize (desk p c).remove d name s = r at houtcome
  cases houtcome with
  | unset _ hempty => exact Pervasive.trans h₁ (related_holding c hempty)
  | made _ happend hremove => exact Pervasive.trans (happended happend) (related_holding c hremove)
  | gone _ happend hremove hempty =>
    exact Pervasive.trans (Pervasive.trans (happended happend) (related_holding c hremove))
      (related_holding c hempty)
  | refused _ happend => exact Pervasive.trans (happended happend) (Pervasive.unseen rfl)

omit hp in
theorem along_getProperty (name : String) :
    Along R ((desk p c).get d name : SessionM Atom) := by
  intro s
  rw [Style.Desk.get]
  exact related_holding c (Prod.eta _).symm

omit hp in
theorem along_withStyle (name : String) {act : Context → Style.Declaration → SessionM Answer}
    (h : ∀ c d, Along R (act c d)) : Along R (withStyle name act) :=
  along_withObject _ _ fun _ => .bind (along_contextAt _) fun c => h c _

omit hp in
theorem along_propertiesOf : Along R (propertiesOf d) := .bind .get fun _ => .pure _

theorem along_performStyle (a : StyleAction) : Along R (performStyle p a) := by
  cases a with
  | new id context target =>
    refine along_withObject _ _ fun context => .bind (along_holding _) fun style => ?_
    exact .bind (along_bind _ _) fun _ => .pure _
  | set on name value =>
    refine along_withStyle _ fun c d => .bind (along_setProperty hp c d _ _) fun outcome => ?_
    cases outcome <;> exact .pure _
  | get on name =>
    show Along R (withStyle on fun c d => do answerText (← (desk p c).get d name))
    exact along_withStyle _ fun c d => .bind (along_getProperty c d _) fun a =>
      along_answerText a
  | remove on name =>
    refine along_withStyle _ fun c d => .bind (along_removeProperty hp c d _) fun outcome => ?_
    cases outcome with
    | ok old => exact along_answerText old
    | error fault => exact .pure _
  | css on =>
    refine along_withStyle _ fun c d => .bind .get fun _ => ?_
    exact .bind (along_propertiesOf d) fun _ => .pure _
  | copy on source =>
    refine along_withStyle _ fun c d => along_withObject _ _ fun source => ?_
    exact .bind (along_changeHoldings _) fun _ => .bind (along_propertiesOf d) fun _ => .pure _
  | size on =>
    exact along_withStyle _ fun c d => .bind (along_propertiesOf d) fun _ => .pure _

end Styles

/-! ### Dispatches -/

/-- The relation holds along whatever a dispatch does to the session. -/
structure AlongAmong {L : Type} (R : Session → Session → Prop) (w : Surroundings Session L) :
    Prop where
  call (l : L) (e : ModuleEvent) (s : Session) : R s (w.call l e s).2
  report (message : String) (s : Session) : R s (w.report message s)
  log (l : Log) (hl : (Effect.log l).isReport = false) (s : Session) : R s (w.log l s)
  unlink (s : Session) : R s (w.unlink s)

namespace AlongAmong

variable {L : Type} {w : Surroundings Session L} (hw : AlongAmong R w)
include hw

theorem turn (e : ModuleEvent) (l : L) (s : Session) : R s (w.turn e l s).2 := by
  have hcall := hw.call l e s
  rw [Surroundings.turn]
  split
  next heq => rwa [heq] at hcall
  next heq =>
    rw [heq] at hcall
    exact Pervasive.trans hcall (hw.report _ _)

theorem turns (e : ModuleEvent) (hs : List Handle) (s : Session) : R s (w.turns e hs s).2 := by
  induction hs generalizing s with
  | nil => exact Pervasive.unseen rfl
  | cons handle rest ih =>
    rw [Surroundings.turns]
    split
    · exact ih s
    next l _ =>
      have hturn := hw.turn e l s
      dsimp only
      -- the turn has left the context valid, or it was the last
      split
      · exact Pervasive.trans hturn (ih _)
      · exact Pervasive.trans hturn (hw.unlink _)

theorem dispatch (module : String) (event extra : Option String) :
    Along R (w.dispatch module event extra : SessionM _) := by
  intro s
  show R s (w.dispatch module event extra s).2
  rw [Surroundings.dispatch]
  split
  · exact hw.unlink s
  · have hread : R s (w.readPayload extra s).2 := by
      rw [Surroundings.readPayload]
      dsimp only
      split
      · exact hw.log _ rfl s
      · exact Pervasive.unseen rfl
    exact Pervasive.trans (Pervasive.trans hread (hw.turns _ _ _)) (hw.log _ rfl _)

end AlongAmong

section Listeners

theorem along_dispatcherAt (i : Nat) : Along R (dispatcherAt i) := .bind .get fun _ => .pure _

theorem along_registerNative (i : Nat) (l : NativeListener) : Along R (registerNative i l) := by
  intro s
  have hregister : R s (setRoster i ((s.dispatchers[i]?.getD default).roster.register l).2 s) :=
    Pervasive.roster i s (.register l _)
  have htell : Along R (do
      log (.listenerRegistered
        (← contextAt (s.dispatchers[i]?.getD default).context).id
        (s.dispatchers[i]?.getD default).roster.nextHandle)
      return (s.dispatchers[i]?.getD default).roster.nextHandle) :=
    .bind (along_contextAt _) fun _ => .bind (along_log rfl) fun _ => .pure _
  exact htell.after hregister

theorem along_addDispatcher (context : Nat) : Along R (addDispatcher context) :=
  Pervasive.newDispatcher context

section Dispatch

variable {R : Session → Session → Prop} [Reporting R] {p : Performer}
  (hp : ∀ step, Along R (p step))
include hp

theorem alongAmong_native (i context : Nat) (c : Context) :
    AlongAmong R (nativeSurroundings p i context c) where
  call l _ :=
    Along.bind (along_emit rfl) fun _ => .bind (along_react hp l.reacting) fun _ => .pure _
  report := along_reportError hp c
  log _ hl := along_log hl
  unlink s := Pervasive.roster i s (.clear _)

theorem along_performListeners (a : ListenerAction Step) : Along R (performListeners p a) := by
  cases a with
  | new id context =>
    refine along_withObject _ _ fun c => .bind (along_addDispatcher c) fun _ => ?_
    exact .bind (along_bind _ _) fun _ => .pure _
  | add on label failure reaction =>
    refine along_withObject _ _ fun i => .bind (along_addReacting _) fun _ => ?_
    exact .bind (along_registerNative i _) fun _ => .pure _
  | remove on handle =>
    exact along_withObject _ _ fun i => fun s => Pervasive.roster i s (.unregister handle _)
  | dispatch on module event extra =>
    refine along_withObject _ _ fun i => .bind (along_dispatcherAt i) fun d => ?_
    refine .bind (along_contextAt _) fun c => ?_
    refine .bind ((alongAmong_native hp i _ c).dispatch _ _ _) fun outcome => ?_
    cases outcome <;> exact .pure _
  | clear on => exact along_withObject _ _ fun i => fun s => Pervasive.roster i s (.clear _)
  | size on => exact along_withObject _ _ fun i => .bind (along_dispatcherAt i) fun _ => .pure _
  | context on =>
    refine along_withObject _ _ fun i => .bind (along_dispatcherAt i) fun d => ?_
    exact .bind (along_contextAt _) fun _ => .pure _

end Dispatch

end Listeners

theorem along_performDescribe (on : String) : Along R (performDescribe on) :=
  along_withObject _ _ fun _ => .pure _

end ScriptHost.Session

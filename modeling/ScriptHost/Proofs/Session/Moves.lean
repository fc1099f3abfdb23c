/-
What a session can do to its queues, contexts and rosters.

`Move` lists every way in which code of the library changes a queue, a context or a roster; to
everything else it may do anything.  `Orderly` says that an operation does nothing but moves, however
many, and the lemmas beside it follow the ways in which operations are put together, so that what
holds along moves holds along everything a session performs.

Design notes: the states between two moves are those in which code from outside may be called.
An append is therefore two things, its change of the queue and whatever follows from the signal;
disposing of a context is one, since nobody is called in its course.  An operation is orderly since
a state `o` if it is so in the states that follow `o`; so who is called in the course of an
operation has to keep to moves in these states only, and is called in no others.
-/
import ScriptHost.Session.Run
import ScriptHost.Proofs.Command.History
import ScriptHost.Proofs.Listener.Roster

namespace ScriptHost.Session

open Script (Value)

/-- A queue of a session, with nobody to be told. -/
def quietOutlet (i : Nat) : Outlet Session where
  queue s := (s.queues[i]?.getD default).queue
  setQueue q s := { s with queues := s.queues.modify i fun o => { o with queue := q } }
  signal _ s := s
  log l s := { s with effects := s.effects.push (.log l) }

/-- Nothing has happened to queues, contexts and rosters. -/
structure Elsewhere (s t : Session) : Prop where
  queues : t.queues = s.queues
  contexts : t.contexts = s.contexts
  dispatchers : t.dispatchers = s.dispatchers
  runtimes : t.runtimes = s.runtimes

/-- One change of a session. -/
inductive Move : Session → Session → Prop
  | elsewhere {s t : Session} (h : Elsewhere s t) : Move s t
  | newQueue (context : ContextId) (batching : Bool) (sink : Sink) (s : Session) :
      Move s { s with queues := s.queues.push { queue := { context, batching }, sink } }
  | queue (i : Nat) {s t : Session} {e : Outlet.Event} (h : (quietOutlet i).Step s e t) : Move s t
  | newContext (c : Context) (s : Session) (hvalid : c.valid = true)
      (hqueue : c.queue < s.queues.size)
      (hid : ((quietOutlet c.queue).queue s).context = c.id) :
      Move s { s with contexts := s.contexts.push c }
  | dispose (i : Nat) (s : Session) : Move s (disposeContext i s).2
  | newDispatcher (context : Nat) (s : Session) :
      Move s { s with dispatchers := s.dispatchers.push { context } }
  | roster (i : Nat) (s : Session) {r : Roster NativeListener}
      (h : (s.dispatchers[i]?.getD default).roster.Change r) : Move s (setRoster i r s)
  | newRuntime (context : Nat) (s : Session) :
      Move s { s with runtimes := s.runtimes.push { context } }
  | runtime (i : Nat) (f : Runtime → Runtime) (s : Session)
      (hcontext : (f (s.runtimes[i]?.getD default)).context =
        (s.runtimes[i]?.getD default).context)
      (hroster : (s.runtimes[i]?.getD default).roster.Later
        (f (s.runtimes[i]?.getD default)).roster) :
      Move s (modifyRuntime i f s).2

/-- Any number of changes. -/
abbrev Moves : Session → Session → Prop := Relation.ReflTransGen Move

/-- In whatever state that follows `o`, the operation changes a session by moves only. -/
def Orderly {α : Type} (o : Session) (m : SessionM α) : Prop := ∀ s, Moves o s → Moves s (m s).2

/-! ### How operations are put together -/

theorem bind_apply {α β : Type} {m : SessionM α} {f : α → SessionM β} {s : Session} :
    (m >>= f) s = f (m s).1 (m s).2 := rfl

theorem get_bind_apply {α : Type} {f : Session → SessionM α} {s : Session} :
    (MonadState.get >>= f : SessionM α) s = f s s := rfl

theorem withObject_of_some {α : Type} {find? : Session → String → Option α} {name : String}
    {act : α → SessionM Answer} {s : Session} {a : α} (h : find? s name = some a) :
    withObject find? name act s = act a s := by
  rw [withObject, get_bind_apply, h]

theorem withObject_of_none {α : Type} {find? : Session → String → Option α} {name : String}
    {act : α → SessionM Answer} {s : Session} (h : find? s name = none) :
    withObject find? name act s = (.unknown, s) := by
  rw [withObject, get_bind_apply, h]
  rfl

section Scripts

variable {α β : Type} {m : ScriptM α} {f : α → ScriptM β} {s u : Session}

/-- What goes well is followed by the rest. -/
theorem run_bind_of_ok {a : α} (h : m.run s = (.ok a, u)) : (m >>= f).run s = (f a).run u := by
  rw [ExceptT.run_bind, bind_apply, h]

theorem run_bind_of_error {v : Value} (h : m.run s = (.error v, u)) :
    (m >>= f).run s = (.error v, u) := by
  rw [ExceptT.run_bind, bind_apply, h]
  rfl

theorem run_lift_bind {m : SessionM α} :
    ((liftM m : ScriptM α) >>= f).run s = (f (m s).1).run (m s).2 :=
  run_bind_of_ok rfl

end Scripts

namespace Orderly

variable {α β : Type} {o : Session} {m : SessionM α}

theorem of_move (h : ∀ s, Move s (m s).2) : Orderly o m := fun s _ => .single (h s)

theorem pure (a : α) : Orderly o (Pure.pure a : SessionM α) := fun _ _ => .refl

theorem bind {f : α → SessionM β} (hm : Orderly o m) (hf : ∀ a, Orderly o (f a)) :
    Orderly o (m >>= f) :=
  fun s hs => (hm s hs).trans (hf (m s).1 (m s).2 (hs.trans (hm s hs)))

theorem moves {a : α} {s t : Session} (hm : Orderly o m) (hs : Moves o s) (h : m s = (a, t)) :
    Moves s t := by
  have hmoves := hm s hs
  rwa [h] at hmoves

theorem get : Orderly o (MonadState.get : SessionM Session) := fun _ _ => .refl

theorem elsewhere (h : ∀ s, Elsewhere s (m s).2) : Orderly o m := of_move fun s => .elsewhere (h s)

end Orderly

/-! ### What moves keep -/

section Queues

variable {s t : Session} {i : Nat}

theorem holds_quietOutlet_iff : (quietOutlet i).Holds s ↔ i < s.queues.size := by
  constructor
  · intro h
    refine Decidable.byContradiction fun hi => ?_
    -- where there is no queue, two different ones would be found in the same place
    have hq := h { context := 0, closed := true }
    have hq' := h { context := 0, closed := false }
    simp only [quietOutlet, Array.getElem?_modify] at hq hq'
    rw [Array.getElem?_eq_none (Nat.le_of_not_lt hi)] at hq hq'
    simp only [if_true, Option.map_none] at hq hq'
    rw [hq] at hq'
    exact absurd (congrArg Queue.closed hq') (by simp)
  · intro hi q
    simp [quietOutlet, Array.getElem?_modify, Array.getElem?_eq_getElem hi]

theorem quietOutlet_lawful (i : Nat) : (quietOutlet i).Lawful where
  holds_setQueue q h := by
    rw [holds_quietOutlet_iff] at h ⊢
    simpa [quietOutlet] using h
  holds_log l h := h
  queue_log l s := rfl

/-- Changing a queue where it stands. -/
theorem modifyQueue_snd (i : Nat) (f : Queue → Queue) (s : Session) :
    (modifyQueue i f s).2 = (quietOutlet i).setQueue (f ((quietOutlet i).queue s)) s := by
  have hqueues : s.queues.modify i (fun o => { o with queue := f o.queue }) =
      s.queues.modify i fun o => { o with queue := f ((quietOutlet i).queue s) } := by
    -- place by place: only that of the queue changes, and there the queue is the one read
    refine Array.ext_getElem? fun j => ?_
    rw [Array.getElem?_modify, Array.getElem?_modify]
    by_cases hj : i = j
    · subst hj
      simp only [if_true]
      cases ho : s.queues[i]? with
      | none => rfl
      | some o => simp [quietOutlet, ho]
    · rw [if_neg hj, if_neg hj]
  exact congrArg (fun queues => { s with queues }) hqueues

/-- Disposing of a valid context invalidates it and closes its queue. -/
theorem disposeContext_snd (i : Nat) (s : Session) :
    (disposeContext i s).2 =
      let c := s.contexts[i]?.getD default
      if c.valid then
        (quietOutlet c.queue).log (.contextDisposed c.id) ((quietOutlet c.queue).close
          { s with contexts := s.contexts.modify i fun c => { c with valid := false } })
      else s := by
  -- the context is read first, and what follows depends on it only
  have hrun : disposeContext i s =
      (if (s.contexts[i]?.getD default).valid then do
        modifyContext i fun c => { c with valid := false }
        modifyQueue (s.contexts[i]?.getD default).queue Queue.close
        log (.contextDisposed (s.contexts[i]?.getD default).id)
      else Pure.pure () : SessionM Unit) s := rfl
  rw [hrun]
  dsimp only
  split
  · rw [Outlet.close]
    exact congrArg ((quietOutlet _).log _) (modifyQueue_snd _ Queue.close _)
  · rfl

/-- Where the queues are the same, nothing has happened to any of them. -/
theorem run_of_queues_eq (h : t.queues = s.queues) : (quietOutlet i).Run s [] t := by
  refine .elsewhere ?_ (fun hs => ?_) (.nil t)
  · exact congrArg (fun queues : Array QueueObject => (queues[i]?.getD default).queue) h
  · rw [holds_quietOutlet_iff] at hs ⊢
    rwa [h]

/-- Seen from one queue, a call on any queue is at most a call. -/
theorem run_of_step {j : Nat} {e : Outlet.Event} (step : (quietOutlet j).Step s e t) :
    ∃ history, (quietOutlet i).Run s history t := by
  by_cases hij : j = i
  · subst hij
    exact ⟨[e], .call step (.nil t)⟩
  · -- the call replaces another queue, so this one and the number of queues stay
    have hother : (quietOutlet i).queue t = (quietOutlet i).queue s ∧
        t.queues.size = s.queues.size := by
      refine step.preserves (P := fun u => (quietOutlet i).queue u = (quietOutlet i).queue s ∧
        u.queues.size = s.queues.size) (fun q u hu => ?_) (fun l u hu => hu) ⟨rfl, rfl⟩
      simpa [quietOutlet, Array.getElem?_modify, hij] using hu
    refine ⟨[], .elsewhere hother.1 (fun hs => ?_) (.nil t)⟩
    rw [holds_quietOutlet_iff] at hs ⊢
    rwa [hother.2]

/-- Seen from one queue, a move is a run of calls on it. -/
theorem Move.run (h : Move s t) (hi : i < s.queues.size) :
    ∃ history, (quietOutlet i).Run s history t := by
  cases h with
  | elsewhere h => exact ⟨[], run_of_queues_eq h.queues⟩
  | newQueue context batching sink =>
    refine ⟨[], .elsewhere ?_ (fun _ => ?_) (.nil _)⟩
    · simp only [quietOutlet, Array.getElem?_push, if_neg (Nat.ne_of_lt hi)]
    · rw [holds_quietOutlet_iff, Array.size_push]
      exact Nat.lt_succ_of_lt hi
  | queue j step => exact run_of_step step
  | newContext c => exact ⟨[], run_of_queues_eq rfl⟩
  | dispose j =>
    rw [disposeContext_snd]
    dsimp only
    split
    · -- seen from a queue: the context changes, a queue is closed, and that is logged
      generalize s.contexts[j]?.getD default = c
      have hinvalid : (quietOutlet i).Run s []
          { s with contexts := s.contexts.modify j fun c => { c with valid := false } } :=
        run_of_queues_eq rfl
      obtain ⟨history, hclose⟩ := run_of_step (i := i) (.close (w := quietOutlet c.queue)
        { s with contexts := s.contexts.modify j fun c => { c with valid := false } })
      exact ⟨_, (hinvalid.trans hclose).trans (run_of_queues_eq rfl)⟩
    · exact ⟨[], .nil s⟩
  | newDispatcher context => exact ⟨[], run_of_queues_eq rfl⟩
  | roster j => exact ⟨[], run_of_queues_eq rfl⟩
  | newRuntime context => exact ⟨[], run_of_queues_eq rfl⟩
  | runtime j f => exact ⟨[], run_of_queues_eq rfl⟩

theorem Moves.run (h : Moves s t) (hi : i < s.queues.size) :
    i < t.queues.size ∧ ∃ history, (quietOutlet i).Run s history t := by
  induction h with
  | refl => exact ⟨hi, [], .nil s⟩
  | tail _ hmove ih =>
    -- the queue is still there after the moves before, so the next one is a run on it too
    obtain ⟨hsize, before, hbefore⟩ := ih
    obtain ⟨after, hafter⟩ := hmove.run hsize
    have hlaw := quietOutlet_lawful i
    refine ⟨?_, _, hbefore.trans hafter⟩
    exact holds_quietOutlet_iff.mp (hafter.holds hlaw (holds_quietOutlet_iff.mpr hsize))

/-- A queue stays where it is and keeps the name of its context. -/
theorem Moves.queue_context (h : Moves s t) (hi : i < s.queues.size) :
    i < t.queues.size ∧
      ((quietOutlet i).queue t).context = ((quietOutlet i).queue s).context := by
  obtain ⟨hsize, history, hrun⟩ := h.run hi
  exact ⟨hsize, hrun.context_eq (quietOutlet_lawful i) (holds_quietOutlet_iff.mpr hi)⟩

/-- A closed queue stays closed. -/
theorem Moves.queue_closed (h : Moves s t) (hi : i < s.queues.size)
    (hclosed : ((quietOutlet i).queue s).closed = true) :
    ((quietOutlet i).queue t).closed = true := by
  obtain ⟨-, history, hrun⟩ := h.run hi
  exact (hrun.closed_iff (quietOutlet_lawful i) (holds_quietOutlet_iff.mpr hi)).mpr (Or.inl hclosed)

end Queues

/-! ### Contexts -/

section Contexts

variable {s t : Session} {i : Nat} {c : Context}

/-- A context stays what it is, except that it may become invalid. -/
theorem Move.context (h : Move s t) (hc : s.contexts[i]? = some c) :
    t.contexts[i]? = some c ∨ t.contexts[i]? = some { c with valid := false } := by
  cases h with
  | elsewhere h => exact Or.inl (h.contexts ▸ hc)
  | newQueue context batching sink => exact Or.inl hc
  | queue j step =>
    refine Or.inl ?_
    exact step.preserves (P := fun u => u.contexts[i]? = some c) (fun q u hu => hu)
      (fun l u hu => hu) hc
  | newContext c' =>
    refine Or.inl ?_
    rw [Array.getElem?_push, if_neg, hc]
    exact Nat.ne_of_lt (Array.getElem?_eq_some_iff.mp hc).1
  | dispose j =>
    rw [disposeContext_snd]
    dsimp only
    split
    · show (s.contexts.modify j _)[i]? = some c ∨ (s.contexts.modify j _)[i]? = some _
      rw [Array.getElem?_modify, hc]
      by_cases hj : j = i
      · exact Or.inr (by rw [if_pos hj]; rfl)
      · exact Or.inl (by rw [if_neg hj])
    · exact Or.inl hc
  | newDispatcher context => exact Or.inl hc
  | roster j => exact Or.inl hc
  | newRuntime context => exact Or.inl hc
  | runtime j f => exact Or.inl hc

/-- Every context has a queue of its name, and that of an invalid one is closed. -/
structure Sound (s : Session) : Prop where
  queue_lt : ∀ (i : Nat) (c : Context), s.contexts[i]? = some c → c.queue < s.queues.size
  named : ∀ (i : Nat) (c : Context), s.contexts[i]? = some c →
    ((quietOutlet c.queue).queue s).context = c.id
  closed : ∀ (i : Nat) (c : Context), s.contexts[i]? = some c → c.valid = false →
    ((quietOutlet c.queue).queue s).closed = true

theorem sound_empty : Sound {} := by
  refine ⟨?_, ?_, ?_⟩ <;> intro i c hc <;> simp at hc

/-- A context after a move was one before, or it is new. -/
theorem Move.context_before (h : Move s t) (hs : s.Sound) (hc : t.contexts[i]? = some c) :
    (∃ c₀, s.contexts[i]? = some c₀ ∧ c₀.queue = c.queue ∧ c₀.id = c.id ∧
        (c.valid = false → c₀.valid = false ∨ ((quietOutlet c.queue).queue t).closed = true)) ∨
      (c.valid = true ∧ c.queue < s.queues.size ∧
        ((quietOutlet c.queue).queue s).context = c.id) := by
  cases h with
  | elsewhere h => exact Or.inl ⟨c, h.contexts ▸ hc, rfl, rfl, Or.inl⟩
  | newQueue context batching sink => exact Or.inl ⟨c, hc, rfl, rfl, Or.inl⟩
  | queue j step =>
    have hcontexts : t.contexts = s.contexts :=
      step.preserves (P := fun u => u.contexts = s.contexts) (fun q u hu => hu)
        (fun l u hu => hu) rfl
    exact Or.inl ⟨c, hcontexts ▸ hc, rfl, rfl, Or.inl⟩
  | newContext c' _ hvalid hqueue hid =>
    rw [Array.getElem?_push] at hc
    split at hc
    next =>
      injection hc with hc
      subst hc
      exact Or.inr ⟨hvalid, hqueue, hid⟩
    next => exact Or.inl ⟨c, hc, rfl, rfl, Or.inl⟩
  | dispose j =>
    rw [disposeContext_snd] at hc ⊢
    dsimp only at hc ⊢
    split at hc
    next hvalid =>
      rw [if_pos hvalid]
      have hmodify : (s.contexts.modify j fun c => { c with valid := false })[i]? = some c := hc
      rw [Array.getElem?_modify] at hmodify
      by_cases hj : j = i
      · -- the one that was disposed of: its queue has been closed in the same move
        subst hj
        rw [if_pos rfl, Option.map_eq_some_iff] at hmodify
        obtain ⟨c₀, hc₀, rfl⟩ := hmodify
        refine Or.inl ⟨c₀, hc₀, rfl, rfl, fun _ => Or.inr ?_⟩
        have hlt := hs.queue_lt j c₀ hc₀
        simp [quietOutlet, Outlet.close, Queue.close, Array.getElem?_modify, hc₀,
          Array.getElem?_eq_getElem hlt]
      · rw [if_neg hj] at hmodify
        exact Or.inl ⟨c, hmodify, rfl, rfl, Or.inl⟩
    next => exact Or.inl ⟨c, hc, rfl, rfl, Or.inl⟩
  | newDispatcher context => exact Or.inl ⟨c, hc, rfl, rfl, Or.inl⟩
  | roster j => exact Or.inl ⟨c, hc, rfl, rfl, Or.inl⟩
  | newRuntime context => exact Or.inl ⟨c, hc, rfl, rfl, Or.inl⟩
  | runtime j f => exact Or.inl ⟨c, hc, rfl, rfl, Or.inl⟩

theorem Move.sound (h : Move s t) (hs : s.Sound) : t.Sound := by
  have hqueue : ∀ {j : Nat}, j < s.queues.size → j < t.queues.size ∧
      ((quietOutlet j).queue t).context = ((quietOutlet j).queue s).context :=
    Moves.queue_context (.single h)
  -- every context was there before the move, with its queue, or is new and valid
  have hbefore := fun {i c} => h.context_before hs (i := i) (c := c)
  refine ⟨fun i c hc => ?_, fun i c hc => ?_, fun i c hc hinvalid => ?_⟩
  · obtain ⟨c₀, hc₀, hq, -, -⟩ | ⟨-, hlt, -⟩ := hbefore hc
    · exact hq ▸ (hqueue (hs.queue_lt i c₀ hc₀)).1
    · exact (hqueue hlt).1
  · obtain ⟨c₀, hc₀, hq, hid, -⟩ | ⟨-, hlt, hid⟩ := hbefore hc
    · rw [← hq, ← hid, (hqueue (hs.queue_lt i c₀ hc₀)).2]
      exact hs.named i c₀ hc₀
    · rw [(hqueue hlt).2, hid]
  · obtain ⟨c₀, hc₀, hq, -, hclosed⟩ | ⟨hvalid, -, -⟩ := hbefore hc
    · rcases hclosed hinvalid with h₀ | hclosed
      · rw [← hq]
        exact Moves.queue_closed (.single h) (hs.queue_lt i c₀ hc₀) (hs.closed i c₀ hc₀ h₀)
      · exact hclosed
    · exact absurd hvalid (by simp [hinvalid])

theorem Moves.sound (h : Moves s t) (hs : s.Sound) : t.Sound := by
  induction h with
  | refl => exact hs
  | tail _ hmove ih => exact hmove.sound ih

/-- A context that is invalid, whose queue has its name and is closed. -/
structure Disposed (i : Nat) (c : Context) (s : Session) : Prop where
  context : s.contexts[i]? = some c
  invalid : c.valid = false
  queue_lt : c.queue < s.queues.size
  named : ((quietOutlet c.queue).queue s).context = c.id
  closed : ((quietOutlet c.queue).queue s).closed = true

theorem Sound.disposed (hs : s.Sound) (hc : s.contexts[i]? = some c) (hinvalid : c.valid = false) :
    Disposed i c s :=
  ⟨hc, hinvalid, hs.queue_lt i c hc, hs.named i c hc, hs.closed i c hc hinvalid⟩

/-- What is disposed of stays so. -/
theorem Disposed.moves (hd : Disposed i c s) (h : Moves s t) : Disposed i c t := by
  induction h with
  | refl => exact hd
  | tail _ hmove ih =>
    have hsame : { c with valid := false } = c := by rw [← hd.invalid]
    obtain ⟨hlt, hnamed⟩ := Moves.queue_context (.single hmove) ih.queue_lt
    refine ⟨?_, hd.invalid, hlt, hnamed.trans ih.named, ?_⟩
    · rcases hmove.context ih.context with h | h
      · exact h
      · rwa [hsame] at h
    · exact Moves.queue_closed (.single hmove) ih.queue_lt ih.closed

end Contexts

end ScriptHost.Session

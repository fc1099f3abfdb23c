/-
Histories of a command queue.

Many callers work on one queue, and the sink that is told of waiting commands may call it again
before the append that told it has returned.  A `Run` follows all of this call by call, over any
state in which a queue is kept, and lists what was called and what came back:

* `Run.append_result` — an append succeeds exactly when nobody has closed the queue before;
* `Run.drained_append_pending` — what was drained, followed by what waits, is what was appended;
* `Run.closed_iff`, `Run.context_eq` — a queue is closed for good, and keeps its name;
* `Run.conserves` — all of it together.

Design notes: the notification is the only place where a call can be interrupted.  So an append is
taken up to that place (`silent`), and whatever the sink does there follows as events of its own;
a run may break off at any point, also while a sink is at work.  When the sink has done its part
nothing is left of the append (`append_snd`), so complete calls are runs too (`Run.append`).
-/
import ScriptHost.Command.Outlet
import ScriptHost.Proofs.Text.Units

namespace ScriptHost

namespace Command

/-- A command as its sender wrote it: with payloads that are texts. -/
def texts (c : Command) : Int × CommandKind × Option String × Option String × Option Nat :=
  (c.target, c.kind, c.first.map Text.Units.toText, c.second.map Text.Units.toText, c.native)

theorem texts_make (target : Int) (kind : CommandKind) (first second : Option String)
    (native : Option Nat) :
    (make target kind first second native).texts = (target, kind, first, second, native) := by
  have hround : ∀ p : Option String,
      (p.map Text.Units.ofString).map Text.Units.toText = p := by
    intro p
    cases p with
    | none => rfl
    | some text => rw [Option.map_some, Option.map_some, Text.Units.toText_ofString]
  rw [texts, make, hround, hround]

end Command

namespace Outlet

variable {σ : Type}

/-- A call on a queue, with what came back. -/
inductive Event where
  | append (c : Command) (result : Except Fault Unit)
  | drain (batch : Array Command)
  | setBatching (on : Bool)
  | flush (pending : Bool)
  | close

/-- The commands whose append succeeded, in order. -/
def accepted : List Event → List Command
  | [] => []
  | .append c (.ok ()) :: h => c :: accepted h
  | _ :: h => accepted h

/-- The drained batches, one after the other. -/
def drained : List Event → List Command
  | [] => []
  | .drain batch :: h => batch.toList ++ drained h
  | _ :: h => drained h

/-- The queue has been closed when such a history has happened to it. -/
def ClosedAfter (q : Queue) (h : List Event) : Prop := q.closed = true ∨ .close ∈ h

/-- The same outlet with nobody to be told; its operations end where a sink would be told. -/
def silent (w : Outlet σ) : Outlet σ := { w with signal := fun _ s => s }

/-- The queue is really there: what is put in its place is found there. -/
def Holds (w : Outlet σ) (s : σ) : Prop := ∀ q, w.queue (w.setQueue q s) = q

/-- A queue that has been replaced is still there, and the log leaves it alone. -/
structure Lawful (w : Outlet σ) : Prop where
  holds_setQueue {s : σ} (q : Queue) : w.Holds s → w.Holds (w.setQueue q s)
  holds_log {s : σ} (l : Log) : w.Holds s → w.Holds (w.log l s)
  queue_log (l : Log) (s : σ) : w.queue (w.log l s) = w.queue s

/-- One call, up to the point where a sink is told. -/
inductive Step (w : Outlet σ) : σ → Event → σ → Prop
  | append (c : Command) (s : σ) :
      Step w s (.append c (w.append c s).1) (w.silent.append c s).2
  | drain (s : σ) : Step w s (.drain (w.drain s).1) (w.drain s).2
  | setBatching (on : Bool) (s : σ) : Step w s (.setBatching on) (w.setBatching on s)
  | flush (s : σ) : Step w s (.flush (w.flush s).1) (w.silent.flush s).2
  | close (s : σ) : Step w s .close (w.close s)

/-- A run from one state to another, with what happened to the queue on the way.  Between the
calls anything may happen that leaves the queue as it is. -/
inductive Run (w : Outlet σ) : σ → List Event → σ → Prop
  | nil (s : σ) : Run w s [] s
  | elsewhere {s t u : σ} {h : List Event} (hq : w.queue t = w.queue s)
      (hs : w.Holds s → w.Holds t) (rest : Run w t h u) : Run w s h u
  | call {s t u : σ} {e : Event} {h : List Event} (step : Step w s e t) (rest : Run w t h u) :
      Run w s (e :: h) u

variable {w : Outlet σ}

/-! ### Complete calls -/

/-- Up to the place where a sink is told, an append to an open queue is a push and a log. -/
theorem silent_append_of_open {s : σ} (hc : (w.queue s).closed = false) (c : Command) :
    (w.silent.append c s).2 = w.log (.commandAppended (w.queue s).context c.kind c.target)
      (w.setQueue { w.queue s with pending := (w.queue s).pending.push c } s) := by
  rw [append, show w.silent.queue s = w.queue s from rfl, Queue.push_eq_ok_iff.2 ⟨hc, rfl⟩]
  -- batching makes no difference: the silent outlet does nothing when it signals
  show (if _ then _ else _) = _
  rw [show w.silent.signal = fun _ s => s from rfl, ite_self]
  rfl

/-- An append is its change to the queue, after which the sink is told or not, and nothing else. -/
theorem append_snd (w : Outlet σ) (c : Command) (s : σ) :
    (w.append c s).2 = (w.silent.append c s).2 ∨
      (w.append c s).2 = w.signal (w.queue s).context (w.silent.append c s).2 := by
  cases hc : (w.queue s).closed with
  | true =>
    rw [append_of_closed w hc, append_of_closed w.silent hc]
    exact Or.inl rfl
  | false =>
    rw [silent_append_of_open hc, append, Queue.push_eq_ok_iff.2 ⟨hc, rfl⟩]
    dsimp only
    split
    · exact Or.inr rfl
    · exact Or.inl rfl

theorem flush_snd (w : Outlet σ) (s : σ) :
    (w.flush s).2 = s ∨ (w.flush s).2 = w.signal (w.queue s).context s := by
  rw [flush]
  split
  · exact Or.inr rfl
  · exact Or.inl rfl

theorem silent_flush_snd (w : Outlet σ) (s : σ) : (w.silent.flush s).2 = s := by
  rcases flush_snd w.silent s with h | h
  · exact h
  · exact h

namespace Run

theorem trans {s t u : σ} {h h' : List Event} (hst : w.Run s h t) (htu : w.Run t h' u) :
    w.Run s (h ++ h') u := by
  induction hst with
  | nil => exact htu
  | elsewhere hq hs _ ih => exact .elsewhere hq hs (ih htu)
  | call step _ ih => exact .call step (ih htu)

/-- Where all that a sink does is a run, a complete append is one as well. -/
theorem append (hsink : ∀ context s, ∃ h, w.Run s h (w.signal context s)) (c : Command) (s : σ) :
    ∃ h, w.Run s (.append c (w.append c s).1 :: h) (w.append c s).2 := by
  rcases append_snd w c s with h | h
  · rw [h]
    exact ⟨[], .call (.append c s) (.nil _)⟩
  · obtain ⟨told, htold⟩ := hsink (w.queue s).context (w.silent.append c s).2
    rw [h]
    exact ⟨told, .call (.append c s) htold⟩

theorem flush (hsink : ∀ context s, ∃ h, w.Run s h (w.signal context s)) (s : σ) :
    ∃ h, w.Run s (.flush (w.flush s).1 :: h) (w.flush s).2 := by
  obtain ⟨told, htold⟩ := hsink (w.queue s).context s
  rcases flush_snd w s with h | h
  · refine ⟨[], .call (.flush s) ?_⟩
    rw [silent_flush_snd, h]
    exact .nil s
  · refine ⟨told, .call (.flush s) ?_⟩
    rw [silent_flush_snd, h]
    exact htold

/-- A run passes a state at every point of its history. -/
theorem initial {s t : σ} {h₁ h₂ : List Event} (run : w.Run s (h₁ ++ h₂) t) :
    ∃ u, w.Run s h₁ u ∧ w.Run u h₂ t := by
  -- the induction is on the run, so the history must be a variable and the first part of it free
  generalize hh : h₁ ++ h₂ = h at run
  induction run generalizing h₁ with
  | nil s =>
    obtain ⟨rfl, rfl⟩ := List.append_eq_nil_iff.mp hh
    exact ⟨s, .nil s, .nil s⟩
  | elsewhere hq hs _ ih =>
    obtain ⟨u, hu, hut⟩ := ih hh
    exact ⟨u, .elsewhere hq hs hu, hut⟩
  | @call s _ _ e h step rest ih =>
    rcases h₁ with _ | ⟨e', h₁⟩
    · subst hh
      exact ⟨s, .nil s, .call step rest⟩
    · obtain ⟨rfl, rfl⟩ := List.cons_eq_cons.mp hh
      obtain ⟨u, hu, hut⟩ := ih rfl
      exact ⟨u, .call step hu, hut⟩

/-- The first event of a run is a call that was made before the queue changed. -/
theorem first {s t : σ} {e : Event} {h : List Event} (run : w.Run s (e :: h) t) :
    ∃ u v, w.Run s [] u ∧ w.Step u e v ∧ w.Run v h t := by
  generalize hh : e :: h = h' at run
  induction run with
  | nil => exact absurd hh (List.cons_ne_nil e h)
  | elsewhere hq hs _ ih =>
    obtain ⟨u, v, hu, hstep, hrest⟩ := ih hh
    exact ⟨u, v, .elsewhere hq hs hu, hstep, hrest⟩
  | @call s v _ e' h' step rest _ =>
    obtain ⟨rfl, rfl⟩ := List.cons_eq_cons.mp hh
    exact ⟨s, v, .nil s, step, rest⟩

end Run

/-! ### What a call does to the queue -/

theorem queue_append_of_closed (law : w.Lawful) {s : σ} (hc : (w.queue s).closed = true)
    (c : Command) : w.queue (w.silent.append c s).2 = w.queue s := by
  rw [append_of_closed w.silent hc]
  exact law.queue_log _ s

theorem queue_append_of_open (law : w.Lawful) {s : σ} (hs : w.Holds s)
    (hc : (w.queue s).closed = false) (c : Command) :
    w.queue (w.silent.append c s).2 =
      { w.queue s with pending := (w.queue s).pending.push c } := by
  rw [silent_append_of_open hc, law.queue_log]
  exact hs _

theorem queue_drain (law : w.Lawful) {s : σ} (hs : w.Holds s) :
    w.queue (w.drain s).2 = { w.queue s with pending := #[] } := by
  show w.queue (if _ then _ else _) = _
  split
  · exact hs _
  · exact (law.queue_log _ _).trans (hs _)

/-- What a call makes of a queue. -/
def Event.effect : Event → Queue → Queue
  | .append c (.ok ()), q => { q with pending := q.pending.push c }
  | .append _ (.error _), q => q
  | .drain _, q => { q with pending := #[] }
  | .setBatching on, q => { q with batching := on }
  | .flush _, q => q
  | .close, q => { q with closed := true }

namespace Step

variable {s t : σ} {e : Event}

/-- A call replaces the queue and writes to the log, and does nothing else. -/
theorem preserves {P : σ → Prop} (hset : ∀ q s, P s → P (w.setQueue q s))
    (hlog : ∀ l s, P s → P (w.log l s)) (step : w.Step s e t) (hs : P s) : P t := by
  cases step with
  | append c =>
    cases hc : (w.queue s).closed with
    | true =>
      rw [append_of_closed w.silent hc]
      exact hlog _ s hs
    | false =>
      rw [silent_append_of_open hc]
      exact hlog _ _ (hset _ s hs)
  | drain =>
    -- an empty batch is not logged
    show P (if _ then _ else _)
    split
    · exact hset _ s hs
    · exact hlog _ _ (hset _ s hs)
  | setBatching on => exact hset _ s hs
  | flush => exact (silent_flush_snd w s).symm ▸ hs
  | close => exact hset _ s hs

theorem holds (law : w.Lawful) (step : w.Step s e t) (hs : w.Holds s) : w.Holds t :=
  step.preserves (P := w.Holds) (fun q _ => law.holds_setQueue q) (fun l _ => law.holds_log l) hs

theorem queue_eq (law : w.Lawful) (step : w.Step s e t) (hs : w.Holds s) :
    w.queue t = e.effect (w.queue s) := by
  cases step with
  | append c =>
    cases hc : (w.queue s).closed with
    | true => rw [queue_append_of_closed law hc, append_of_closed w hc, Event.effect]
    | false => rw [queue_append_of_open law hs hc, append_of_open w hc, Event.effect]
  | drain => exact queue_drain law hs
  | setBatching on => exact hs _
  | flush => rw [silent_flush_snd, Event.effect]
  | close => exact hs _

end Step

/-! ### What a run does to it -/

namespace Run

variable {s t : σ} {h : List Event}

theorem holds (law : w.Lawful) (run : w.Run s h t) (hs : w.Holds s) : w.Holds t := by
  induction run with
  | nil => exact hs
  | elsewhere _ hh _ ih => exact ih (hh hs)
  | call step _ ih => exact ih (step.holds law hs)

/-- The calls determine the queue. -/
theorem queue_eq (law : w.Lawful) (run : w.Run s h t) (hs : w.Holds s) :
    w.queue t = h.foldl (fun q e => e.effect q) (w.queue s) := by
  induction run with
  | nil => rfl
  | elsewhere hq hh _ ih => rw [ih (hh hs), hq]
  | call step _ ih => rw [ih (step.holds law hs), step.queue_eq law hs, List.foldl_cons]

end Run

/-! ### Histories -/

theorem context_effects (h : List Event) (q : Queue) :
    (h.foldl (fun q e => e.effect q) q).context = q.context := by
  induction h generalizing q with
  | nil => rfl
  | cons e h ih =>
    rw [List.foldl_cons, ih]
    rcases e with ⟨_, _ | _⟩ | _ | _ | _ | _ <;> rfl

theorem closed_effects (h : List Event) (q : Queue) :
    (h.foldl (fun q e => e.effect q) q).closed = true ↔ ClosedAfter q h := by
  induction h generalizing q with
  | nil => simp [ClosedAfter]
  | cons e h ih =>
    rw [List.foldl_cons, ih]
    rcases e with ⟨_, _ | _⟩ | _ | _ | _ | _ <;> simp [ClosedAfter, Event.effect]

namespace Run

variable {s t : σ} {h : List Event}

/-- The queue keeps the name of its context. -/
theorem context_eq (law : w.Lawful) (run : w.Run s h t) (hs : w.Holds s) :
    (w.queue t).context = (w.queue s).context := by
  rw [run.queue_eq law hs, context_effects]

/-- Nothing but `close` closes a queue, and nothing opens it again. -/
theorem closed_iff (law : w.Lawful) (run : w.Run s h t) (hs : w.Holds s) :
    (w.queue t).closed = true ↔ ClosedAfter (w.queue s) h := by
  rw [run.queue_eq law hs, closed_effects]

/-- On a closed queue nothing is accepted. -/
theorem accepted_of_closed (law : w.Lawful) (run : w.Run s h t) (hs : w.Holds s)
    (hclosed : (w.queue s).closed = true) : accepted h = [] := by
  induction run with
  | nil => rfl
  | elsewhere hq hh _ ih => exact ih (hh hs) (hq ▸ hclosed)
  | @call s t _ e _ step rest ih =>
    -- whatever the call was, the queue is still closed when the rest begins
    have hafter : (w.queue t).closed = true :=
      ((Run.call step (.nil t)).closed_iff law hs).mpr (Or.inl hclosed)
    have hrest := ih (step.holds law hs) hafter
    cases step with
    | append c =>
      rw [append_of_closed w hclosed]
      exact hrest
    | drain => exact hrest
    | setBatching on => exact hrest
    | flush => exact hrest
    | close => exact hrest

/-- What an append returns depends on what happened to the queue before. -/
theorem append_result (law : w.Lawful) (hs : w.Holds s) {h₁ h₂ : List Event} {c : Command}
    {result : Except Fault Unit} (run : w.Run s (h₁ ++ .append c result :: h₂) t) :
    (¬ ClosedAfter (w.queue s) h₁ ∧ result = .ok ()) ∨
      (ClosedAfter (w.queue s) h₁ ∧ result = .error (.contextDisposed (w.queue s).context)) := by
  -- `u'` is the state in which the append was called, and `h₁` is what led there
  obtain ⟨u, hsu, hut⟩ := run.initial
  obtain ⟨u', v, huu', hstep, -⟩ := hut.first
  have hsu' : w.Run s (h₁ ++ []) u' := hsu.trans huu'
  rw [List.append_nil] at hsu'
  have hclosed := hsu'.closed_iff law hs
  have hcontext := hsu'.context_eq law hs
  cases hstep with
  | append _ _ =>
    cases hc : (w.queue u').closed with
    | true => exact Or.inr ⟨hclosed.mp hc, by rw [append_of_closed w hc, hcontext]⟩
    | false =>
      refine Or.inl ⟨fun h => ?_, append_of_open w hc⟩
      rw [hclosed.mpr h] at hc
      exact absurd hc (by decide)

/-- Nothing is lost, doubled or put out of order between being appended and being drained. -/
theorem drained_append_pending (law : w.Lawful) (run : w.Run s h t) (hs : w.Holds s) :
    drained h ++ (w.queue t).pending.toList = (w.queue s).pending.toList ++ accepted h := by
  -- on the run: the first call moves a command or a batch from one side of the equation for the
  -- rest of the run to the other, or it leaves both sides alone
  induction run with
  | nil => simp [drained, accepted]
  | elsewhere hq hh _ ih => rw [ih (hh hs), hq]
  | @call s v u e h step rest ih =>
    have hrest := ih (step.holds law hs)
    rw [step.queue_eq law hs] at hrest
    cases step with
    | append c =>
      cases hc : (w.queue s).closed with
      | true =>
        rw [append_of_closed w hc] at hrest ⊢
        exact hrest
      | false =>
        rw [append_of_open w hc] at hrest ⊢
        simpa [drained, accepted, Event.effect] using hrest
    | drain => simpa [drained, accepted, Event.effect, drain_fst] using hrest
    | setBatching on => exact hrest
    | flush => exact hrest
    | close => exact hrest

/-- **A queue loses nothing.**  Whoever calls it in whatever order, the sink in the midst of an
append included: an append fails only when the queue has been closed before, and then for its
context; at every point of the run what has been drained, followed by what waits, is what waited
at first followed by what was appended; and a command shows the payload texts that it was made
with, an absent one as absent. -/
theorem conserves (law : w.Lawful) (hs : w.Holds s) (run : w.Run s h t) :
    (∀ h₁ c result h₂, h = h₁ ++ .append c result :: h₂ →
      (¬ ClosedAfter (w.queue s) h₁ ∧ result = .ok ()) ∨
        (ClosedAfter (w.queue s) h₁ ∧
          result = .error (.contextDisposed (w.queue s).context))) ∧
    (∀ h₁ h₂, h = h₁ ++ h₂ → ∃ u, w.Run s h₁ u ∧ w.Run u h₂ t ∧
      drained h₁ ++ (w.queue u).pending.toList = (w.queue s).pending.toList ++ accepted h₁) ∧
    ∀ target kind first second native,
      (Command.make target kind first second native).texts =
        (target, kind, first, second, native) := by
  refine ⟨fun h₁ c result h₂ hh => ?_, fun h₁ h₂ hh => ?_, Command.texts_make⟩
  · exact append_result law hs (hh ▸ run)
  · obtain ⟨u, hsu, hut⟩ := (hh ▸ run : w.Run s (h₁ ++ h₂) t).initial
    exact ⟨u, hsu, hut, hsu.drained_append_pending law hs⟩

end Run

/-- A queue on its own, whose sink drains it as soon as it is told. -/
def drainingQueue : Outlet Queue where
  queue q := q
  setQueue q _ := q
  signal _ q := q.drain.2
  log _ q := q

/-- An append in whose midst the sink drains, a closing, and an append that comes too late. -/
def drainingHistory (c : Command) : List Event :=
  [.append c (.ok ()), .drain #[c], .close, .append c (.error (.contextDisposed 7))]

theorem drainingQueue_run (c : Command) :
    drainingQueue.Run { context := 7 } (drainingHistory c) { context := 7, closed := true } :=
  .call (.append c _) (.call (.drain _) (.call (.close _) (.call (.append c _) (.nil _))))

theorem drainingQueue_conserves :
    let c := Command.make 1 .createElement (some "div") none none
    drainingQueue.Run { context := 7 } (drainingHistory c) { context := 7, closed := true } ∧
      ∃ u, drainingQueue.Run { context := 7 } [.append c (.ok ()), .drain #[c]] u ∧
        [c] ++ (drainingQueue.queue u).pending.toList = [] ++ [c] := by
  intro c
  have hrun := drainingQueue_run c
  have hlaw : drainingQueue.Lawful := ⟨fun _ _ _ => rfl, fun _ _ _ => rfl, fun _ _ => rfl⟩
  obtain ⟨u, hu, -, heq⟩ := (Run.conserves hlaw (fun _ => rfl) hrun).2.1
    [.append c (.ok ()), .drain #[c]] [.close, .append c (.error (.contextDisposed 7))] rfl
  exact ⟨hrun, u, hu, heq⟩

end Outlet
end ScriptHost

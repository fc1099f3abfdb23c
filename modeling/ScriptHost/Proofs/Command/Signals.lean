/-
Notifications of a command queue.

The renderer drains a queue when it is told that commands are waiting.  A notification that is
missing leaves them there, and one too many wakes the renderer for nothing; so it matters which
calls notify, and when.  Here somebody sits beside the queue and writes down when a call begins,
when the sink is told and when the call returns.  The main results are:

* `make_snd_of_due`, `make_snd_of_not_due` — a call tells the sink what is due once it has changed
  the queue, and nothing else;
* `make_watched` — the writing down changes nothing;
* `Watched.Run.punctual` — every call of every run, also one that a sink makes in the midst of
  another, tells what is due and nothing else, before it returns.

Design notes: what a sink does is not fixed.  In a `Watched.Run` each call has a sink of its own,
which may be any function whose doings are runs again, so that calls nest as deeply as one likes.
`Calls` is the shape of what has been written down then: calls after each other, and between the
notification and the return of a call those that its sink has made.  A call has changed the queue
before it tells anybody, so each finds what those begun before it have made of the queue.
-/
import ScriptHost.Proofs.Command.History

namespace ScriptHost

/-- A notification, with what waits in the queue at the moment when it is delivered. -/
structure Notice where
  context : ContextId
  pending : Array Command
  deriving DecidableEq

namespace Outlet

variable {σ : Type}

/-- What one can ask of a queue. -/
inductive Call where
  | append (c : Command)
  | drain
  | setBatching (on : Bool)
  | flush
  | close

/-- Makes a call. -/
def make (w : Outlet σ) : Call → σ → Event × σ
  | .append c, s => (.append c (w.append c s).1, (w.append c s).2)
  | .drain, s => (.drain (w.drain s).1, (w.drain s).2)
  | .setBatching on, s => (.setBatching on, w.setBatching on s)
  | .flush, s => (.flush (w.flush s).1, (w.flush s).2)
  | .close, s => (.close, w.close s)

end Outlet

namespace Queue

/-- The notification that a call on this queue has to raise.  An append that succeeds raises one
unless the queue is batching, a flush raises one if it finds commands, and nothing else does. -/
def due (q : Queue) : Outlet.Call → Option Notice
  | .append c =>
    if q.closed ∨ q.batching then none else some ⟨q.context, q.pending.push c⟩
  | .flush => if q.pending = #[] then none else some ⟨q.context, q.pending⟩
  | .drain | .setBatching _ | .close => none

/-- What a call on this queue returns. -/
def answer (q : Queue) : Outlet.Call → Outlet.Event
  | .append c => .append c (if q.closed then .error (.contextDisposed q.context) else .ok ())
  | .drain => .drain q.pending
  | .setBatching on => .setBatching on
  | .flush => .flush (q.pending ≠ #[])
  | .close => .close

/-- What a call makes of a queue. -/
def after (q : Queue) (call : Outlet.Call) : Queue := (q.answer call).effect q

variable {q : Queue} {call : Outlet.Call} {n : Notice} {c : Command}

theorem context_foldl_after (q : Queue) (calls : List Outlet.Call) :
    (calls.foldl after q).context = q.context := by
  induction calls generalizing q with
  | nil => rfl
  | cons call calls ih => exact (ih _).trans (Outlet.context_effects [q.answer call] q)

theorem due_append_eq_some_iff : q.due (.append c) = some n ↔
    q.closed = false ∧ q.batching = false ∧ n = ⟨q.context, q.pending.push c⟩ := by
  rw [due, Option.ite_none_left_eq_some, not_or, and_assoc, Option.some_inj,
    Bool.not_eq_true, Bool.not_eq_true, eq_comm (a := n)]

theorem due_flush_eq_some_iff :
    q.due .flush = some n ↔ q.pending ≠ #[] ∧ n = ⟨q.context, q.pending⟩ := by
  rw [due, Option.ite_none_left_eq_some, Option.some_inj, eq_comm (a := n)]

theorem context_of_due (h : q.due call = some n) : n.context = q.context := by
  cases call with
  | append c =>
    obtain ⟨-, -, rfl⟩ := due_append_eq_some_iff.mp h
    rfl
  | flush =>
    obtain ⟨-, rfl⟩ := due_flush_eq_some_iff.mp h
    rfl
  | drain | setBatching | close => cases h

/-- Whoever is told finds something. -/
theorem pending_of_due (h : q.due call = some n) : n.pending ≠ #[] := by
  cases call with
  | append c =>
    obtain ⟨-, -, rfl⟩ := due_append_eq_some_iff.mp h
    exact Array.push_ne_empty
  | flush =>
    obtain ⟨hne, rfl⟩ := due_flush_eq_some_iff.mp h
    exact hne
  | drain | setBatching | close => cases h

theorem back_of_due_append (h : q.due (.append c) = some n) : n.pending.back? = some c := by
  obtain ⟨-, -, rfl⟩ := due_append_eq_some_iff.mp h
  exact Array.back?_push

end Queue

namespace Outlet

/-! ### What a call returns and does -/

variable {w : Outlet σ}

theorem make_fst (call : Call) (s : σ) : (w.make call s).1 = (w.queue s).answer call := by
  cases call with
  | append c =>
    cases hc : (w.queue s).closed with
    | true => rw [make, append_of_closed w hc, Queue.answer, if_pos hc]
    | false => rw [make, append_of_open w hc, Queue.answer, if_neg (by rw [hc]; decide)]
  | flush =>
    show Event.flush (w.flush s).1 = _
    rw [flush_fst, Queue.answer, Queue.isPending]
    simp
  | drain | setBatching | close => rfl

/-- A call that has nobody to tell does all that it does without a sink. -/
theorem make_snd_of_not_due {call : Call} {s : σ} (h : (w.queue s).due call = none) :
    (w.make call s).2 = (w.silent.make call s).2 := by
  cases call with
  | append c =>
    cases hc : (w.queue s).closed with
    | true => rw [make, make, append_of_closed w hc, append_of_closed w.silent hc]; rfl
    | false =>
      have hb : (w.queue s).batching = true := by simpa [Queue.due, hc] using h
      show (w.append c s).2 = (w.silent.append c s).2
      rw [silent_append_of_open hc, append, Queue.push_eq_ok_iff.2 ⟨hc, rfl⟩]
      simp [Queue.signals, hb]
  | flush =>
    have hp : (w.queue s).pending = #[] := by simpa [Queue.due] using h
    show (w.flush s).2 = (w.silent.flush s).2
    rw [silent_flush_snd, flush]
    simp [Queue.isPending, hp]
  | drain | setBatching | close => rfl

/-- A call that has somebody to tell does so last of all. -/
theorem make_snd_of_due {call : Call} {s : σ} {n : Notice} (h : (w.queue s).due call = some n) :
    (w.make call s).2 = w.signal n.context (w.silent.make call s).2 := by
  cases call with
  | append c =>
    obtain ⟨hc, hb, rfl⟩ := Queue.due_append_eq_some_iff.mp h
    show (w.append c s).2 = w.signal _ (w.silent.append c s).2
    rw [silent_append_of_open hc, append, Queue.push_eq_ok_iff.2 ⟨hc, rfl⟩]
    simp [Queue.signals, hb]
  | flush =>
    obtain ⟨hp, rfl⟩ := Queue.due_flush_eq_some_iff.mp h
    show (w.flush s).2 = w.signal _ (w.silent.flush s).2
    rw [silent_flush_snd, flush]
    simp [Queue.isPending, hp]
  | drain | setBatching | close => cases h

theorem step_make (w : Outlet σ) (call : Call) (s : σ) :
    w.Step s ((w.queue s).answer call) (w.silent.make call s).2 := by
  rw [← make_fst]
  cases call with
  | append c => exact .append c s
  | drain => exact .drain s
  | setBatching on => exact .setBatching on s
  | flush => exact .flush s
  | close => exact .close s

/-- When the sink is told, what it is told about has happened. -/
theorem pending_make_of_due (law : w.Lawful) {s : σ} (hs : w.Holds s) {call : Call} {n : Notice}
    (h : (w.queue s).due call = some n) : (w.queue (w.silent.make call s).2).pending = n.pending := by
  rw [(step_make w call s).queue_eq law hs]
  cases call with
  | append c =>
    obtain ⟨hc, -, rfl⟩ := Queue.due_append_eq_some_iff.mp h
    rw [Queue.answer, if_neg (by rw [hc]; decide), Event.effect]
  | flush =>
    obtain ⟨-, rfl⟩ := Queue.due_flush_eq_some_iff.mp h
    rfl
  | drain | setBatching | close => cases h

/-! ### Writing down -/

/-- What is written down: the beginning of a call, with the queue that it finds; a notification;
the return of a call. -/
inductive Mark where
  | begins (call : Call) (q : Queue)
  | told (n : Notice)
  | returns (e : Event)

/-- A state with a queue, and what has been written down so far. -/
structure Watched (σ : Type) where
  state : σ
  marks : List Mark := []

def Watched.note (m : Mark) (x : Watched σ) : Watched σ := { x with marks := x.marks ++ [m] }

variable (w) (sink : ContextId → Watched σ → Watched σ)

/-- The queue of a watched state.  A notification is written down, with what waits in the queue,
before the sink is told. -/
def watched : Outlet (Watched σ) where
  queue x := w.queue x.state
  setQueue q x := { x with state := w.setQueue q x.state }
  signal context x := sink context (x.note (.told ⟨context, (w.queue x.state).pending⟩))
  log l x := { x with state := w.log l x.state }

/-- Makes a call whose beginning and return are written down. -/
def noted (call : Call) (x : Watched σ) : Watched σ :=
  let r := (w.watched sink).make call (x.note (.begins call (w.queue x.state)))
  r.2.note (.returns r.1)

variable {w sink}

theorem silent_make_watched (call : Call) (x : Watched σ) :
    ((w.watched sink).silent.make call x).2 = { x with state := (w.silent.make call x.state).2 } := by
  cases call with
  | append c =>
    show ((w.watched sink).silent.append c x).2 = { x with state := (w.silent.append c x.state).2 }
    cases hc : (w.queue x.state).closed with
    | true => rw [append_of_closed w.silent hc, append_of_closed (w.watched sink).silent hc]; rfl
    | false => rw [silent_append_of_open hc, silent_append_of_open (w := w.watched sink) hc]; rfl
  | drain =>
    exact (apply_ite (fun s => ({ x with state := s } : Watched σ)) _ _ _).symm
  | flush =>
    show ((w.watched sink).silent.flush x).2 = { x with state := (w.silent.flush x.state).2 }
    rw [silent_flush_snd, silent_flush_snd]
  | setBatching | close => rfl

/-- Where the sink does what is done on a notification anyway, a watched call does what the call
does. -/
theorem make_watched (hsink : ∀ context x, (sink context x).state = w.signal context x.state)
    (call : Call) (x : Watched σ) :
    ((w.watched sink).make call x).1 = (w.make call x.state).1 ∧
      ((w.watched sink).make call x).2.state = (w.make call x.state).2 := by
  refine ⟨by rw [make_fst, make_fst]; rfl, ?_⟩
  cases h : (w.queue x.state).due call with
  | none => rw [make_snd_of_not_due h, make_snd_of_not_due (w := w.watched sink) h,
      silent_make_watched]
  | some n =>
    rw [make_snd_of_due h, make_snd_of_due (w := w.watched sink) h, silent_make_watched]
    exact hsink n.context _

theorem noted_of_not_due {call : Call} {x : Watched σ} (hdue : (w.queue x.state).due call = none) :
    w.noted sink call x = { state := (w.silent.make call x.state).2, marks := x.marks ++
      [.begins call (w.queue x.state), .returns ((w.queue x.state).answer call)] } := by
  let x' := x.note (.begins call (w.queue x.state))
  have hnone : ((w.watched sink).queue x').due call = none := hdue
  show Watched.note (.returns ((w.watched sink).make call x').1) _ = _
  rw [make_snd_of_not_due hnone, silent_make_watched, make_fst, Watched.note]
  show Watched.mk _ (x.marks ++ [_] ++ [_]) = _
  rw [List.append_assoc]
  rfl

/-- What is told is what waits. -/
theorem noted_of_due (law : w.Lawful) {call : Call} {x : Watched σ} {n : Notice}
    (hx : w.Holds x.state) (hdue : (w.queue x.state).due call = some n) :
    w.noted sink call x = Watched.note (.returns ((w.queue x.state).answer call))
      (sink n.context { state := (w.silent.make call x.state).2, marks := x.marks ++
        [.begins call (w.queue x.state), .told n] }) := by
  let x' := x.note (.begins call (w.queue x.state))
  have hsome : ((w.watched sink).queue x').due call = some n := hdue
  have hpending := pending_make_of_due law hx hdue
  show Watched.note (.returns ((w.watched sink).make call x').1) _ = _
  rw [make_snd_of_due hsome, silent_make_watched, make_fst]
  show Watched.note _ (sink n.context (Watched.mk _ (x.marks ++ [_] ++
    [.told ⟨n.context, (w.queue (w.silent.make call x.state).2).pending⟩]))) = _
  rw [hpending, List.append_assoc]
  rfl

/-! ### The shape of what is written down -/

/-- The call that begins. -/
def Mark.call? : Mark → Option Call
  | .begins call _ => some call
  | .told _ | .returns _ => none

/-- What the calls that have begun make of a queue. -/
def turned (q : Queue) (m : List Mark) : Queue := (m.filterMap Mark.call?).foldl Queue.after q

theorem turned_append (q : Queue) (m t : List Mark) :
    turned q (m ++ t) = turned (turned q m) t := by
  rw [turned, List.filterMap_append, List.foldl_append]
  rfl

/-- A call turns the queue before it tells anybody. -/
theorem turned_loud (q q' : Queue) (call : Call) (n : Notice) (inside : List Mark) (e : Event)
    (rest : List Mark) : turned q (.begins call q' :: .told n :: (inside ++ .returns e :: rest)) =
      turned (turned (q.after call) inside) rest :=
  turned_append (q.after call) inside (.returns e :: rest)

/-- Complete calls on a queue, one after the other.  A call that is due to notify does so once, at
once, and returns when the calls that its sink makes are complete as well. -/
inductive Calls : Queue → List Mark → Prop
  | nil (q : Queue) : Calls q []
  | quiet {q : Queue} {call : Call} {rest : List Mark} (hdue : q.due call = none)
      (hrest : Calls (q.after call) rest) :
      Calls q (.begins call q :: .returns (q.answer call) :: rest)
  | loud {q : Queue} {call : Call} {n : Notice} {inside rest : List Mark}
      (hdue : q.due call = some n) (hinside : Calls (q.after call) inside)
      (hrest : Calls (turned (q.after call) inside) rest) :
      Calls q (.begins call q :: .told n :: (inside ++ .returns (q.answer call) :: rest))

/-- How it goes on after the beginning of a call. -/
inductive Proceeds (q : Queue) (call : Call) : List Mark → Prop
  | quiet (hdue : q.due call = none) (rest : List Mark) :
      Proceeds q call (.returns (q.answer call) :: rest)
  | loud {n : Notice} {inside : List Mark} (hdue : q.due call = some n)
      (hinside : Calls (q.after call) inside) (rest : List Mark) :
      Proceeds q call (.told n :: (inside ++ .returns (q.answer call) :: rest))

/-- A notification that has been delivered. -/
def Mark.notice? : Mark → Option Notice
  | .told n => some n
  | .begins _ _ | .returns _ => none

/-- A notification that a call has to raise. -/
def Mark.due? : Mark → Option Notice
  | .begins call q => q.due call
  | .told _ | .returns _ => none

/-- Notifications of the queue of a context as they should be, from a queue `q₀` on. -/
structure Punctual (q₀ : Queue) (m : List Mark) : Prop where
  /-- A call finds what the calls that have begun before it make of the queue. -/
  found : ∀ h call q t, m = h ++ .begins call q :: t → q = turned q₀ h
  /-- A call to which a notification is due delivers it before anything else happens, and only
  then returns; any other call returns at once. -/
  begun : ∀ h call q t, m = h ++ .begins call q :: t → q.context = q₀.context ∧ Proceeds q call t
  /-- Every notification is delivered by a call to which it is due. -/
  told : ∀ h n t, m = h ++ .told n :: t →
    ∃ h' call q, h = h' ++ [.begins call q] ∧ q.due call = some n
  /-- What is delivered is what is due, one for one. -/
  delivered : m.filterMap Mark.notice? = m.filterMap Mark.due?
  /-- A notification says whose queue it is about. -/
  named : ∀ n, .told n ∈ m → n.context = q₀.context
  /-- Whoever is told finds commands. -/
  waiting : ∀ n, .told n ∈ m → n.pending ≠ #[]
  /-- After an append these end with the command that has been appended. -/
  last : ∀ h c q n t, m = h ++ .begins (.append c) q :: .told n :: t → n.pending.back? = some c

variable {m h t inside rest : List Mark} {call : Call} {q q₀ : Queue} {n : Notice}

theorem Proceeds.append (hp : Proceeds q call t) (u : List Mark) : Proceeds q call (t ++ u) := by
  cases hp with
  | quiet hdue rest => exact .quiet hdue (rest ++ u)
  | @loud n inside hdue hinside rest =>
    rw [List.cons_append, List.append_assoc, List.cons_append]
    exact .loud hdue hinside (rest ++ u)

/-- What is written down between a notification and the end belongs to the calls of the sink, or
it comes after the return. -/
theorem mem_inside_or_rest {a : Mark} {e : Event} (ha : a ≠ .returns e)
    (heq : inside ++ .returns e :: rest = h ++ a :: t) :
    (∃ t', inside = h ++ a :: t' ∧ t = t' ++ .returns e :: rest) ∨
      ∃ h', h = inside ++ .returns e :: h' ∧ rest = h' ++ a :: t := by
  rcases List.append_eq_append_iff.mp heq with ⟨u, rfl, hu⟩ | ⟨u, rfl, hu⟩
  · cases u with
    | nil => exact absurd (List.cons_eq_cons.mp hu).1.symm ha
    | cons b u =>
      obtain ⟨rfl, rfl⟩ := List.cons_eq_cons.mp hu
      exact Or.inr ⟨u, rfl, rfl⟩
  · cases u with
    | nil => exact absurd (List.cons_eq_cons.mp hu).1 ha
    | cons b u =>
      obtain ⟨rfl, rfl⟩ := List.cons_eq_cons.mp hu
      exact Or.inl ⟨u, rfl, rfl⟩

namespace Calls

theorem append (hm : Calls q₀ m) (ht : Calls (turned q₀ m) t) : Calls q₀ (m ++ t) := by
  induction hm with
  | nil q => exact ht
  | quiet hdue _ ih => exact .quiet hdue (ih ht)
  | @loud q call n inside rest hdue hinside _ _ ih =>
    rw [List.cons_append, List.cons_append, List.append_assoc, List.cons_append]
    rw [turned_loud] at ht
    exact .loud hdue hinside (ih ht)

/-- A call finds what the calls before it have made of the queue, and proceeds as it should. -/
theorem begun (hm : Calls q₀ m) :
    m = h ++ .begins call q :: t → q = turned q₀ h ∧ Proceeds q call t := by
  induction hm generalizing h t with
  | nil =>
    intro heq
    exact absurd heq.symm (by simp)
  | quiet hdue _ ih =>
    intro heq
    rcases h with _ | ⟨a, _ | ⟨b, h⟩⟩
    · cases heq
      exact ⟨rfl, .quiet hdue _⟩
    · cases heq
    · obtain ⟨rfl, rfl, hrest⟩ : _ ∧ _ ∧ _ := by simpa using heq
      obtain ⟨hq, hp⟩ := ih hrest
      exact ⟨hq, hp⟩
  | @loud q₁ call' n inside rest hdue hinside _ ihin ihrest =>
    intro heq
    rcases h with _ | ⟨a, _ | ⟨b, h⟩⟩
    · cases heq
      exact ⟨rfl, .loud hdue hinside _⟩
    · cases heq
    · obtain ⟨rfl, rfl, htail⟩ : _ ∧ _ ∧ _ := by simpa using heq
      rcases mem_inside_or_rest (by nofun) htail with ⟨t', hin, rfl⟩ | ⟨h', rfl, hrest⟩
      · obtain ⟨hq, hp⟩ := ihin hin
        exact ⟨hq, hp.append _⟩
      · obtain ⟨hq, hp⟩ := ihrest hrest
        exact ⟨hq.trans (turned_loud q₁ q₁ call' n inside _ h').symm, hp⟩

theorem told (hm : Calls q₀ m) : m = h ++ .told n :: t →
    ∃ h' call q, h = h' ++ [.begins call q] ∧ q.due call = some n := by
  induction hm generalizing h t with
  | nil =>
    intro heq
    exact absurd heq.symm (by simp)
  | quiet hdue _ ih =>
    intro heq
    rcases h with _ | ⟨a, _ | ⟨b, h⟩⟩
    · cases heq
    · cases heq
    · cases heq
      obtain ⟨h', call, q, rfl, hdue'⟩ := ih rfl
      exact ⟨_ :: _ :: h', call, q, rfl, hdue'⟩
  | @loud q call n' inside rest hdue hinside _ ihin ihrest =>
    intro heq
    rcases h with _ | ⟨a, _ | ⟨b, h⟩⟩
    · cases heq
    · cases heq
      exact ⟨[], call, q, rfl, hdue⟩
    · obtain ⟨rfl, rfl, htail⟩ : _ ∧ _ ∧ _ := by simpa using heq
      rcases mem_inside_or_rest (by nofun) htail with ⟨t', hin, -⟩ | ⟨h', rfl, hrest⟩
      · obtain ⟨h'', call', q', rfl, hdue'⟩ := ihin hin
        exact ⟨_ :: _ :: h'', call', q', rfl, hdue'⟩
      · obtain ⟨h'', call', q', rfl, hdue'⟩ := ihrest hrest
        refine ⟨.begins call q :: .told n' :: (inside ++ .returns (q.answer call) :: h''),
          call', q', ?_, hdue'⟩
        simp

theorem delivered (hm : Calls q₀ m) : m.filterMap Mark.notice? = m.filterMap Mark.due? := by
  induction hm with
  | nil => rfl
  | quiet hdue _ ih => simpa [List.filterMap_cons, Mark.notice?, Mark.due?, hdue] using ih
  | loud hdue _ _ ihin ihrest =>
    simp [List.filterMap_cons, Mark.notice?, Mark.due?, hdue, ihin, ihrest]

theorem context_of_begun (hm : Calls q₀ m) (heq : m = h ++ .begins call q :: t) :
    q.context = q₀.context := by
  rw [(hm.begun heq).1]
  exact Queue.context_foldl_after q₀ _

/-- A delivered notification is due on a queue of the context. -/
theorem due_of_mem (hm : Calls q₀ m) (hn : .told n ∈ m) :
    ∃ (call : Call) (q : Queue), q.context = q₀.context ∧ q.due call = some n := by
  obtain ⟨h, t, heq⟩ := List.append_of_mem hn
  obtain ⟨h', call, q, rfl, hdue⟩ := hm.told heq
  rw [List.append_assoc] at heq
  exact ⟨call, q, hm.context_of_begun heq, hdue⟩

theorem toPunctual (hm : Calls q₀ m) : Punctual q₀ m where
  found h call q t heq := (hm.begun heq).1
  begun h call q t heq := ⟨hm.context_of_begun heq, (hm.begun heq).2⟩
  told h n t := hm.told
  delivered := hm.delivered
  named n hn := by
    obtain ⟨call, q, hq, hdue⟩ := hm.due_of_mem hn
    exact (Queue.context_of_due hdue).trans hq
  waiting n hn := by
    obtain ⟨call, q, -, hdue⟩ := hm.due_of_mem hn
    exact Queue.pending_of_due hdue
  last h c q n t heq := by
    obtain ⟨-, hp⟩ := hm.begun heq
    cases hp with
    | loud hdue => exact Queue.back_of_due_append hdue

end Calls

/-! ### Runs -/

/-- Whatever happens while somebody watches: calls, and in between anything that leaves the queue
alone.  What the sink of a call does when it is told is a run again. -/
inductive Watched.Run (w : Outlet σ) : Watched σ → Watched σ → Prop
  | nil (x : Watched σ) : Run w x x
  | elsewhere {x y z : Watched σ} (hq : w.queue y.state = w.queue x.state)
      (hm : y.marks = x.marks) (hs : w.Holds x.state → w.Holds y.state) (rest : Run w y z) :
      Run w x z
  | call {x z : Watched σ} {sink : ContextId → Watched σ → Watched σ} (call : Call)
      (hsink : ∀ context y, Run w y (sink context y)) (rest : Run w (w.noted sink call x) z) :
      Run w x z

namespace Watched

variable {x y z : Watched σ}

/-- What has been written down since `x` are complete calls on the queue, and the queue is what they
make of it. -/
structure Since (w : Outlet σ) (x y : Watched σ) (m : List Mark) : Prop where
  marks_eq : y.marks = x.marks ++ m
  calls : Calls (w.queue x.state) m
  queue_eq : w.queue y.state = turned (w.queue x.state) m
  holds : w.Holds y.state

theorem Since.trans {m m' : List Mark} (hxy : Since w x y m) (hyz : Since w y z m') :
    Since w x z (m ++ m') where
  marks_eq := by rw [hyz.marks_eq, hxy.marks_eq, List.append_assoc]
  calls := hxy.calls.append (hxy.queue_eq ▸ hyz.calls)
  queue_eq := by rw [turned_append, ← hxy.queue_eq, hyz.queue_eq]
  holds := hyz.holds

/-- A noted call is written down as a complete call, if what its sink does is. -/
theorem since_noted (law : w.Lawful) (hx : w.Holds x.state) (call : Call)
    (hsink : ∀ context y, w.Holds y.state → ∃ m, Since w y (sink context y) m) :
    ∃ m, Since w x (w.noted sink call x) m := by
  have step := step_make w call x.state
  have hqueue : w.queue (w.silent.make call x.state).2 = (w.queue x.state).after call :=
    step.queue_eq law hx
  have hholds := step.holds law hx
  cases hdue : (w.queue x.state).due call with
  | none =>
    rw [noted_of_not_due hdue]
    exact ⟨_, rfl, .quiet hdue (.nil _), hqueue, hholds⟩
  | some n =>
    rw [noted_of_due law hx hdue]
    obtain ⟨inside, hinside⟩ := hsink n.context
      { state := (w.silent.make call x.state).2, marks := x.marks ++
        [.begins call (w.queue x.state), .told n] } hholds
    refine ⟨.begins call (w.queue x.state) :: .told n ::
      (inside ++ [.returns ((w.queue x.state).answer call)]), ?_,
      .loud hdue (hqueue ▸ hinside.calls) (.nil _), ?_, hinside.holds⟩
    · show (sink _ _).marks ++ [_] = _
      rw [hinside.marks_eq]
      simp
    · rw [turned_loud, ← hqueue]
      exact hinside.queue_eq

theorem Run.since (law : w.Lawful) (run : Watched.Run w x y) (hx : w.Holds x.state) :
    ∃ m, Since w x y m := by
  induction run with
  | nil x => exact ⟨[], (List.append_nil _).symm, .nil _, rfl, hx⟩
  | elsewhere hq hm hs _ ih =>
    obtain ⟨m, hsince⟩ := ih (hs hx)
    exact ⟨m, hm ▸ hsince.marks_eq, hq ▸ hsince.calls, hq ▸ hsince.queue_eq, hsince.holds⟩
  | call call _ _ ihsink ihrest =>
    obtain ⟨m, hcall⟩ := since_noted law hx call ihsink
    obtain ⟨m', hrest⟩ := ihrest hcall.holds
    exact ⟨m ++ m', hcall.trans hrest⟩

/-- **Nobody is told too little or too much.**  In every run of calls on a queue, those included
that a sink makes while it is told: an append that succeeds while batching is off and a flush that
finds commands notify once, before they return, and nothing else does; a flush returns whether it
has; a notification carries the name of the queue's context, and when it is delivered commands
wait, after an append with the appended command as the last.  What a call finds, and what the run
leaves, is what the calls begun before make of the queue. -/
theorem Run.punctual (law : w.Lawful) (run : Watched.Run w x y) (hx : w.Holds x.state) :
    ∃ m, y.marks = x.marks ++ m ∧ Punctual (w.queue x.state) m ∧
      w.queue y.state = turned (w.queue x.state) m := by
  obtain ⟨m, hsince⟩ := run.since law hx
  exact ⟨m, hsince.marks_eq, hsince.calls.toPunctual, hsince.queue_eq⟩

end Watched

theorem Watched.Run.noted {sink : ContextId → Watched σ → Watched σ}
    (hsink : ∀ context y, Watched.Run w y (sink context y)) (call : Call) (x : Watched σ) :
    Watched.Run w x (w.noted sink call x) :=
  .call call hsink (.nil _)

/-- A sink that pushes another command when it is told, upon which a second one drains. -/
def pushingSink (c : Command) (_ : ContextId) (x : Watched Queue) : Watched Queue :=
  drainingQueue.noted (fun _ => drainingQueue.noted (fun _ y => y) .drain) (.append c) x

theorem pushingSink_run (c : Command) (context : ContextId) (x : Watched Queue) :
    Watched.Run drainingQueue x (pushingSink c context x) :=
  .noted (fun _ => .noted (fun _ => .nil) .drain) (.append c) x

/-- An append in whose midst there is another, which makes two notifications, and a flush that
finds nothing any more. -/
theorem pushingSink_punctual :
    let c := Command.make 1 .createElement (some "div") none none
    let d := Command.make 1 .removeNode none none none
    let x : Watched Queue := { state := { context := 7 } }
    let y := drainingQueue.noted (pushingSink d) .flush
      (drainingQueue.noted (pushingSink d) (.append c) x)
    Watched.Run drainingQueue x y ∧ ∃ m, y.marks = m ∧ Punctual { context := 7 } m ∧
      y.state = turned { context := 7 } m ∧
      m.filterMap Mark.notice? = [⟨7, #[c]⟩, ⟨7, #[c, d]⟩] := by
  intro c d x y
  have hlaw : drainingQueue.Lawful := ⟨fun _ _ _ => rfl, fun _ _ _ => rfl, fun _ _ => rfl⟩
  have hrun : Watched.Run drainingQueue x y :=
    .call (.append c) (pushingSink_run d) (.noted (pushingSink_run d) .flush _)
  obtain ⟨m, hm, hpunctual, hqueue⟩ := hrun.punctual hlaw (fun _ => rfl)
  refine ⟨hrun, m, hm, hpunctual, hqueue, ?_⟩
  have hm' : m = y.marks := hm.symm
  rw [hm']
  rfl

end Outlet
end ScriptHost

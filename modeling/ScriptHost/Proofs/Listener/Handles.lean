/-
Handles in the course of dispatches.

A listener that is called may register and remove listeners, clear the roster and dispatch again,
and all of this happens between the calls of the dispatch that is under way.  If what listeners do
in their turns is told event by event (`Traced`), then so is what happens in the course of a
dispatch (`history`) and of any operations and dispatches (`Course`).  The main facts:

* `Traced.course_run` — what is told of a course is what happens to the roster;
* `Traced.handles_never_return` — at every moment, in the midst of nested dispatches too, a handle
  stands for the listener that it was given to, and for no other one ever after.

Design notes: each dispatch brings its own way of calling listeners, so there is a family of
surroundings, and a dispatch that a listener starts may be in any of them.  What a listener does is
a course itself, nested dispatches with what is told of their turns included; what is told of those
turns is shorter, as the listeners have to be called first, and this is what the induction is on.
-/
import Mathlib.Algebra.Group.Nat.Defs
import ScriptHost.Proofs.Listener.Fanout
import ScriptHost.Proofs.Listener.History

namespace ScriptHost

open Roster (Event Run Removed Stands given given_append not_stands_of_taken replay)

/-- What happens in a turn: the listener is called, and does what is told of it. -/
def Turn.events {σ L : Type} (told : ModuleEvent → L → σ → List (Event L)) (e : ModuleEvent)
    (x : Turn σ L) : List (Event L) :=
  .called x.handle x.listener :: told e x.listener x.before

namespace Surroundings

/-! ### One dispatch -/

section Dispatch

variable {σ L : Type} {w : Surroundings σ L} {told : ModuleEvent → L → σ → List (Event L)}

/-- How a dispatch ends that has led to this state. -/
def ending (w : Surroundings σ L) (s : σ) : List (Event L) := if w.isValid s then [] else [.cleared]

/-- What happens in the course of a dispatch, by the listeners that it calls too. -/
def history (w : Surroundings σ L) (told : ModuleEvent → L → σ → List (Event L))
    (module : String) (event extra : Option String) (s : σ) : List (Event L) :=
  if w.isValid s then
    let e : ModuleEvent := ⟨module, event, Json.payload? extra⟩
    let start := (w.readPayload extra s).2
    let xs := w.taken e (w.roster s).handles start
    xs.flatMap (Turn.events told e) ++ w.ending (reached start xs)
  else [.cleared]

/-- Logging changes neither the roster nor the context, and to unlink the listeners is to clear the
roster. -/
structure Regular (w : Surroundings σ L) : Prop where
  roster_log (l : Log) (s : σ) : w.roster (w.log l s) = w.roster s
  isValid_log (l : Log) (s : σ) : w.isValid (w.log l s) = w.isValid s
  roster_unlink (s : σ) : w.roster (w.unlink s) = (w.roster s).clear

/-- Turns of which fewer events are told than these do what is told of them. -/
def TellsBelow (w : Surroundings σ L) (told : ModuleEvent → L → σ → List (Event L)) (n : ℕ) :
    Prop :=
  ∀ e l s, (told e l s).length < n → Run (w.roster s) (told e l s) (w.roster (w.turn e l s).2)

theorem unlink_run (hw : w.Regular) (s : σ) :
    Run (w.roster s) [.cleared] (w.roster (w.unlink s)) := by
  rw [hw.roster_unlink]
  exact .single (.clear _)

theorem settled_run (hw : w.Regular) (s : σ) :
    Run (w.roster s) (w.ending s) (w.roster (w.settled s)) := by
  rw [ending, settled]
  split
  · exact .nil
  · exact unlink_run hw s

variable {n : ℕ} (htold : w.TellsBelow told n)
include htold

theorem turn_run (e : ModuleEvent) {h : Handle} {l : L} {s : σ}
    (hl : (w.roster s).find? h = some l) (hn : ((w.turnAt e h l s).events told e).length ≤ n) :
    Run (w.roster s) ((w.turnAt e h l s).events told e) (w.roster (w.turnAt e h l s).after) :=
  -- the call is an event of the turn, but not of what the listener does
  (Run.single (.call hl)).trans (htold e l s hn)

theorem taken_run (e : ModuleEvent) (hs : List Handle) {s : σ}
    (hn : ((w.taken e hs s).flatMap (Turn.events told e)).length ≤ n) :
    Run (w.roster s) ((w.taken e hs s).flatMap (Turn.events told e))
      (w.roster (reached s (w.taken e hs s))) := by
  -- on the handles still to come; each turn begins where the one before has ended
  induction hs generalizing s with
  | nil => exact .nil
  | cons h rest ih =>
    rw [taken] at hn ⊢
    cases hl : (w.roster s).find? h with
    | none =>
      rw [hl] at hn
      exact ih hn
    | some l =>
      rw [hl] at hn
      dsimp only at hn ⊢
      rw [List.flatMap_cons, List.length_append] at hn
      rw [List.flatMap_cons, reached]
      have hturn := turn_run htold e hl (Nat.le_of_add_right_le hn)
      split at hn
      next hafter =>
        rw [if_pos hafter]
        exact hturn.trans (ih (Nat.le_of_add_left_le hn))
      next hafter =>
        rw [if_neg hafter]
        exact hturn.trans .nil

/-- What is told of a dispatch is what happens to the roster, if so it is of its turns. -/
theorem dispatch_run (hw : w.Regular) (module : String) (event extra : Option String) {s : σ}
    (hn : (w.history told module event extra s).length ≤ n) :
    Run (w.roster s) (w.history told module event extra s)
      (w.roster (w.dispatch module event extra s).2) := by
  rw [history] at hn ⊢
  split at hn
  next hvalid =>
    rw [if_pos hvalid]
    dsimp only at hn ⊢
    rw [List.length_append] at hn
    have hread := readPayload_keeps hw.roster_log extra s
    have hvalid' := (readPayload_keeps hw.isValid_log extra s).trans hvalid
    rw [dispatch_of_isValid hvalid, hread, turns_eq _ _ hvalid']
    dsimp only
    have hturns := taken_run htold _ _ (Nat.le_of_add_right_le hn)
    rw [hw.roster_log]
    rw [hread] at hturns
    exact hturns.trans (settled_run hw _)
  next hinvalid =>
    rw [if_neg hinvalid, dispatch, if_pos hinvalid]
    exact unlink_run hw s

end Dispatch

/-! ### Courses -/

variable {ι σ L : Type} {W : ι → Surroundings σ L} {told : ι → ModuleEvent → L → σ → List (Event L)}

/-- Operations and dispatches one after the other, with everything that happens meanwhile. -/
inductive Course (W : ι → Surroundings σ L) (told : ι → ModuleEvent → L → σ → List (Event L))
    (r₀ : Roster L) : List (Event L) → Roster L → Prop
  | nil : Course W told r₀ [] r₀
  | register {es : List (Event L)} {r : Roster L} (course : Course W told r₀ es r) (l : L) :
      Course W told r₀ (es ++ [.registered (r.register l).1 l]) (r.register l).2
  | unregister {es : List (Event L)} {r : Roster L} (course : Course W told r₀ es r) (h : Handle) :
      Course W told r₀ (es ++ [.unregistered h (r.unregister h).1]) (r.unregister h).2
  | clear {es : List (Event L)} {r : Roster L} (course : Course W told r₀ es r) :
      Course W told r₀ (es ++ [.cleared]) r.clear
  /-- A dispatch in whatever state has this roster. -/
  | dispatch {es : List (Event L)} {i : ι} {s : σ} (course : Course W told r₀ es ((W i).roster s))
      (module : String) (event extra : Option String) :
      Course W told r₀ (es ++ (W i).history (told i) module event extra s)
        ((W i).roster ((W i).dispatch module event extra s).2)

/-- What is told of a turn is a course that the listener takes. -/
structure Traced (W : ι → Surroundings σ L) (told : ι → ModuleEvent → L → σ → List (Event L)) :
    Prop where
  regular (i : ι) : (W i).Regular
  turn (i : ι) (e : ModuleEvent) (l : L) (s : σ) :
    Course W told ((W i).roster s) (told i e l s) ((W i).roster ((W i).turn e l s).2)

theorem Course.run_of_tellsBelow {n : ℕ} (hW : ∀ i, (W i).Regular)
    (htold : ∀ i, (W i).TellsBelow (told i) n) {r r' : Roster L} {es : List (Event L)}
    (course : Course W told r es r') (hn : es.length ≤ n) : Run r es r' := by
  induction course with
  | nil => exact .nil
  | register _ l ih =>
    rw [List.length_append] at hn
    exact (ih (Nat.le_of_add_right_le hn)).event (.register l _)
  | unregister _ h ih =>
    rw [List.length_append] at hn
    exact (ih (Nat.le_of_add_right_le hn)).event (.unregister h _)
  | clear _ ih =>
    rw [List.length_append] at hn
    exact (ih (Nat.le_of_add_right_le hn)).event (.clear _)
  | @dispatch es i s _ module event extra ih =>
    rw [List.length_append] at hn
    exact (ih (Nat.le_of_add_right_le hn)).trans
      (dispatch_run (htold i) (hW i) module event extra (Nat.le_of_add_left_le hn))

/-- Changes of a roster make up a course, in which nothing is dispatched. -/
theorem exists_course {r r' : Roster L} (h : r.Later r') : ∃ es, ∀ told, Course W told r es r' := by
  induction h with
  | refl => exact ⟨[], fun _ => .nil⟩
  | tail _ hc ih =>
    obtain ⟨es, course⟩ := ih
    cases hc with
    | register l => exact ⟨_, fun told => (course told).register l⟩
    | unregister h => exact ⟨_, fun told => (course told).unregister h⟩
    | clear => exact ⟨_, fun told => (course told).clear⟩

/-- Whatever listeners do, it can be told. -/
theorem exists_traced (hW : ∀ i, (W i).Regular)
    (hturn : ∀ i e l s, ((W i).roster s).Later ((W i).roster ((W i).turn e l s).2)) :
    ∃ told, Traced W told := by
  choose told htold using fun i e l s => exists_course (W := W) (hturn i e l s)
  exact ⟨told, hW, fun i e l s => htold i e l s told⟩

namespace Traced

variable (traced : Traced W told)
include traced

/-- However deep dispatches are nested, what is told of their turns happens. -/
theorem tellsBelow (n : ℕ) (i : ι) : (W i).TellsBelow (told i) n := by
  induction n generalizing i with
  | zero => exact fun e l s hn => absurd hn (Nat.not_lt_zero _)
  | succ n ih =>
    intro e l s hn
    exact (traced.turn i e l s).run_of_tellsBelow traced.regular ih (Nat.le_of_lt_succ hn)

/-- What is told of a course is what happens to the roster. -/
theorem course_run {r r' : Roster L} {es : List (Event L)} (course : Course W told r es r') :
    Run r es r' :=
  course.run_of_tellsBelow traced.regular (traced.tellsBelow es.length) (Nat.le_refl _)

/-- **No handle is used twice.**  Take any course of operations and dispatches with fewer than
`2 ^ 64 - 1` registrations, and any moment in it, be it in the midst of nested dispatches.  The
handles in the roster stand in increasing order below the next one, which is a word, and under each
of them there is the listener that was registered under it and has not been taken away since.  Each
event fits those before it: a registration returns a handle greater than all before, a removal finds
the handle exactly if somebody stands under it, and a call goes to who stands under the handle.  A
removal takes out the listener of its handle only.  So once the listener of a handle has been
removed, or cleared away, no listener is ever again registered under the handle, nor is one removed
or called by it. -/
theorem handles_never_return {r : Roster L} {es : List (Event L)} (course : Course W told {} es r)
    (hcount : (given es).length < 2 ^ 64 - 1) :
    (∀ before after, es = before ++ after →
      Run {} before (replay before) ∧ Run (replay before) after r ∧
        (replay before).Sound ∧ (replay before).nextHandle < 2 ^ 64 ∧
        ∀ h l, (replay before).find? h = some l ↔ Stands before h l) ∧
    (∀ before e after, es = before ++ e :: after → e.Fits before) ∧
    (∀ before h found after, es = before ++ .unregistered h found :: after →
      Removed h found (replay before) (replay (before ++ [.unregistered h found]))) ∧
    (∀ before e h after, es = before ++ e :: after → h ∈ given before →
      e = .unregistered h true ∨ e = .cleared → ∀ e' ∈ after, ¬ e'.Uses h) := by
  have run := traced.course_run course
  refine ⟨?_, ?_, ?_, ?_⟩
  · rintro before after rfl
    obtain ⟨r₁, first, second⟩ := run.split
    obtain rfl := first.eq_replay
    have hword : r.nextHandle < 2 ^ 64 := by
      rw [run.reached.nextHandle_eq]
      exact Nat.add_lt_of_lt_sub hcount
    exact ⟨first, second, first.sound, Nat.lt_of_le_of_lt second.later.nextHandle_le hword,
      fun h l => first.find?_eq_some_iff⟩
  · rintro before e after rfl
    obtain ⟨r₁, r₂, first, step, -⟩ := run.split_at
    exact first.fits step
  · rintro before h found after rfl
    obtain ⟨r₁, r₂, first, step, -⟩ := run.split_at
    obtain rfl := first.eq_replay
    obtain rfl := (first.event step).eq_replay
    exact step.removed first.sound
  · rintro before e h after rfl hgiven he
    rw [← List.singleton_append, ← List.append_assoc] at run
    have hgiven : h ∈ given (before ++ [e]) := by
      rw [given_append]
      exact List.mem_append_left _ hgiven
    exact run.not_uses hgiven fun l => not_stands_of_taken he

end Traced

/-! ### A council -/

/-- What a deputy does in its turn. -/
inductive Deputy where
  | listens
  | dismisses (h : Handle)
  | recruits (d : Deputy)
  | convenes
  | disbands
  deriving DecidableEq

def Deputy.act (convene : Roster Deputy → Roster Deputy) : Deputy → Roster Deputy → Roster Deputy
  | listens, r => r
  | dismisses h, r => (r.unregister h).2
  | recruits d, r => (r.register d).2
  | convenes, r => convene r
  | disbands, r => r.clear

def Deputy.deeds (convened : Roster Deputy → List (Event Deputy)) :
    Deputy → Roster Deputy → List (Event Deputy)
  | listens, _ => []
  | dismisses h, r => [.unregistered h (r.unregister h).1]
  | recruits d, r => [.registered (r.register d).1 d]
  | convenes, r => convened r
  | disbands, _ => [.cleared]

def council (convene : Roster Deputy → Roster Deputy) : Surroundings (Roster Deputy) Deputy where
  context := 7
  isValid _ := true
  roster := id
  setRoster r _ := r
  call d _ r := (none, d.act convene r)
  report _ r := r
  log _ r := r

/-- The council meets; in its meetings it can be convened again, at most so deep. -/
def meet : ℕ → Roster Deputy → Roster Deputy
  | 0 => id
  | n + 1 => fun r => ((council (meet n)).dispatch "council" none none r).2

def minutes : ℕ → Roster Deputy → List (Event Deputy)
  | 0 => fun _ => []
  | n + 1 => (council (meet n)).history (fun _ d r => d.deeds (minutes n) r) "council" none none

def councils (n : ℕ) : Surroundings (Roster Deputy) Deputy := council (meet n)

def protocols (n : ℕ) (_ : ModuleEvent) (d : Deputy) (r : Roster Deputy) : List (Event Deputy) :=
  d.deeds (minutes n) r

theorem traced_councils : Traced councils protocols where
  regular _ := ⟨fun _ _ => rfl, fun _ _ => rfl, fun _ => rfl⟩
  turn n e d r := by
    cases d with
    | listens => exact .nil
    | dismisses h => exact .unregister .nil h
    | recruits d => exact .register .nil d
    | convenes =>
      cases n with
      | zero => exact .nil
      | succ n => exact .dispatch (i := n) (s := r) .nil "council" none none
    | disbands => exact .clear .nil

/-- The first deputy convenes the council in its turn.  There the second one dismisses it and the
third recruits another, and both do so again when the outer meeting goes on. -/
theorem council_handles_never_return :
    ∃ es r, Course councils protocols {} es r ∧ given es = [1, 2, 3, 4, 5, 6] ∧ r.handles = [6] ∧
      ∃ before after, es = before ++ .unregistered 1 true :: after ∧
        .unregistered 1 false ∈ after ∧ .registered 6 .listens ∈ after ∧
        ∀ e ∈ after, ¬ e.Uses 1 := by
  have full : Course councils protocols {} _ _ :=
    ((Course.nil.register .convenes).register (.dismisses 1)).register (.recruits .listens)
  have met := full.dispatch (i := 1) "council" none none
  have course := (met.clear.register .listens).unregister 2
  obtain ⟨-, -, -, hnever⟩ := traced_councils.handles_never_return course (by decide)
  let before : List (Event Deputy) := [.registered 1 .convenes, .registered 2 (.dismisses 1),
    .registered 3 (.recruits .listens), .called 1 .convenes, .called 1 .convenes,
    .called 2 (.dismisses 1)]
  -- the rest of the inner meeting, that of the outer one, and what follows
  let after : List (Event Deputy) := [.called 3 (.recruits .listens), .registered 4 .listens] ++
    [.called 2 (.dismisses 1), .unregistered 1 false, .called 3 (.recruits .listens),
      .registered 5 .listens] ++
    [.cleared, .registered 6 .listens, .unregistered 2 false]
  exact ⟨_, _, course, rfl, rfl, before, after, rfl, by decide, by decide,
    hnever before _ 1 after rfl (by decide) (Or.inl rfl)⟩

end Surroundings
end ScriptHost

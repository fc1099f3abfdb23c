/-
Histories of a roster.

Listeners come and go, and a dispatch that has their handles at its start looks each handle up again
when its turn comes.  That is sound only if no handle ever comes back.  A `Run` follows a roster
event by event, and lists what was done and what came back:

* `Run.eq_replay` — the roster at every moment is determined by the events before;
* `Run.given_eq` — handles are given in the order of the natural numbers, from one on;
* `Run.find?_eq_some_iff` — what is found under a handle is the listener that was registered under
  it and has not been taken away since (`Stands`);
* `Run.fits` — every event is what it should be after the events before it;
* `Run.not_uses` — a handle that has been given, and under which nobody stands any more, is out of
  use.

Design notes: `given` and `Stands` look at the events only, so they say what should be found in a
roster without taking it from there.  A call by a dispatch is an event as well, though it leaves the
roster as it is: it has found its listener in the roster of that moment, whenever the dispatch that
makes it began and in however many others it is nested.
-/
import Mathlib.Data.List.Induction
import Mathlib.Data.List.Range
import ScriptHost.Proofs.Listener.Roster

namespace ScriptHost.Roster

variable {L : Type}

/-- What happens to a roster, or by way of it, with what comes back. -/
inductive Event (L : Type)
  | registered (h : Handle) (l : L)
  | unregistered (h : Handle) (found : Bool)
  | cleared
  /-- A dispatch calls the listener that it finds under a handle. -/
  | called (h : Handle) (l : L)
  deriving DecidableEq

/-- One event. -/
inductive Step : Roster L → Event L → Roster L → Prop
  | register (l : L) (r : Roster L) : Step r (.registered (r.register l).1 l) (r.register l).2
  | unregister (h : Handle) (r : Roster L) :
      Step r (.unregistered h (r.unregister h).1) (r.unregister h).2
  | clear (r : Roster L) : Step r .cleared r.clear
  | call {r : Roster L} {h : Handle} {l : L} (hl : r.find? h = some l) : Step r (.called h l) r

/-- Events one after the other, from a roster to another. -/
inductive Run (r : Roster L) : List (Event L) → Roster L → Prop
  | nil : Run r [] r
  | event {es : List (Event L)} {e : Event L} {r₁ r₂ : Roster L} (run : Run r es r₁)
      (step : Step r₁ e r₂) : Run r (es ++ [e]) r₂

/-! ### What a history tells -/

/-- What an event makes of a roster. -/
def Event.after (r : Roster L) : Event L → Roster L
  | registered _ l => (r.register l).2
  | unregistered h _ => (r.unregister h).2
  | cleared => r.clear
  | called _ _ => r

/-- The roster after a history. -/
def replay (es : List (Event L)) : Roster L := es.foldl Event.after {}

def Event.given? : Event L → Option Handle
  | registered h _ => some h
  | _ => none

/-- The handles that registrations have returned, in order. -/
def given (es : List (Event L)) : List Handle := es.filterMap Event.given?

/-- The listener has been registered under the handle, and since then the handle has not been
removed and the roster has not been cleared. -/
def Stands (es : List (Event L)) (h : Handle) (l : L) : Prop :=
  ∃ before after, es = before ++ .registered h l :: after ∧
    .unregistered h true ∉ after ∧ .cleared ∉ after

/-- What an event should be after a history: the handle of a registration is greater than every one
before it, a removal finds what stands, and a call goes to who stands. -/
def Event.Fits (es : List (Event L)) : Event L → Prop
  | registered h _ => ∀ h' ∈ given es, h' < h
  | unregistered h found => found = true ↔ ∃ l, Stands es h l
  | cleared => True
  | called h l => Stands es h l

/-- The event gives a listener the handle, or removes or calls one by it. -/
def Event.Uses (h : Handle) : Event L → Prop
  | registered h' _ => h' = h
  | unregistered h' found => h' = h ∧ found = true
  | cleared => False
  | called h' _ => h' = h

/-- From one roster to the other, the listener of a handle has been taken out, if there was one. -/
structure Removed (h : Handle) (found : Bool) (r r' : Roster L) : Prop where
  found_iff : found = true ↔ h ∈ r.handles
  /-- One listener goes, and the others stay in their order. -/
  one : found = true → ∃ before l after, r.listeners = before ++ (h, l) :: after ∧
    r' = { r with listeners := before ++ after }
  none : found = false → r' = r

section Histories

variable {es : List (Event L)} {e : Event L} {h : Handle} {l : L}

theorem given_append (es es' : List (Event L)) : given (es ++ es') = given es ++ given es' :=
  List.filterMap_append

theorem given_concat_of_none (he : e.given? = none) : given (es ++ [e]) = given es := by
  rw [given_append, given, given, List.filterMap_cons_none he, List.filterMap_nil, List.append_nil]

theorem not_stands_nil : ¬ Stands [] h l := by
  rintro ⟨before, after, hes, -⟩
  simp at hes

/-- Who stands after one event more: whoever is registered by it, or stood before and is not taken
away by it. -/
theorem stands_concat_iff : Stands (es ++ [e]) h l ↔
    e = .registered h l ∨ (Stands es h l ∧ e ≠ .unregistered h true ∧ e ≠ .cleared) := by
  constructor
  · rintro ⟨before, after, hes, hremoved, hcleared⟩
    rcases List.eq_nil_or_concat' after with rfl | ⟨after, last, rfl⟩
    · obtain ⟨-, he⟩ := List.append_inj' hes rfl
      exact Or.inl (List.singleton_inj.mp he)
    · -- the registration came earlier, and the event is the last of those after it
      rw [← List.cons_append, ← List.append_assoc] at hes
      obtain ⟨rfl, he⟩ := List.append_inj' hes rfl
      obtain rfl := List.singleton_inj.mp he
      simp only [List.mem_append, List.mem_singleton, not_or] at hremoved hcleared
      exact Or.inr ⟨⟨before, after, rfl, hremoved.1, hcleared.1⟩, Ne.symm hremoved.2,
        Ne.symm hcleared.2⟩
  · rintro (rfl | ⟨⟨before, after, rfl, hremoved, hcleared⟩, hnot, hnot'⟩)
    · exact ⟨es, [], rfl, List.not_mem_nil, List.not_mem_nil⟩
    · refine ⟨before, after ++ [e], by simp, ?_, ?_⟩
      · simp [hremoved, Ne.symm hnot]
      · simp [hcleared, Ne.symm hnot']

theorem not_stands_of_taken (he : e = .unregistered h true ∨ e = .cleared) :
    ¬ Stands (es ++ [e]) h l := by
  rw [stands_concat_iff]
  rcases he with rfl | rfl <;> simp

end Histories

/-! ### One event -/

section Steps

variable {r r' : Roster L} {e : Event L}

theorem Step.later (step : Step r e r') : Later r r' := by
  cases step with
  | register l => exact .single (.register l r)
  | unregister h => exact .single (.unregister h r)
  | clear => exact .single (.clear r)
  | call _ => exact .refl

theorem Step.eq_after (step : Step r e r') : r' = e.after r := by
  cases step <;> rfl

/-- A removal takes out the listener of its handle only. -/
theorem Step.removed {h : Handle} {found : Bool} (step : Step r (.unregistered h found) r')
    (hr : r.Sound) : Removed h found r r' := by
  cases step
  cases hl : r.find? h with
  | none =>
    have hmem := find?_eq_none_iff.mp hl
    rw [unregister_of_not_mem hmem]
    exact ⟨by simp [hmem], by simp, fun _ => rfl⟩
  | some l =>
    have hmem := find?_isSome_iff.mp (Option.isSome_of_eq_some hl)
    obtain ⟨before, after, hsplit, hremoved⟩ := hr.unregister_of_find? hl
    rw [hremoved]
    exact ⟨by simp [hmem], fun _ => ⟨before, l, after, hsplit, rfl⟩, by simp⟩

end Steps

namespace Run

variable {r r' : Roster L} {es es₁ es₂ : List (Event L)} {e : Event L}

/-! ### Runs one after the other -/

theorem trans {r'' : Roster L} (run : Run r es₁ r') (run' : Run r' es₂ r'') :
    Run r (es₁ ++ es₂) r'' := by
  induction run' with
  | nil => rwa [List.append_nil]
  | event _ step ih =>
    rw [← List.append_assoc]
    exact ih.event step

theorem single (step : Step r e r') : Run r [e] r' := .event .nil step

theorem last (run : Run r (es ++ [e]) r') : ∃ r₁, Run r es r₁ ∧ Step r₁ e r' := by
  generalize hes : es ++ [e] = es' at run
  cases run with
  | nil => simp at hes
  | event run step =>
    obtain ⟨rfl, he⟩ := List.append_inj' hes rfl
    obtain rfl := List.singleton_inj.mp he
    exact ⟨_, run, step⟩

/-- A run passes a roster at every point of its history. -/
theorem split (run : Run r (es₁ ++ es₂) r') : ∃ r₁, Run r es₁ r₁ ∧ Run r₁ es₂ r' := by
  induction es₂ using List.reverseRecOn generalizing r' with
  | nil => exact ⟨r', by rwa [List.append_nil] at run, .nil⟩
  | append_singleton es₂ e ih =>
    rw [← List.append_assoc] at run
    obtain ⟨r₂, before, step⟩ := run.last
    obtain ⟨r₁, first, second⟩ := ih before
    exact ⟨r₁, first, second.event step⟩

theorem split_at (run : Run r (es₁ ++ e :: es₂) r') :
    ∃ r₁ r₂, Run r es₁ r₁ ∧ Step r₁ e r₂ ∧ Run r₂ es₂ r' := by
  rw [← List.singleton_append, ← List.append_assoc] at run
  obtain ⟨r₂, first, second⟩ := run.split
  obtain ⟨r₁, before, step⟩ := first.last
  exact ⟨r₁, r₂, before, step, second⟩

theorem later (run : Run r es r') : Later r r' := by
  induction run with
  | nil => exact .refl
  | event _ step ih => exact ih.trans step.later

theorem eq_foldl (run : Run r es r') : r' = es.foldl Event.after r := by
  induction run with
  | nil => rfl
  | event _ step ih => rw [List.foldl_concat, ← ih, step.eq_after]

/-- There is but one roster at every moment. -/
theorem eq_replay (run : Run {} es r') : r' = replay es := run.eq_foldl

end Run

/-- However a roster has come about, there is a history of it. -/
theorem Later.exists_run {r r' : Roster L} (h : Later r r') : ∃ es, Run r es r' := by
  induction h with
  | refl => exact ⟨[], .nil⟩
  | tail _ hc ih =>
    obtain ⟨es, run⟩ := ih
    cases hc with
    | register l => exact ⟨_, run.event (.register l _)⟩
    | unregister h => exact ⟨_, run.event (.unregister h _)⟩
    | clear => exact ⟨_, run.event (.clear _)⟩

/-! ### Runs from the empty roster -/

namespace Run

variable {r : Roster L} {es es₁ es₂ : List (Event L)} {e : Event L} {h : Handle} {l : L}

theorem reached (run : Run {} es r) : Reached (given es).length r := by
  induction run with
  | nil => exact .empty
  | event _ step ih =>
    cases step with
    | register l =>
      rw [given_append, List.length_append]
      exact .register l ih
    | unregister h =>
      rw [given_concat_of_none rfl]
      exact .unregister h ih
    | clear =>
      rw [given_concat_of_none rfl]
      exact .clear ih
    | call _ => rwa [given_concat_of_none rfl]

theorem sound (run : Run {} es r) : r.Sound := run.reached.sound

/-- Handles are given in the order of the natural numbers. -/
theorem given_eq (run : Run {} es r) : given es = List.range' 1 (given es).length := by
  induction run with
  | nil => rfl
  | @event es _ r₁ _ run step ih =>
    cases step with
    | register l =>
      have hnext : (r₁.register l).1 = 1 + (given es).length :=
        run.reached.nextHandle_eq.trans (Nat.add_comm _ _)
      rw [given_append, List.length_append]
      show given es ++ [(r₁.register l).1] = List.range' 1 ((given es).length + 1)
      rw [List.range'_1_concat, ← ih, hnext]
    | unregister h => rwa [given_concat_of_none rfl]
    | clear => rwa [given_concat_of_none rfl]
    | call _ => rwa [given_concat_of_none rfl]

theorem given_lt (run : Run {} es r) : ∀ h ∈ given es, h < r.nextHandle := by
  intro h hh
  rw [run.given_eq, List.mem_range'_1, Nat.add_comm] at hh
  rw [run.reached.nextHandle_eq]
  exact hh.2

/-- What is found under a handle is who stands under it. -/
theorem find?_eq_some_iff (run : Run {} es r) : r.find? h = some l ↔ Stands es h l := by
  -- on the run: each event does to the roster what it does to those who stand
  induction run with
  | nil => exact iff_of_false (by simp [find?]) not_stands_nil
  | @event es _ r₁ _ run step ih =>
    rw [stands_concat_iff, ← ih]
    cases step with
    | register l' =>
      by_cases hh : h = r₁.nextHandle
      · subst hh
        have hnone : r₁.find? r₁.nextHandle = none :=
          find?_eq_none_iff.mpr fun hmem => Nat.lt_irrefl _ (run.sound.lt_next _ hmem)
        rw [run.sound.find?_register_self, hnone]
        simp [register]
      · rw [find?_register l' r₁ hh]
        simp [register, Ne.symm hh]
    | unregister h' =>
      by_cases hh : h = h'
      · subst hh
        rw [find?_unregister_self]
        cases hl : r₁.find? h <;> simp [unregister, hl]
      · rw [find?_unregister_of_ne hh]
        simp [Ne.symm hh]
    | clear => simp [find?, clear]
    | call _ => simp

/-- A removal or a call finds who stands, and a registration gives a handle that is new. -/
theorem fits {r' : Roster L} (run : Run {} es r) (step : Step r e r') : e.Fits es := by
  cases step with
  | register l => exact run.given_lt
  | unregister h =>
    show (r.find? h).isSome = true ↔ ∃ l, Stands es h l
    simp only [Option.isSome_iff_exists, run.find?_eq_some_iff]
  | clear => trivial
  | call hl => exact run.find?_eq_some_iff.mp hl

/-- A handle that has been given, and under which nobody stands any more, is out of use. -/
theorem not_uses (run : Run {} (es₁ ++ es₂) r) (hgiven : h ∈ given es₁)
    (hgone : ∀ l, ¬ Stands es₁ h l) : ∀ e ∈ es₂, ¬ e.Uses h := by
  intro e he
  obtain ⟨before, after, rfl⟩ := List.append_of_mem he
  obtain ⟨r₁, first, second⟩ := run.split
  obtain ⟨r₂, _, meanwhile, step, -⟩ := second.split_at
  have hlt : h < r₁.nextHandle := first.given_lt h hgiven
  -- whoever is found under the handle later was found under it then
  have hnone : ∀ l, r₂.find? h ≠ some l := fun l hl =>
    hgone l (first.find?_eq_some_iff.mp (meanwhile.later.find?_eq hlt hl))
  cases step with
  | register l =>
    have hle : r₁.nextHandle ≤ r₂.nextHandle := meanwhile.later.nextHandle_le
    exact Nat.ne_of_gt (Nat.lt_of_lt_of_le hlt hle)
  | unregister h' =>
    rintro ⟨rfl, hfound⟩
    obtain ⟨l, hl⟩ := Option.isSome_iff_exists.mp hfound
    exact hnone l hl
  | clear => exact id
  | call hl =>
    rintro rfl
    exact hnone _ hl

end Run
end ScriptHost.Roster

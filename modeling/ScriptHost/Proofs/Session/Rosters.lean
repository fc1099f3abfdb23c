/-
The rosters of a session.

A session has native listeners, in dispatchers, and those that scripts have registered, in runtimes.
What they do in their turns may be any step of the session, a dispatch to the same listeners among
them.  All of it is done by moves, and moves change a roster only as rosters change.  Therefore:

* `find?_perform`, `find?_perform_native` — no step ever puts a listener under a handle that had
  been given before;
* `Moves.exists_run`, `Moves.exists_run_native` — every roster of a session has a history;
* `exists_traced_native`, `exists_traced_script` — in the midst of a session, too, what listeners do
  in their turns can be told event by event.
-/
import ScriptHost.Proofs.Listener.Handles
import ScriptHost.Proofs.Session.Removal

namespace ScriptHost.Session

open Script (Callable)

def nativeRosterOf (i : Nat) (s : Session) : Roster NativeListener :=
  (s.dispatchers[i]?.getD default).roster

variable {s t : Session}

/-! ### Native listeners over time -/

/-- Nobody is registered where there is no dispatcher. -/
theorem nativeRosterOf_of_size_le {i : Nat} (hi : s.dispatchers.size ≤ i) :
    nativeRosterOf i s = {} := by
  rw [nativeRosterOf, Array.getElem?_eq_none hi]
  rfl

theorem nativeRosterOf_setRoster_of_ne {i j : Nat} (hij : i ≠ j) (r : Roster NativeListener)
    (s : Session) : nativeRosterOf j (setRoster i r s) = nativeRosterOf j s := by
  show ((s.dispatchers.modify i fun d => { d with roster := r })[j]?.getD default).roster = _
  rw [Array.getElem?_modify, if_neg hij]
  rfl

theorem nativeRosterOf_setRoster (i : Nat) (r : Roster NativeListener) (s : Session) :
    nativeRosterOf i (setRoster i r s) =
      if i < s.dispatchers.size then r else nativeRosterOf i s := by
  show ((s.dispatchers.modify i fun d => { d with roster := r })[i]?.getD default).roster = _
  rw [Array.getElem?_modify, if_pos rfl]
  split
  next hi =>
    rw [Array.getElem?_eq_getElem hi]
    rfl
  next hi =>
    have hi := Nat.le_of_not_lt hi
    rw [nativeRosterOf_of_size_le hi, Array.getElem?_eq_none hi]
    rfl

theorem Move.nativeRosterOf_later (h : Move s t) (i : Nat) :
    (nativeRosterOf i s).Later (nativeRosterOf i t) := by
  have hsame : t.dispatchers = s.dispatchers → (nativeRosterOf i s).Later (nativeRosterOf i t) :=
    fun he => by rw [nativeRosterOf, nativeRosterOf, he]
  cases h with
  | elsewhere h => exact hsame h.dispatchers
  | newQueue _ _ _ _ => exact .refl
  | queue j step =>
    exact hsame (step.preserves (P := fun u => u.dispatchers = s.dispatchers) (fun _ _ hu => hu)
      (fun _ _ hu => hu) rfl)
  | newContext _ _ _ _ _ => exact .refl
  | dispose j =>
    refine hsame ?_
    rw [disposeContext_snd]
    dsimp only
    split <;> rfl
  | newDispatcher context =>
    -- a new dispatcher has no listeners, just as there are none where it comes to stand
    have hnew : nativeRosterOf i { s with dispatchers := s.dispatchers.push { context } } =
        nativeRosterOf i s := by
      rw [nativeRosterOf, nativeRosterOf, Array.getElem?_push]
      split
      next hi => exact (nativeRosterOf_of_size_le (Nat.le_of_eq hi.symm)).symm
      next => rfl
    rw [hnew]
  | roster j _ hchange =>
    by_cases hij : j = i
    · subst hij
      rw [nativeRosterOf_setRoster]
      split
      · exact .single hchange
      · exact .refl
    · rw [nativeRosterOf_setRoster_of_ne hij]
  | newRuntime _ _ => exact .refl
  | runtime _ _ _ _ _ => exact .refl

theorem Moves.nativeRosterOf_later (h : Moves s t) (i : Nat) :
    (nativeRosterOf i s).Later (nativeRosterOf i t) := by
  induction h with
  | refl => exact .refl
  | tail _ hmove ih => exact ih.trans (hmove.nativeRosterOf_later i)

/-! ### What a step can do -/

section Steps

variable {h : Handle} (depth : Nat) (step : Step) (i : Nat)

/-- A function that is found under a handle that had been given before is the one that it was given
to. -/
theorem find?_perform {f : Callable} (hgiven : h < (rosterOf i s).nextHandle)
    (hfound : (rosterOf i (perform depth step s).2).find? h = some f) :
    (rosterOf i s).find? h = some f :=
  ((orderly_perform depth step s .refl).rosterOf_later i).find?_eq hgiven hfound

theorem find?_perform_native {l : NativeListener} (hgiven : h < (nativeRosterOf i s).nextHandle)
    (hfound : (nativeRosterOf i (perform depth step s).2).find? h = some l) :
    (nativeRosterOf i s).find? h = some l :=
  ((orderly_perform depth step s .refl).nativeRosterOf_later i).find?_eq hgiven hfound

end Steps

/-! ### Histories -/

theorem Moves.exists_run (h : Moves {} s) (i : Nat) : ∃ es, Roster.Run {} es (rosterOf i s) :=
  (h.rosterOf_later i).exists_run

theorem Moves.exists_run_native (h : Moves {} s) (i : Nat) :
    ∃ es, Roster.Run {} es (nativeRosterOf i s) :=
  (h.nativeRosterOf_later i).exists_run

theorem regular_native (p : Performer) (i context : Nat) (c : Context) :
    (nativeSurroundings p i context c).Regular where
  roster_log _ _ := rfl
  isValid_log _ _ := rfl
  roster_unlink s := by
    show nativeRosterOf i (setRoster i (nativeRosterOf i s).clear s) = (nativeRosterOf i s).clear
    rw [nativeRosterOf_setRoster]
    split
    next => rfl
    next hi =>
      rw [nativeRosterOf_of_size_le (Nat.le_of_not_lt hi)]
      rfl

theorem regular_script (r : Realm) (context : Nat) : (scriptSurroundings r context).Regular where
  roster_log _ _ := rfl
  isValid_log _ _ := rfl
  roster_unlink s := by
    show rosterOf r.runtime (Realm.setRoster r.runtime (rosterOf r.runtime s).clear s).2 =
      (rosterOf r.runtime s).clear
    by_cases hi : r.runtime < s.runtimes.size
    · exact Realm.rosterOf_setRoster hi _
    · have hnone : (rosterOf r.runtime s).clear = rosterOf r.runtime s := by
        rw [rosterOf, Array.getElem?_eq_none (Nat.le_of_not_lt hi)]
        rfl
      rw [hnone, setRoster_self]

/-- Native listeners react by steps of the session, on whatever depth these are performed. -/
theorem exists_traced_native (i : Nat) : ∃ told,
    Surroundings.Traced (fun x : ℕ × ℕ × Context =>
      nativeSurroundings (perform x.1) i x.2.1 x.2.2) told := by
  refine Surroundings.exists_traced (fun x => regular_native _ i _ _) fun x e l s => ?_
  have along := alongAmong_native (R := MovesSince s) (orderly_perform x.1) i x.2.1 x.2.2
  exact Moves.nativeRosterOf_later (along.turn e l s .refl) i

/-- The functions that scripts have registered may have steps performed, too. -/
theorem exists_traced_script (i : Nat) : ∃ told,
    Surroundings.Traced (fun x : ℕ × ℕ × Context =>
      scriptSurroundings (Realm.outermost (perform x.1) i x.2.2) x.2.1) told := by
  refine Surroundings.exists_traced (fun x => regular_script _ _) fun x e f s => ?_
  have lawful := Realm.lawful_outermost (orderly_perform (o := s) x.1) i x.2.2
  exact Moves.rosterOf_later ((alongAmong_script lawful.keeps x.2.1).turn e f s .refl) i

end ScriptHost.Session

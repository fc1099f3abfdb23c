/-
Rosters over time.

Whoever works on a roster registers listeners, unregisters them or clears it.  `Later` relates a
roster to what such changes make of it, in any number and order, and the facts below hold however
the changes came about:

* `Later.sound` — handles stand in the order of registration and are never given twice;
* `Later.find?_eq` — under a handle that was given once, no other listener is ever found;
* `Sound.unregister_of_find?` — unregistering takes out one listener and leaves the others in order.

`Reached` counts the registrations since the roster was empty, and so bounds the handles.
-/
import ScriptHost.Listener.Roster
import Mathlib.Data.List.Nodup
import Mathlib.Logic.Relation

namespace ScriptHost.Roster

variable {L : Type} {r r' : Roster L}

/-- The handles stand in order, and those to come are greater. -/
structure Sound (r : Roster L) : Prop where
  ordered : r.handles.Pairwise (· < ·)
  lt_next : ∀ h ∈ r.handles, h < r.nextHandle

/-- One change of a roster. -/
inductive Change : Roster L → Roster L → Prop
  | register (l : L) (r : Roster L) : Change r (r.register l).2
  | unregister (h : Handle) (r : Roster L) : Change r (r.unregister h).2
  | clear (r : Roster L) : Change r r.clear

/-- What a roster may have become. -/
abbrev Later : Roster L → Roster L → Prop := Relation.ReflTransGen Change

theorem sound_empty : Sound ({} : Roster L) :=
  ⟨List.Pairwise.nil, fun _ hh => absurd hh (List.not_mem_nil)⟩

theorem Sound.nodup (hr : r.Sound) : r.handles.Nodup := hr.ordered.imp fun hlt => Nat.ne_of_lt hlt

/-! ### What is found -/

theorem find?_isSome_iff {h : Handle} : (r.find? h).isSome ↔ h ∈ r.handles := by
  rw [Option.isSome_iff_ne_none, ne_eq, find?_eq_none_iff, Decidable.not_not]

theorem find?_register (l : L) (r : Roster L) {h : Handle} (hh : h ≠ r.nextHandle) :
    (r.register l).2.find? h = r.find? h := by
  show (r.listeners ++ [(r.nextHandle, l)]).lookup h = _
  rw [List.lookup_append, List.lookup_cons, List.lookup_nil, beq_false_of_ne hh, Option.or_none]
  rfl

theorem Sound.find?_register_self (hr : r.Sound) (l : L) :
    (r.register l).2.find? r.nextHandle = some l := by
  have hnew : r.find? r.nextHandle = none :=
    find?_eq_none_iff.mpr fun hmem => Nat.lt_irrefl _ (hr.lt_next _ hmem)
  show (r.listeners ++ [(r.nextHandle, l)]).lookup r.nextHandle = _
  rw [List.lookup_append, show r.listeners.lookup r.nextHandle = none from hnew, Option.none_or,
    List.lookup_cons_self]

theorem find?_unregister_self (h : Handle) (r : Roster L) :
    (r.unregister h).2.find? h = none := by
  rw [find?_eq_none_iff, handles_unregister]
  simp

theorem find?_unregister_of_ne {h h' : Handle} (hne : h' ≠ h) (r : Roster L) :
    (r.unregister h).2.find? h' = r.find? h' := by
  -- a lookup passes over the entries that the filter takes out
  show (r.listeners.filter (·.1 ≠ h)).lookup h' = r.listeners.lookup h'
  induction r.listeners with
  | nil => rfl
  | cons p ps ih =>
    by_cases hp : p.1 = h
    · have hp' : (h' == p.1) = false := beq_false_of_ne (hp ▸ hne)
      rw [List.filter_cons_of_neg (by simpa using hp), ih, List.lookup_cons, hp']
    · rw [List.filter_cons_of_pos (by simpa using hp), List.lookup_cons, List.lookup_cons, ih]

/-! ### What is removed -/

theorem unregister_of_not_mem {h : Handle} (hh : h ∉ r.handles) : r.unregister h = (false, r) := by
  have hnone : (r.find? h).isSome = false := by
    rw [find?_eq_none_iff.mpr hh]
    rfl
  have hall : r.listeners.filter (·.1 ≠ h) = r.listeners := by
    refine List.filter_eq_self.mpr fun p hp => ?_
    have hne : p.1 ≠ h := fun he => hh (he ▸ List.mem_map_of_mem hp)
    simpa using hne
  rw [unregister, hnone, hall]

theorem Sound.unregister_of_find? (hr : r.Sound) {h : Handle} {l : L} (hl : r.find? h = some l) :
    ∃ before after, r.listeners = before ++ (h, l) :: after ∧
      r.unregister h = (true, { r with listeners := before ++ after }) := by
  obtain ⟨before, after, hsplit, -⟩ := List.lookup_eq_some_iff.mp hl
  have hnodup := hr.nodup
  rw [handles, hsplit, List.map_append, List.map_cons, List.nodup_middle, List.nodup_cons,
    ← List.map_append] at hnodup
  -- no other listener has this handle
  have hothers : (before ++ after).filter (·.1 ≠ h) = before ++ after := by
    refine List.filter_eq_self.mpr fun p hp => ?_
    have hmem : p.1 ∈ (before ++ after).map (·.1) := List.mem_map_of_mem hp
    have hne : p.1 ≠ h := fun he => hnodup.1 (he ▸ hmem)
    simpa using hne
  refine ⟨before, after, hsplit, ?_⟩
  rw [unregister, hl, hsplit, List.filter_append, List.filter_cons_of_neg (by simp),
    ← List.filter_append, hothers]
  rfl

/-! ### One change -/

namespace Change

theorem sound (hc : Change r r') (hr : r.Sound) : r'.Sound := by
  cases hc with
  | register l =>
    refine ⟨?_, fun h hh => ?_⟩
    · rw [handles_register, List.pairwise_append]
      refine ⟨hr.ordered, List.pairwise_singleton _ _, fun a ha b hb => ?_⟩
      rw [List.mem_singleton.mp hb]
      exact hr.lt_next a ha
    · rw [handles_register, List.mem_append, List.mem_singleton] at hh
      show h < r.nextHandle + 1
      rcases hh with hh | hh
      · exact Nat.lt_succ_of_lt (hr.lt_next h hh)
      · exact hh ▸ Nat.lt_succ_self _
  | unregister h =>
    refine ⟨?_, fun h' hh' => ?_⟩
    · rw [handles_unregister]
      exact hr.ordered.filter _
    · rw [handles_unregister] at hh'
      exact hr.lt_next h' (List.mem_filter.mp hh').1
  | clear => exact ⟨List.Pairwise.nil, fun _ hh => absurd hh List.not_mem_nil⟩

theorem nextHandle_le (hc : Change r r') : r.nextHandle ≤ r'.nextHandle := by
  cases hc with
  | register l => exact Nat.le_succ _
  | unregister h => exact Nat.le_refl _
  | clear => exact Nat.le_refl _

/-- A handle that has been given keeps its listener, or loses it. -/
theorem find?_eq (hc : Change r r') {h : Handle} {l : L} (hh : h < r.nextHandle)
    (hl : r'.find? h = some l) : r.find? h = some l := by
  cases hc with
  | register l' => rwa [find?_register l' r (Nat.ne_of_lt hh)] at hl
  | unregister h' =>
    by_cases he : h = h'
    · rw [he, find?_unregister_self] at hl
      exact absurd hl (by simp)
    · rwa [find?_unregister_of_ne he] at hl
  | clear =>
    -- nothing is found in a roster that has been cleared
    rw [find?_eq_none_iff.mpr (show h ∉ r.clear.handles from List.not_mem_nil)] at hl
    exact absurd hl (by simp)

end Change

/-! ### Any number of changes -/

namespace Later

theorem sound (hl : Later r r') (hr : r.Sound) : r'.Sound := by
  induction hl with
  | refl => exact hr
  | tail _ hc ih => exact hc.sound ih

theorem nextHandle_le (hl : Later r r') : r.nextHandle ≤ r'.nextHandle := by
  induction hl with
  | refl => exact Nat.le_refl _
  | tail _ hc ih => exact Nat.le_trans ih hc.nextHandle_le

theorem find?_eq (hl : Later r r') {h : Handle} {l : L} (hh : h < r.nextHandle)
    (hfound : r'.find? h = some l) : r.find? h = some l := by
  induction hl with
  | refl => exact hfound
  -- the last change did not give this handle anew, as handles have only grown since it was given
  | tail hl hc ih => exact ih (hc.find?_eq (Nat.lt_of_lt_of_le hh (nextHandle_le hl)) hfound)

end Later

/-! ### From the empty roster -/

/-- A roster that has come about from the empty one, with so many registrations. -/
inductive Reached : Nat → Roster L → Prop
  | empty : Reached 0 {}
  | register {n : Nat} {r : Roster L} (l : L) (hr : Reached n r) : Reached (n + 1) (r.register l).2
  | unregister {n : Nat} {r : Roster L} (h : Handle) (hr : Reached n r) :
      Reached n (r.unregister h).2
  | clear {n : Nat} {r : Roster L} (hr : Reached n r) : Reached n r.clear

namespace Reached

variable {n : Nat}

theorem later (hr : Reached n r) (hl : Later r r') : ∃ n', Reached n' r' := by
  induction hl with
  | refl => exact ⟨n, hr⟩
  | tail _ hc ih =>
    obtain ⟨n', hr'⟩ := ih
    cases hc with
    | register l => exact ⟨n' + 1, .register l hr'⟩
    | unregister h => exact ⟨n', .unregister h hr'⟩
    | clear => exact ⟨n', .clear hr'⟩

theorem sound (hr : Reached n r) : r.Sound := by
  induction hr with
  | empty => exact sound_empty
  | register l _ ih => exact (Change.register l _).sound ih
  | unregister h _ ih => exact (Change.unregister h _).sound ih
  | clear _ ih => exact (Change.clear _).sound ih

theorem nextHandle_eq (hr : Reached n r) : r.nextHandle = n + 1 := by
  induction hr with
  | empty => rfl
  | register l _ ih => exact congrArg Nat.succ ih
  | unregister h _ ih => exact ih
  | clear _ ih => exact ih

theorem le_of_mem (hr : Reached n r) {h : Handle} (hh : h ∈ r.handles) : h ≤ n := by
  have hlt := hr.sound.lt_next h hh
  rw [hr.nextHandle_eq] at hlt
  exact Nat.le_of_lt_succ hlt

end Reached
end ScriptHost.Roster

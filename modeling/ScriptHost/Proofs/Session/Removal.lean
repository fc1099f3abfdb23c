/-
Which listener a script removes when it names one by a number.

Handles leave the library as doubles and come back as any double that a script likes to pass.  The
main facts:

* `handleOf?_eq_some_iff` — the guards let through the doubles that denote a natural number up to
  `2 ^ 64`, the last of which is taken for the greatest word;
* `removal_unregisterExact` — as long as handles have at most 53 bits, a double removes the listener
  whose handle it denotes, and nothing otherwise;
* `Move.rosterOf_later` — the listeners of a runtime change by registrations and removals only, so
  that the handles are bounded by the number of registrations;
* `removeModuleListener_exact` — what a script does that passes a double, or a handle that it got.

Design notes: what a double denotes is a rational number, so "the same number" needs no rounding
on either side.
-/
import ScriptHost.Proofs.Binary64.Integers
import ScriptHost.Proofs.Session.Orderly

namespace ScriptHost.Session

open Script (Value Callable)

/-! ### The listeners of a runtime -/

def rosterOf (i : Nat) (s : Session) : Roster Callable := (s.runtimes[i]?.getD default).roster

section Moves

variable {s t : Session}

theorem rosterOf_modifyRuntime_of_ne {i j : Nat} (hij : i ≠ j) (f : Runtime → Runtime)
    (s : Session) : rosterOf j (modifyRuntime i f s).2 = rosterOf j s := by
  show ((s.runtimes.modify i f)[j]?.getD default).roster = _
  rw [Array.getElem?_modify, if_neg hij]
  rfl

theorem rosterOf_modifyRuntime {i : Nat} (hi : i < s.runtimes.size) (f : Runtime → Runtime) :
    rosterOf i (modifyRuntime i f s).2 = (f (s.runtimes[i]?.getD default)).roster := by
  show ((s.runtimes.modify i f)[i]?.getD default).roster = _
  rw [Array.getElem?_modify, if_pos rfl, Array.getElem?_eq_getElem hi]
  rfl

/-- Changing a runtime to what it is, or one that is not there, changes nothing. -/
theorem modifyRuntime_of_same {i : Nat} {f : Runtime → Runtime}
    (h : ∀ runtime, s.runtimes[i]? = some runtime → f runtime = runtime) :
    (modifyRuntime i f s).2 = s := by
  have hruntimes : s.runtimes.modify i f = s.runtimes := by
    refine Array.ext_getElem? fun j => ?_
    rw [Array.getElem?_modify]
    split
    next hj =>
      rw [← hj]
      cases hruntime : s.runtimes[i]? with
      | none => rfl
      | some runtime => rw [Option.map_some, h runtime hruntime]
    next => rfl
  exact congrArg (fun runtimes => { s with runtimes }) hruntimes

/-- Putting back the listeners that a runtime has is doing nothing. -/
theorem setRoster_self (i : Nat) (s : Session) : (Realm.setRoster i (rosterOf i s) s).2 = s := by
  refine modifyRuntime_of_same fun runtime hruntime => ?_
  rw [rosterOf, hruntime]
  rfl

theorem Move.rosterOf_later (h : Move s t) (i : Nat) : (rosterOf i s).Later (rosterOf i t) := by
  have hsame : t.runtimes = s.runtimes → (rosterOf i s).Later (rosterOf i t) := fun he => by
    rw [rosterOf, rosterOf, he]
  cases h with
  | elsewhere h => exact hsame h.runtimes
  | newQueue _ _ _ _ => exact .refl
  | queue j step =>
    exact hsame (step.preserves (P := fun u => u.runtimes = s.runtimes) (fun _ _ hu => hu)
      (fun _ _ hu => hu) rfl)
  | newContext _ _ _ _ _ => exact .refl
  | dispose j =>
    refine hsame ?_
    rw [disposeContext_snd]
    dsimp only
    split <;> rfl
  | newDispatcher _ _ => exact .refl
  | roster _ _ _ => exact .refl
  | newRuntime context =>
    -- a new runtime has no listeners, and none are found where there is no runtime
    have hnew : rosterOf i { s with runtimes := s.runtimes.push { context } } = rosterOf i s := by
      rw [rosterOf, rosterOf, Array.getElem?_push]
      split
      next hi =>
        rw [hi, Array.getElem?_eq_none (Nat.le_refl _)]
        rfl
      next => rfl
    rw [hnew]
  | runtime j f _ _ hroster =>
    by_cases hij : j = i
    · subst hij
      by_cases hj : j < s.runtimes.size
      · rw [rosterOf_modifyRuntime hj]
        exact hroster
      · rw [modifyRuntime_of_same fun runtime hruntime =>
          absurd (Array.getElem?_eq_some_iff.mp hruntime).1 hj]
    · rw [rosterOf_modifyRuntime_of_ne hij]

theorem Moves.rosterOf_later (h : Moves s t) (i : Nat) : (rosterOf i s).Later (rosterOf i t) := by
  induction h with
  | refl => exact .refl
  | tail _ hmove ih => exact ih.trans (hmove.rosterOf_later i)

theorem Moves.reached (h : Moves {} s) (i : Nat) : ∃ n, (rosterOf i s).Reached n :=
  Roster.Reached.empty.later (h.rosterOf_later i)

end Moves

/-! ### The number that a script passes -/

namespace Realm

variable {x : Binary64}

/-- The greatest word is not a double; the nearest one is the number after it. -/
theorem integer?_ofNat_greatestWord :
    (Binary64.ofNat greatestWord).integer? = some (18446744073709551616 : ℕ) := by
  refine Binary64.integer?_of_bits (e := 1087) (f := 0) (by decide) (by decide) (by decide)
    (by decide) ?_
  have hpower : 2 ^ (1087 - 1) = 2 ^ 12 * 2 ^ 1074 := by rw [← Nat.pow_add]
  have hleading : (0 + 4503599627370496) * 2 ^ 12 = 18446744073709551616 := by decide
  rw [Binary64.sizeOfOne, hpower, ← Nat.mul_assoc, hleading]

/-- Which word is taken for which double. -/
theorem handleOf?_eq_some_iff {h : Nat} :
    handleOf? x = some h ↔ ∃ m : ℕ, m ≤ 2 ^ 64 ∧ x.Denotes m ∧ h = min m greatestWord := by
  have hgreatest : greatestWord = 18446744073709551615 := by decide
  have hdenotes : ∀ m : ℕ, x.Denotes m ↔ x.integer? = some (m : ℤ) := fun m =>
    Binary64.denotes_intCast_iff (i := m)
  simp only [hdenotes]
  cases hx : x.integer? with
  | none =>
    have hwhole : x.isWhole = false := Binary64.integer?_eq_none_iff.mp hx
    rw [handleOf?, if_pos (by simp [hwhole])]
    simp
  | some i =>
    have hfinite := Binary64.isFinite_of_integer? hx
    have hwhole := Binary64.isWhole_of_integer? hx
    have hneg := Binary64.lt_iff_of_integer? hx Binary64.integer?_zero
    have hbeyond := Binary64.lt_iff_of_integer? integer?_ofNat_greatestWord hx
    have htruncate := Binary64.truncate_of_integer? hx 0 greatestWord
    have hguard : (¬ x.isFinite = true ∨ x.lt .zero = true ∨ ¬ x.isWhole = true ∨
        (Binary64.ofNat greatestWord).lt x = true) ↔ i < 0 ∨ 2 ^ 64 < i := by
      rw [hneg, hbeyond]
      simp [hfinite, hwhole]
    rw [handleOf?, htruncate]
    by_cases hi : i < 0 ∨ 2 ^ 64 < i
    · rw [if_pos (hguard.mpr hi)]
      simp only [Option.some_inj]
      refine iff_of_false (by simp) ?_
      rintro ⟨m, hm, rfl, -⟩
      omega
    · rw [if_neg (mt hguard.mp hi)]
      simp only [Option.some_inj]
      constructor
      · rintro rfl
        exact ⟨i.toNat, by omega, by omega, by omega⟩
      · rintro ⟨m, hm, rfl, rfl⟩
        show (max (0 : ℤ) (min (greatestWord : ℤ) (m : ℤ))).toNat = (min m greatestWord : ℕ)
        omega

theorem handleOf?_of_denotes {h : Nat} (hx : x.Denotes h) (hh : h < 2 ^ 53) :
    handleOf? x = some h := by
  have hgreatest : greatestWord = 18446744073709551615 := by decide
  exact handleOf?_eq_some_iff.mpr ⟨h, by omega, hx, by omega⟩

/-! ### Which listener is removed -/

/-- What becomes of a roster when the listener is asked for whose handle a double denotes. -/
structure Removal {L : Type} (x : Binary64) (roster : Roster L) (found : Bool) (left : Roster L) :
    Prop where
  found_iff : found = true ↔ ∃ h ∈ roster.handles, x.Denotes h
  /-- One listener is taken out; the others stay, in order. -/
  removed : found = true → ∃ (before after : List (Handle × L)) (h : Handle) (l : L),
    x.Denotes h ∧ roster.listeners = before ++ (h, l) :: after ∧
      left = { roster with listeners := before ++ after }
  kept : found = false → left = roster

section Exact

variable {L : Type} {roster : Roster L} {n : Nat} (hr : roster.Reached n) (hn : n < 2 ^ 53)
include hr hn

/-- A registered handle is small, so a double that denotes it is taken for it. -/
theorem unregisterExact_of_denotes {h : Handle} {l : L} (hx : x.Denotes h)
    (hl : roster.find? h = some l) : ∃ before after,
      roster.listeners = before ++ (h, l) :: after ∧
        unregisterExact roster x = (true, { roster with listeners := before ++ after }) := by
  have hmem : h ∈ roster.handles := Roster.find?_isSome_iff.mp (Option.isSome_of_eq_some hl)
  have hmeant := handleOf?_of_denotes hx (Nat.lt_of_le_of_lt (hr.le_of_mem hmem) hn)
  obtain ⟨before, after, hsplit, hremoved⟩ := hr.sound.unregister_of_find? hl
  refine ⟨before, after, hsplit, ?_⟩
  rw [unregisterExact, hmeant]
  exact hremoved

/-- And no other double is taken for it, not even one beyond all words. -/
theorem unregisterExact_of_not_denotes (hx : ∀ h ∈ roster.handles, ¬ x.Denotes h) :
    unregisterExact roster x = (false, roster) := by
  rw [unregisterExact]
  cases hmeant : handleOf? x with
  | none => rfl
  | some h =>
    obtain ⟨m, -, hdenotes, hm⟩ := handleOf?_eq_some_iff.mp hmeant
    refine Roster.unregister_of_not_mem fun hmem => ?_
    have hgreatest : greatestWord = 18446744073709551615 := by decide
    have hle : min m greatestWord ≤ n := hm ▸ hr.le_of_mem hmem
    have hsame : min m greatestWord = m := by omega
    obtain rfl : h = m := hm.trans hsame
    exact hx h hmem hdenotes

theorem removal_unregisterExact (x : Binary64) :
    Removal x roster (unregisterExact roster x).1 (unregisterExact roster x).2 := by
  by_cases hx : ∃ h ∈ roster.handles, x.Denotes h
  · obtain ⟨h, hmem, hdenotes⟩ := hx
    obtain ⟨l, hl⟩ := Option.isSome_iff_exists.mp (Roster.find?_isSome_iff.mpr hmem)
    obtain ⟨before, after, hsplit, heq⟩ := unregisterExact_of_denotes hr hn hdenotes hl
    rw [heq]
    exact ⟨iff_of_true rfl ⟨h, hmem, hdenotes⟩,
      fun _ => ⟨before, after, h, l, hdenotes, hsplit, rfl⟩, fun h => absurd h (by simp)⟩
  · rw [unregisterExact_of_not_denotes hr hn fun h hmem hdenotes => hx ⟨h, hmem, hdenotes⟩]
    exact ⟨iff_of_false Bool.false_ne_true hx, fun h => absurd h Bool.false_ne_true, fun _ => rfl⟩

end Exact

/-! ### What a script does -/

variable {r : Realm} {s : Session}

/-- A script asks for the removal of a listener; besides the roster, nothing changes. -/
def Removes (r : Realm) (args : List Value) (s : Session) (found : Bool) (t : Session) : Prop :=
  (r.apply .removeModuleListener args).run s = (.ok (.bool found), t) ∧
    t = (setRoster r.runtime (rosterOf r.runtime t) s).2

theorem removeModuleListener_run (r : Realm) (x : Binary64) (rest : List Value) (s : Session) :
    (r.apply .removeModuleListener (.number x :: rest)).run s =
      (.ok (.bool (unregisterExact (rosterOf r.runtime s) x).1),
        (setRoster r.runtime (unregisterExact (rosterOf r.runtime s) x).2 s).2) := rfl

theorem addModuleListener_run (r : Realm) (f : Callable) (rest : List Value) (s : Session) :
    (r.apply .addModuleListener (.function f :: rest)).run s =
      (.ok (.ofNat (rosterOf r.runtime s).nextHandle),
        (log (.listenerRegistered r.context.id (rosterOf r.runtime s).nextHandle)
          (setRoster r.runtime ((rosterOf r.runtime s).register f).2 s).2).2) := rfl

/-- A runtime that has a listener is there. -/
theorem lt_size_of_mem {i : Nat} {h : Handle} (hh : h ∈ (rosterOf i s).handles) :
    i < s.runtimes.size := by
  refine Decidable.byContradiction fun hi => ?_
  rw [rosterOf, Array.getElem?_eq_none (Nat.le_of_not_lt hi)] at hh
  exact absurd hh List.not_mem_nil

theorem rosterOf_setRoster {i : Nat} (hi : i < s.runtimes.size) (roster : Roster Callable) :
    rosterOf i (setRoster i roster s).2 = roster := rosterOf_modifyRuntime hi _

theorem removes_of_double {n : Nat} (hr : (rosterOf r.runtime s).Reached n) (hn : n < 2 ^ 53)
    (x : Binary64) (rest : List Value) : ∃ found t, r.Removes (.number x :: rest) s found t ∧
      Removal x (rosterOf r.runtime s) found (rosterOf r.runtime t) ∧ (found = false → t = s) := by
  have hremoval := removal_unregisterExact hr hn x
  have hrun := removeModuleListener_run r x rest s
  generalize unregisterExact (rosterOf r.runtime s) x = outcome at hremoval hrun
  obtain ⟨found, left⟩ := outcome
  dsimp only at hremoval hrun
  cases found with
  | false =>
    rw [hremoval.kept rfl, setRoster_self] at hrun
    rw [hremoval.kept rfl] at hremoval
    exact ⟨false, s, ⟨hrun, (setRoster_self _ s).symm⟩, hremoval, fun _ => rfl⟩
  | true =>
    obtain ⟨h, hh, -⟩ := hremoval.found_iff.mp rfl
    have hleft := rosterOf_setRoster (lt_size_of_mem hh) left
    refine ⟨true, _, ⟨hrun, by rw [hleft]⟩, ?_, fun h => absurd h (by simp)⟩
    rw [hleft]
    exact hremoval

/-- What has been returned for a listener removes that listener, as long as it is there. -/
theorem removes_of_returned {n : Nat} (hr : (rosterOf r.runtime s).Reached n) (hn : n < 2 ^ 53)
    {r₀ : Realm} (hsame : r₀.runtime = r.runtime) {s₀ s₁ : Session} (hs₀ : Moves {} s₀)
    (hi : r.runtime < s₀.runtimes.size) {f : Callable} {args : List Value} {id : Value}
    (hadd : (r₀.apply .addModuleListener (.function f :: args)).run s₀ = (.ok id, s₁))
    (hs : Moves s₁ s) : ∃ h,
      (rosterOf r.runtime s₁).listeners = (rosterOf r.runtime s₀).listeners ++ [(h, f)] ∧
      (h ∈ (rosterOf r.runtime s).handles → ∀ rest, ∃ before after t,
        (rosterOf r.runtime s).listeners = before ++ (h, f) :: after ∧
        r.Removes (id :: rest) s true t ∧
        rosterOf r.runtime t = { rosterOf r.runtime s with listeners := before ++ after }) := by
  rw [addModuleListener_run, hsame] at hadd
  obtain ⟨hid, hs₁⟩ := Prod.mk.inj hadd
  obtain ⟨n₀, hr₀⟩ := hs₀.reached r.runtime
  have hroster : rosterOf r.runtime s₁ = ((rosterOf r.runtime s₀).register f).2 := by
    rw [← hs₁]
    exact rosterOf_setRoster hi _
  refine ⟨(rosterOf r.runtime s₀).nextHandle, by rw [hroster]; rfl, fun hh rest => ?_⟩
  obtain ⟨l, hl⟩ := Option.isSome_iff_exists.mp (Roster.find?_isSome_iff.mpr hh)
  -- since the registration, nobody else has been given the handle
  have hfirst : (rosterOf r.runtime s₁).find? (rosterOf r.runtime s₀).nextHandle = some l :=
    (hs.rosterOf_later r.runtime).find?_eq (by rw [hroster]; exact Nat.lt_succ_self _) hl
  rw [hroster, hr₀.sound.find?_register_self f] at hfirst
  obtain rfl := Option.some.inj hfirst
  have hsmall : (rosterOf r.runtime s₀).nextHandle < 2 ^ 53 :=
    Nat.lt_of_le_of_lt (hr.le_of_mem hh) hn
  obtain ⟨before, after, hsplit, hremoved⟩ :=
    unregisterExact_of_denotes hr hn (Binary64.denotes_ofNat hsmall) hl
  have hleft := rosterOf_setRoster (lt_size_of_mem hh)
    { rosterOf r.runtime s with listeners := before ++ after }
  refine ⟨before, after, _, hsplit, ⟨?_, by rw [hleft]⟩, hleft⟩
  rw [← Except.ok.inj hid, Value.ofNat, removeModuleListener_run, hremoved]

/-- **Removal by number.**  As long as fewer than `2 ^ 53` listeners have been registered in a
runtime, a script that passes a double removes the listener whose handle the double denotes, and
no other; a double that denotes no registered handle changes nothing.  In particular, what has been
returned for a listener removes that listener for as long as it is registered. -/
theorem removeModuleListener_exact (hs : Moves {} s) (r : Realm) :
    ∃ n, (rosterOf r.runtime s).Reached n ∧ (n < 2 ^ 53 →
      (∀ (x : Binary64) (rest : List Value), ∃ found t, r.Removes (.number x :: rest) s found t ∧
        Removal x (rosterOf r.runtime s) found (rosterOf r.runtime t) ∧ (found = false → t = s)) ∧
      ∀ (r₀ : Realm) (s₀ s₁ : Session) (f : Callable) (args : List Value) (id : Value),
        r₀.runtime = r.runtime → Moves {} s₀ → r.runtime < s₀.runtimes.size →
        (r₀.apply .addModuleListener (.function f :: args)).run s₀ = (.ok id, s₁) →
        Moves s₁ s → ∃ h,
          (rosterOf r.runtime s₁).listeners = (rosterOf r.runtime s₀).listeners ++ [(h, f)] ∧
          (h ∈ (rosterOf r.runtime s).handles → ∀ rest, ∃ before after t,
            (rosterOf r.runtime s).listeners = before ++ (h, f) :: after ∧
            r.Removes (id :: rest) s true t ∧
            rosterOf r.runtime t =
              { rosterOf r.runtime s with listeners := before ++ after })) := by
  obtain ⟨n, hr⟩ := hs.reached r.runtime
  exact ⟨n, hr, fun hn => ⟨removes_of_double hr hn, fun _ _ _ _ _ _ hsame hs₀ hi hadd hlater =>
    removes_of_returned hr hn hsame hs₀ hi hadd hlater⟩⟩

/-- The realm of the first runtime. -/
def sampleRealm : Realm := outermost (Session.perform 0) 0 default

/-- A session in which a script has registered two listeners. -/
def twoListeners : Session :=
  ((sampleRealm.apply .addModuleListener [.function (.binding .now)]).run
    ((sampleRealm.apply .addModuleListener [.function (.binding .toJSON)]).run
      (addRuntime 0 {}).2).2).2

theorem twoListeners_reached : Moves {} twoListeners := by
  have hruntime := (along_addRuntime (R := MovesSince {}) 0).orderly {} .refl
  have hfirst := (along_addModuleListener (r := sampleRealm) (R := MovesSince {})
    [.function (.binding .toJSON)]).orderly _ hruntime
  have hsecond := (along_addModuleListener (r := sampleRealm) (R := MovesSince {})
    [.function (.binding .now)]).orderly _ (hruntime.trans hfirst)
  exact (hruntime.trans hfirst).trans hsecond

theorem twoListeners_removal : (rosterOf 0 twoListeners).handles = [1, 2] ∧
    ∃ t, sampleRealm.Removes [.number (.ofNat 2)] twoListeners true t ∧
      (rosterOf 0 t).handles = [1] := by
  refine ⟨rfl, ?_⟩
  obtain ⟨n, hn, hexact⟩ := removeModuleListener_exact twoListeners_reached sampleRealm
  have htwo : 2 = n := Nat.succ.inj hn.nextHandle_eq
  obtain ⟨found, t, hremoves, hremoval, -⟩ := (hexact (by omega)).1 (.ofNat 2) []
  obtain rfl : found = true :=
    hremoval.found_iff.mpr ⟨2, by decide, Binary64.denotes_ofNat (by decide)⟩
  obtain ⟨before, after, h, l, hx, hsplit, hleft⟩ := hremoval.removed rfl
  obtain rfl : h = 2 := Nat.cast_inj.mp (hx.unique (Binary64.denotes_ofNat (by decide)))
  refine ⟨t, hremoves, ?_⟩
  have hleft : rosterOf 0 t = { rosterOf 0 twoListeners with listeners := before ++ after } := hleft
  have hsplit : [(1, .binding .toJSON), (2, .binding .now)] = before ++ (2, l) :: after := hsplit
  rw [hleft]
  match before, hsplit with
  | [p], hsplit =>
    simp only [List.cons_append, List.nil_append, List.cons.injEq] at hsplit
    rw [← hsplit.1, ← hsplit.2.2]
    rfl
  | [], hsplit => simp at hsplit
  | _ :: _ :: _, hsplit => simp at hsplit

end Realm

end ScriptHost.Session

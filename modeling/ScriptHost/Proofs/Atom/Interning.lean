/-
What interning guarantees.

A cell keeps its table and its text for ever; only the number of its holders changes.  `Is` says
what a cell was interned as, and every operation keeps it.  `Unique` says that no text has two
live atoms in one table; `intern` keeps it, since it takes the live atom if there is one, and so
does anything else that brings no dead atom back to life.

* `intern_is`, `intern_eq` — `intern` returns an atom of the text, the live one if there is one;
* `holders_intern`, `holders_retain`, `holders_releaseAll` — who holds what afterwards.
-/
import ScriptHost.Atom.Table

namespace ScriptHost.Atom.Heap

variable {h h' : Heap} {a b : Atom} {t : TableId} {x : String}

/-- The atom was interned in the table as that text. -/
def Is (h : Heap) (a : Atom) (t : TableId) (x : String) : Prop :=
  ∃ c, h.cells[a.place]? = some c ∧ c.table = t ∧ c.text = x

/-- Every atom of the first heap is the same in the second. -/
def Extends (h h' : Heap) : Prop := ∀ a t x, h.Is a t x → h'.Is a t x

/-- A text has at most one live atom in a table. -/
def Unique (h : Heap) : Prop :=
  ∀ a b t x, h.Is a t x → h.Is b t x → h.holders a ≠ 0 → h.holders b ≠ 0 → a = b

theorem Extends.refl (h : Heap) : h.Extends h := fun _ _ _ hi => hi

theorem Extends.trans {h'' : Heap} (he : h.Extends h') (he' : h'.Extends h'') : h.Extends h'' :=
  fun a t x hi => he' a t x (he a t x hi)

/-! ### What an atom is -/

theorem Is.text_eq (hi : h.Is a t x) : h.text a = x := by
  obtain ⟨c, hc, -, hx⟩ := hi
  rw [text, hc]
  exact hx

/-- An atom is one thing only. -/
theorem Is.eq {t' : TableId} {x' : String} (hi : h.Is a t x) (hi' : h.Is a t' x') :
    t = t' ∧ x = x' := by
  obtain ⟨c, hc, rfl, rfl⟩ := hi
  obtain ⟨c', hc', rfl, rfl⟩ := hi'
  rw [hc] at hc'
  injection hc' with hcc
  exact ⟨congrArg Cell.table hcc, congrArg Cell.text hcc⟩

theorem exists_is_of_holders_ne_zero (ha : h.holders a ≠ 0) : ∃ t x, h.Is a t x := by
  cases hc : h.cells[a.place]? with
  | none =>
    rw [holders, hc] at ha
    exact absurd rfl ha
  | some c => exact ⟨c.table, c.text, c, hc, rfl, rfl⟩

/-- Changing the holders of a cell changes nothing else. -/
theorem is_modify (h : Heap) (f : Nat → Nat) (p : Nat) (a : Atom) (t : TableId) (x : String) :
    (⟨h.cells.modify p fun c => { c with holders := f c.holders }⟩ : Heap).Is a t x
      ↔ h.Is a t x := by
  unfold Is
  simp only [Array.getElem?_modify]
  by_cases hp : p = a.place
  · rw [if_pos hp]
    cases h.cells[a.place]? with
    | none => simp
    | some c => simp
  · rw [if_neg hp]

theorem is_retain : (h.retain b).Is a t x ↔ h.Is a t x :=
  is_modify h (· + 1) b.place a t x

theorem is_release : (h.release b).Is a t x ↔ h.Is a t x :=
  is_modify h (· - 1) b.place a t x

theorem is_releaseAll (atoms : List Atom) : (h.releaseAll atoms).Is a t x ↔ h.Is a t x := by
  induction atoms generalizing h with
  | nil => exact Iff.rfl
  | cons b atoms ih => exact (ih (h := h.release b)).trans is_release

/-! ### Holders -/

theorem holders_retain (hb : h.holders b ≠ 0) (a : Atom) :
    (h.retain b).holders a = h.holders a + [b].count a := by
  by_cases hba : b = a
  · subst hba
    obtain ⟨t, x, c, hc, -, -⟩ := exists_is_of_holders_ne_zero hb
    simp [holders, retain, Array.getElem?_modify, hc]
  · rw [holders_retain_of_ne hba, List.count_singleton, if_neg (by simpa using hba), Nat.add_zero]

theorem holders_release_eq (h : Heap) (b a : Atom) :
    (h.release b).holders a = h.holders a - [b].count a := by
  by_cases hba : b = a
  · subst hba
    rw [holders_release, List.count_singleton_self]
  · rw [holders_release_of_ne hba, List.count_singleton, if_neg (by simpa using hba), Nat.sub_zero]

theorem holders_releaseAll (h : Heap) (atoms : List Atom) (a : Atom) :
    (h.releaseAll atoms).holders a = h.holders a - atoms.count a := by
  -- one release after the other, so the heap changes along the induction
  induction atoms generalizing h with
  | nil => rfl
  | cons b atoms ih =>
    have hstep : (h.releaseAll (b :: atoms)).holders a = ((h.release b).releaseAll atoms).holders a :=
      rfl
    have hcons : (b :: atoms).count a = [b].count a + atoms.count a := by
      rw [← List.count_append]
      rfl
    rw [hstep, ih, holders_release_eq, hcons]
    omega

/-! ### Looking an atom up -/

theorem isFor_iff {c : Cell} : c.isFor t x = true ↔ c.table = t ∧ c.holders ≠ 0 ∧ c.text = x := by
  simp [Cell.isFor, Cell.isLive]

theorem find?_eq_some (hf : h.find? t x = some a) : h.Is a t x ∧ h.holders a ≠ 0 := by
  obtain ⟨i, hi, rfl⟩ := Option.map_eq_some_iff.mp hf
  obtain ⟨hlt, hfor, -⟩ := Array.findIdx?_eq_some_iff_getElem.mp hi
  obtain ⟨htable, hlive, htext⟩ := isFor_iff.mp hfor
  have hcell : h.cells[i]? = some h.cells[i] := Array.getElem?_eq_getElem hlt
  refine ⟨⟨_, hcell, htable, htext⟩, ?_⟩
  rw [holders, hcell]
  exact hlive

theorem find?_eq_none (hf : h.find? t x = none) (hi : h.Is a t x) : h.holders a = 0 := by
  obtain ⟨c, hc, htable, htext⟩ := hi
  have hnone := Array.findIdx?_eq_none_iff.mp (Option.map_eq_none_iff.mp hf) c
    (Array.mem_of_getElem? hc)
  rw [holders, hc]
  -- a live cell of this text would have been found
  refine Decidable.byContradiction fun hlive => ?_
  rw [isFor_iff.mpr ⟨htable, hlive, htext⟩] at hnone
  exact Bool.false_ne_true hnone.symm

/-- Among live atoms, being found is being an atom of that text. -/
theorem Unique.find?_eq (hu : h.Unique) (hi : h.Is a t x) (ha : h.holders a ≠ 0) :
    h.find? t x = some a := by
  cases hf : h.find? t x with
  | none => exact absurd (find?_eq_none hf hi) ha
  | some b =>
    obtain ⟨hb, hblive⟩ := find?_eq_some hf
    rw [hu a b t x hi hb ha hblive]

/-! ### Interning -/

theorem intern_of_some (hf : h.find? t x = some a) : h.intern t x = (a, h.retain a) := by
  rw [intern, hf]

theorem intern_of_none (hf : h.find? t x = none) :
    h.intern t x = (⟨h.cells.size⟩, ⟨h.cells.push ⟨t, x, 1⟩⟩) := by
  rw [intern, hf]

/-- A new cell leaves the others as they are. -/
theorem is_push {t' : TableId} {x' : String} :
    (⟨h.cells.push ⟨t', x', 1⟩⟩ : Heap).Is a t x ↔
      h.Is a t x ∨ (a = ⟨h.cells.size⟩ ∧ t = t' ∧ x = x') := by
  unfold Is
  simp only [Array.getElem?_push]
  -- the new cell comes last, where there was none before
  by_cases hp : a.place = h.cells.size
  · have hnone : h.cells[a.place]? = none := Array.getElem?_eq_none (Nat.le_of_eq hp.symm)
    have ha : a = ⟨h.cells.size⟩ := by rw [← hp]
    rw [if_pos hp, hnone]
    simp [ha, eq_comm]
  · have ha : a ≠ ⟨h.cells.size⟩ := fun he => hp (congrArg Atom.place he)
    rw [if_neg hp]
    simp [ha]

theorem intern_extends (h : Heap) (t : TableId) (x : String) : h.Extends (h.intern t x).2 := by
  intro a t' x' hi
  cases hf : h.find? t x with
  | some b =>
    rw [intern_of_some hf]
    exact is_retain.mpr hi
  | none =>
    rw [intern_of_none hf]
    exact is_push.mpr (Or.inl hi)

theorem intern_is (h : Heap) (t : TableId) (x : String) :
    (h.intern t x).2.Is (h.intern t x).1 t x := by
  cases hf : h.find? t x with
  | some b =>
    rw [intern_of_some hf]
    exact is_retain.mpr (find?_eq_some hf).1
  | none =>
    rw [intern_of_none hf]
    exact is_push.mpr (Or.inr ⟨rfl, rfl, rfl⟩)

theorem holders_intern (h : Heap) (t : TableId) (x : String) (a : Atom) :
    (h.intern t x).2.holders a = h.holders a + [(h.intern t x).1].count a := by
  cases hf : h.find? t x with
  | some b =>
    rw [intern_of_some hf]
    exact holders_retain (find?_eq_some hf).2 a
  | none =>
    rw [intern_of_none hf]
    by_cases hp : a.place = h.cells.size
    · have ha : a = ⟨h.cells.size⟩ := by rw [← hp]
      subst ha
      simp [holders]
    · have ha : (⟨h.cells.size⟩ : Atom) ≠ a := fun he => hp (congrArg Atom.place he).symm
      rw [List.count_singleton, if_neg (by simpa using ha)]
      simp [holders, Array.getElem?_push, hp]

/-- The live atom of a text is the one that is taken. -/
theorem intern_eq (hu : h.Unique) (hi : h.Is a t x) (ha : h.holders a ≠ 0) :
    (h.intern t x).1 = a := by
  rw [intern_of_some (hu.find?_eq hi ha)]

/-! ### Uniqueness -/

/-- Nothing breaks uniqueness that brings no dead atom back to life and makes no new one. -/
theorem Unique.of_live (hu : h.Unique) (his : ∀ a t x, h'.Is a t x → h.Is a t x)
    (hlive : ∀ a, h'.holders a ≠ 0 → h.holders a ≠ 0) : h'.Unique :=
  fun a b t x ha hb hal hbl =>
    hu a b t x (his a t x ha) (his b t x hb) (hlive a hal) (hlive b hbl)

theorem Unique.retain (hu : h.Unique) (hb : h.holders b ≠ 0) : (h.retain b).Unique := by
  refine hu.of_live (fun a t x hi => is_retain.mp hi) fun a ha => ?_
  by_cases hba : b = a
  · exact hba ▸ hb
  · rwa [holders_retain_of_ne hba] at ha

theorem Unique.releaseAll (hu : h.Unique) (atoms : List Atom) : (h.releaseAll atoms).Unique := by
  refine hu.of_live (fun a t x hi => (is_releaseAll atoms).mp hi) fun a ha => ?_
  rw [holders_releaseAll] at ha
  omega

theorem Unique.intern (hu : h.Unique) (t : TableId) (x : String) : (h.intern t x).2.Unique := by
  cases hf : h.find? t x with
  | some b =>
    rw [intern_of_some hf]
    exact hu.retain (find?_eq_some hf).2
  | none =>
    -- a live atom of this text can only be the new one, any other one was there before
    have hnew : ∀ a, (h.intern t x).2.Is a t x → (h.intern t x).2.holders a ≠ 0 →
        a = (h.intern t x).1 := by
      intro a hi ha
      rw [holders_intern, List.count_singleton] at ha
      rw [intern_of_none hf] at hi ha ⊢
      rcases is_push.mp hi with hi | ⟨rfl, -, -⟩
      · rw [find?_eq_none hf hi] at ha
        by_cases he : (⟨h.cells.size⟩ : Atom) = a
        · exact he.symm
        · rw [if_neg (by simpa using he)] at ha
          exact absurd rfl ha
      · rfl
    -- and one of another text is not the new one, so it was live before
    have hold : ∀ a t' x', (t', x') ≠ (t, x) → (h.intern t x).2.Is a t' x' →
        (h.intern t x).2.holders a ≠ 0 → h.Is a t' x' ∧ h.holders a ≠ 0 := by
      intro a t' x' hne hi ha
      rw [holders_intern, List.count_singleton] at ha
      rw [intern_of_none hf] at hi ha
      rcases is_push.mp hi with hi | ⟨-, rfl, rfl⟩
      · refine ⟨hi, ?_⟩
        by_cases he : (⟨h.cells.size⟩ : Atom) = a
        · obtain ⟨c, hc, -⟩ := hi
          rw [← he] at hc
          simp at hc
        · rwa [if_neg (by simpa using he), Nat.add_zero] at ha
      · exact absurd rfl hne
    intro a b t' x' ha hb hal hbl
    by_cases he : (t', x') = (t, x)
    · obtain ⟨rfl, rfl⟩ := Prod.mk.injEq .. ▸ he
      rw [hnew a ha hal, hnew b hb hbl]
    · obtain ⟨ha, hal⟩ := hold a t' x' he ha hal
      obtain ⟨hb, hbl⟩ := hold b t' x' he hb hbl
      exact hu a b t' x' ha hb hal hbl

/-! ### Interning one after the other -/

theorem internAll_extends (h : Heap) (t : TableId) (xs : List String) :
    h.Extends (h.internAll t xs).2 := by
  induction xs generalizing h with
  | nil => exact .refl h
  | cons x xs ih => exact (intern_extends h t x).trans (ih (h.intern t x).2)

theorem internAll_is (h : Heap) (t : TableId) (xs : List String) :
    ∀ a ∈ (h.internAll t xs).1, ∃ x, (h.internAll t xs).2.Is a t x := by
  induction xs generalizing h with
  | nil => nofun
  | cons x xs ih =>
    intro a ha
    rcases List.mem_cons.mp ha with rfl | ha
    · exact ⟨x, internAll_extends _ t xs _ t x (intern_is h t x)⟩
    · exact ih (h.intern t x).2 a ha

theorem holders_internAll (h : Heap) (t : TableId) (xs : List String) (a : Atom) :
    (h.internAll t xs).2.holders a = h.holders a + (h.internAll t xs).1.count a := by
  induction xs generalizing h with
  | nil => rfl
  | cons x xs ih =>
    -- the atoms of the rest are counted from the heap in which `x` is interned
    have hrest := ih (h.intern t x).2
    rw [holders_intern, Nat.add_assoc, ← List.count_append] at hrest
    exact hrest

theorem Unique.internAll (hu : h.Unique) (t : TableId) (xs : List String) :
    (h.internAll t xs).2.Unique := by
  induction xs generalizing h with
  | nil => exact hu
  | cons x xs ih => exact ih (hu.intern t x)

end ScriptHost.Atom.Heap

/-
Whose atoms the properties of a declaration are.

A declaration that has copied one of another context holds atoms of another table, beside those
that it was set to itself.  It goes on finding properties by atoms of its own table, so what counts
for it is the part of its properties whose names are of that table (`ownSheet`).

Any history of the holdings is allowed here, with copies from anywhere at any time.  What carries it
is that name and value of a property always come together (`Matched`): both were interned in the
same table, whichever that is.

* `mem_properties_apply` — where a property comes from;
* `Matched.apply` — an operation keeps properties matched, so any history does (`Course.matched`);
* `Matched.value?_eq_some_iff` — comparing atoms is comparing texts in the own part;
* `lookup_sheet` — which is all there is, where nothing of that name came from elsewhere.
-/
import ScriptHost.Proofs.Holdings.Spellings
import ScriptHost.Proofs.Style.Family

namespace ScriptHost

namespace Atom.Heap

/-- The table that an atom was interned in. -/
def table? (h : Heap) (a : Atom) : Option TableId := h.cells[a.place]?.map Cell.table

theorem Is.table?_eq {h : Heap} {a : Atom} {t : TableId} {x : String} (hi : h.Is a t x) :
    h.table? a = some t := by
  obtain ⟨c, hc, rfl, -⟩ := hi
  rw [table?, hc]
  rfl

end Atom.Heap

namespace Style

open Holdings (Op Remembers)

/-! ### Parts of a declaration -/

/-- The properties whose names are atoms of the table. -/
def Properties.ofTable (h : Atom.Heap) (t : TableId) (ps : Properties) : Properties :=
  ps.filter fun p => h.table? p.1 = some t

/-- A declaration by the texts of those properties whose names are of its own table. -/
def ownSheet (d : Declaration) (s : Holdings) : Texts :=
  Properties.texts s.heap.text ((s.properties d.style).ofTable s.heap d.table)

/-- A lookup does not miss what has been filtered out under other keys. -/
theorem lookup_map_filter {α β γ : Type} [BEq β] [LawfulBEq β] {f : α → β × γ} {q : α → Bool}
    {k : β} {l : List α} (h : ∀ a ∈ l, (f a).1 = k → q a = true) :
    ((l.filter q).map f).lookup k = (l.map f).lookup k := by
  induction l with
  | nil => rfl
  | cons a l ih =>
    rw [List.forall_mem_cons] at h
    have hrest := ih h.2
    rw [List.map_cons, List.lookup_cons]
    by_cases hk : (f a).1 = k
    · rw [List.filter_cons_of_pos (h.1 hk), List.map_cons, List.lookup_cons, hrest]
    · rw [beq_false_of_ne (Ne.symm hk), List.filter_cons]
      split
      · rw [List.map_cons, List.lookup_cons, beq_false_of_ne (Ne.symm hk), hrest]
      · exact hrest

section Properties

variable {h : Atom.Heap} {t : TableId} {ps : Properties} {k : Atom}

theorem Properties.mem_of_mem_ofTable {p : Atom × Atom} (hp : p ∈ ps.ofTable h t) : p ∈ ps :=
  (List.mem_filter.mp hp).1

/-- Looking up an atom of the table finds nothing else than what is in that part. -/
theorem Properties.value?_ofTable (hk : h.table? k = some t) :
    (ps.ofTable h t).value? k = ps.value? k := by
  have hlookup := lookup_map_filter (f := id) (q := fun p : Atom × Atom => h.table? p.1 = some t)
    (k := k) (l := ps) fun p _ hp => decide_eq_true (hp ▸ hk)
  rwa [List.map_id, List.map_id] at hlookup

/-- Where all properties of a name are of the own table, the own part has what the whole has. -/
theorem lookup_sheet {d : Declaration} {s : Holdings} {x : String}
    (hown : ∀ p ∈ s.properties d.style, s.heap.text p.1 = x → s.heap.table? p.1 = some d.table) :
    (ownSheet d s).lookup x = (sheet s d.style).lookup x :=
  lookup_map_filter fun p hp hx => decide_eq_true (hown p hp hx)

end Properties

/-! ### Histories -/

/-- A property that is set has name and value of one table, and one that is copied is a property of
some declaration. -/
def Matches (s : Holdings) : Op → Prop
  | .assign _ name value => ∃ t x y, s.heap.Is name t x ∧ s.heap.Is value t y
  | .copyProperty _ name value => ∃ j, (name, value) ∈ s.properties j
  | _ => True

/-- Anything that may happen to holdings in which a cache is used with one table. -/
abbrev Course (c : CacheId) (t : TableId) : Holdings → Holdings → Prop :=
  Relation.ReflTransGen fun s s' =>
    ∃ op : Op, op.Ready s ∧ ResolvesIn c t op ∧ Matches s op ∧ s' = op.apply s

/-- Name and value of a property are atoms of one table. -/
structure Matched (c : CacheId) (t : TableId) (s : Holdings) : Prop extends Remembers c t s where
  pairs : ∀ i, ∀ p ∈ s.properties i, ∃ t' x y, s.heap.Is p.1 t' x ∧ s.heap.Is p.2 t' y

variable {s : Holdings} {op : Op} {c : CacheId} {t : TableId} {d : Declaration}

theorem mem_properties_of_set {s' : Holdings} {i j : StyleId} {o : Option Properties}
    (h : s'.styles = s.styles.setIfInBounds i o) {p : Atom × Atom} (hp : p ∈ s'.properties j) :
    p ∈ s.properties j ∨ i = j ∧ p ∈ o.getD [] := by
  rw [Holdings.properties, h] at hp
  by_cases hij : i = j
  · rw [hij, Array.getElem?_setIfInBounds_self] at hp
    split at hp
    · exact Or.inr ⟨hij, hp⟩
    · exact absurd hp List.not_mem_nil
  · rw [Array.getElem?_setIfInBounds_ne hij] at hp
    exact Or.inl hp

/-- A property has been there before, or it has just been set or copied. -/
theorem mem_properties_apply {j : StyleId} {p : Atom × Atom} (hp : p ∈ (op.apply s).properties j) :
    p ∈ s.properties j ∨ op = .assign j p.1 p.2 ∨ op = .copyProperty j p.1 p.2 := by
  cases op with
  | assign i name value =>
    rcases mem_properties_of_set (assign_places s i name value).1 hp with hold | ⟨rfl, hput⟩
    · exact Or.inl hold
    · rcases Properties.mem_put hput with hold | rfl
      · exact Or.inl hold
      · exact Or.inr (Or.inl rfl)
  | copyProperty i name value =>
    rcases mem_properties_of_set (copyProperty_places s i name value).1 hp with hold | ⟨rfl, hput⟩
    · exact Or.inl hold
    · rcases Properties.mem_put hput with hold | rfl
      · exact Or.inl hold
      · exact Or.inr (Or.inr rfl)
  | unassign i name =>
    cases hv : (s.properties i).value? name with
    | none =>
      have hsame : (s.unassign i name).2 = s := by rw [Holdings.unassign, hv]
      exact Or.inl (hsame ▸ hp)
    | some v =>
      rcases mem_properties_of_set (unassign_places hv).1 hp with hold | ⟨rfl, hkept⟩
      · exact Or.inl hold
      · exact Or.inl (Properties.mem_of_mem_erase hkept)
  | dropStyle i =>
    have hstyles : ((Op.dropStyle i).apply s).styles = s.styles.setIfInBounds i none := rfl
    rcases mem_properties_of_set hstyles hp with hold | ⟨-, hnone⟩
    · exact Or.inl hold
    · exact absurd hnone List.not_mem_nil
  | resolve c t name =>
    have hleaves : Leaves ⟨j, 0, t, c⟩ (.resolve c t name) := fun _ => rfl
    exact Or.inl (properties_apply hleaves ▸ hp)
  | _ =>
    left
    rwa [← properties_apply (d := ⟨j, 0, 0, 0⟩)]
    trivial

namespace Matched

theorem apply (h : Matched c t s) (op : Op) (hready : op.Ready s) (hresolves : ResolvesIn c t op)
    (hmatches : Matches s op) : Matched c t (op.apply s) where
  sound := op.sound_apply h.sound hready
  names := cache_names_apply hresolves h.names
  pairs := by
    intro i p hp
    obtain ⟨t', x, y, hx, hy⟩ : ∃ t' x y, s.heap.Is p.1 t' x ∧ s.heap.Is p.2 t' y := by
      rcases mem_properties_apply hp with hp | rfl | rfl
      · exact h.pairs i p hp
      · exact hmatches
      · obtain ⟨j, hj⟩ := hmatches
        exact h.pairs j p hj
    exact ⟨t', x, y, op.extends_apply s _ _ _ hx, op.extends_apply s _ _ _ hy⟩

end Matched

theorem Course.matched (run : Course c t {} s) : Matched c t s := by
  induction run with
  | refl =>
    refine ⟨Holdings.remembers_empty c t, fun i p hp => ?_⟩
    simp [Holdings.properties] at hp
  | tail _ hop ih =>
    obtain ⟨op, hready, hresolves, hmatches, rfl⟩ := hop
    exact ih.apply op hready hresolves hmatches

/-! ### Texts and atoms -/

/-- The own part of a declaration is left alone together with the declaration. -/
theorem ownSheet_apply (hs : s.Sound) (op : Op)
    (h : (op.apply s).properties d.style = s.properties d.style) :
    ownSheet d (op.apply s) = ownSheet d s := by
  have hsame : ∀ p ∈ s.properties d.style,
      (op.apply s).heap.table? p.1 = s.heap.table? p.1 := by
    intro p hp
    obtain ⟨t, x, hx⟩ := Atom.Heap.exists_is_of_holders_ne_zero
      (hs.live (Holdings.mem_held_of_property hp).1)
    rw [hx.table?_eq, (op.extends_apply s _ _ _ hx).table?_eq]
  have hpart : (s.properties d.style).ofTable (op.apply s).heap d.table =
      (s.properties d.style).ofTable s.heap d.table :=
    List.filter_congr fun p hp => by rw [hsame p hp]
  rw [ownSheet, ownSheet, h, hpart]
  exact texts_apply hs op fun _ hp => Properties.mem_of_mem_ofTable hp

namespace Matched

variable {k v : Atom} {x y : String}

/-- Looking up the live atom of a text is looking up the text in the own part. -/
theorem lookup_eq (h : Matched c t s) (hx : s.heap.Is k d.table x)
    (hlive : s.heap.holders k ≠ 0) :
    (ownSheet d s).lookup x = ((s.properties d.style).value? k).map s.heap.text := by
  have hunique : ∀ p ∈ (s.properties d.style).ofTable s.heap d.table,
      s.heap.text p.1 = s.heap.text k → p.1 = k := by
    intro p hp htext
    obtain ⟨hmem, hown⟩ := List.mem_filter.mp hp
    obtain ⟨t', x', y', hx', -⟩ := h.pairs d.style p hmem
    -- its name is of the own table, and there the text has one live atom
    obtain rfl : t' = d.table :=
      Option.some.inj (hx'.table?_eq.symm.trans (of_decide_eq_true hown))
    have hxx' : x' = x := by rw [← hx'.text_eq, htext, hx.text_eq]
    exact h.sound.unique p.1 k d.table x (hxx' ▸ hx') hx
      (h.sound.live (Holdings.mem_held_of_property hmem).1) hlive
  rw [ownSheet, ← hx.text_eq, Properties.lookup_texts hunique,
    Properties.value?_ofTable hx.table?_eq]

/-- Comparing a value by its atom is comparing it by its text. -/
theorem value?_eq_some_iff (h : Matched c t s) (hx : s.heap.Is k d.table x)
    (hlive : s.heap.holders k ≠ 0) (hy : s.heap.Is v d.table y) (hlive' : s.heap.holders v ≠ 0) :
    (s.properties d.style).value? k = some v ↔ (ownSheet d s).lookup x = some y := by
  rw [h.lookup_eq hx hlive, Option.map_eq_some_iff]
  constructor
  · exact fun hv => ⟨v, hv, hy.text_eq⟩
  · rintro ⟨w, hw, htext⟩
    have hmem := Properties.mem_of_value? hw
    obtain ⟨t', x', y', hx', hy'⟩ := h.pairs d.style (k, w) hmem
    -- the value came with its name, so it is of the own table too
    obtain ⟨rfl, -⟩ := hx'.eq hx
    have hyy' : y' = y := by rw [← hy'.text_eq, htext]
    have hwv : w = v := h.sound.unique w v d.table y (hyy' ▸ hy') hy
      (h.sound.live (Holdings.mem_held_of_property hmem).2) hlive'
    rwa [hwv] at hw

end Matched

end Style
end ScriptHost

/-
The accounts of atoms.

`Sound` says that the heap and the places agree: every cell counts its holders exactly, no text
has two live atoms in a table, and the empty atom of a table is empty.  `Op` lists what can be
done with holdings and `Ready` when it can: one gives up, keeps or assigns only what is in the
hand, and takes one more hold only of what is held.

* `Op.sound_apply` — every operation that is ready keeps holdings sound;
* `Op.extends_apply` — no operation changes what an atom is.

Design notes: that what is held is live follows from the exact count (`Sound.live`), and this is
all that is needed to take one more hold of it, so no operation has a condition on counts.
-/
import ScriptHost.Proofs.Atom.Interning
import ScriptHost.Proofs.Holdings.Places

namespace ScriptHost.Holdings

open Atom (Heap Table NameCache)

variable {s : Holdings}

/-- The heap and the places that hold atoms agree. -/
structure Sound (s : Holdings) : Prop where
  unique : s.heap.Unique
  counted : ∀ a, s.heap.holders a = s.held.count a
  empties : ∀ t table, s.tables[t]?.join = some table → s.heap.Is table.empty t ""
  /-- A name has one handle. -/
  named : (s.handles.map (·.1)).Nodup

theorem sound_empty : Sound {} where
  unique _ _ _ _ ha := by
    obtain ⟨c, hc, -⟩ := ha
    simp at hc
  counted a := by simp [Heap.holders, held, slots]
  empties t table ht := by simp at ht
  named := List.nodup_nil

/-- What is held is live. -/
theorem Sound.live (hs : s.Sound) {a : Atom} (ha : a ∈ s.held) : s.heap.holders a ≠ 0 := by
  rw [hs.counted]
  exact Nat.ne_of_gt (List.count_pos_iff.mpr ha)

/-! ### Operations -/

/-- What can be done with holdings. -/
inductive Op where
  | grab (a : Atom)
  | letGo (a : Atom)
  | take (t : TableId) (text : String)
  | takeEmpty (t : TableId)
  | newTable (extra : List String)
  | newCache
  | resolve (c : CacheId) (t : TableId) (name : String)
  | dropTable (t : TableId)
  | dropCache (c : CacheId)
  | dropHandle (name : String)
  | keep (name : String) (a : Atom)
  | newStyle
  | assign (i : StyleId) (name value : Atom)
  | unassign (i : StyleId) (name : Atom)
  | copyProperty (i : StyleId) (name value : Atom)
  | dropStyle (i : StyleId)

namespace Op

def apply : Op → Holdings → Holdings
  | .grab a, s => s.grab a
  | .letGo a, s => s.letGo a
  | .take t text, s => (s.take t text).2
  | .takeEmpty t, s => (s.takeEmpty t).2
  | .newTable extra, s => (s.newTable extra).2
  | .newCache, s => s.newCache.2
  | .resolve c t name, s => (s.resolve c t name).2
  | .dropTable t, s => s.dropTable t
  | .dropCache c, s => s.dropCache c
  | .dropHandle name, s => s.dropHandle name
  | .keep name a, s => s.keep name a
  | .newStyle, s => s.newStyle.2
  | .assign i name value, s => s.assign i name value
  | .unassign i name, s => (s.unassign i name).2
  | .copyProperty i name value, s => s.copyProperty i name value
  | .dropStyle i, s => s.dropStyle i

/-- The operation works on atoms that its caller holds, and on places that are there. -/
def Ready : Op → Holdings → Prop
  | .grab a, s => a ∈ s.held
  | .letGo a, s => a ∈ s.hand
  | .resolve c _ _, s => c < s.caches.size
  | .keep _ a, s => a ∈ s.hand
  | .assign i name value, s => i < s.styles.size ∧ name ∈ s.hand ∧ value ∈ s.hand.erase name
  | .copyProperty i name value, s => i < s.styles.size ∧ name ∈ s.held ∧ value ∈ s.held
  | _, _ => True

end Op

/-! ### Caches -/

section Resolve

variable (names : NameCache) (h : Heap) (t : TableId) (name : String)

theorem resolve_of_some {a : Atom} (hl : names.lookup name = some a) :
    names.resolve h t name = (a, names, h.retain a) := by
  rw [NameCache.resolve, hl]

theorem resolve_of_none (hl : names.lookup name = none) :
    names.resolve h t name =
      ((h.intern t (Text.camelCase name)).1,
        (name, (h.intern t (Text.camelCase name)).1) :: names,
        (h.intern t (Text.camelCase name)).2.retain (h.intern t (Text.camelCase name)).1) := by
  rw [NameCache.resolve, hl]

theorem intern_live (x : String) : (h.intern t x).2.holders (h.intern t x).1 ≠ 0 := by
  rw [Heap.holders_intern, List.count_singleton_self]
  exact Nat.succ_ne_zero _

theorem resolve_extends : h.Extends (names.resolve h t name).2.2 := by
  intro a t' x hi
  cases hl : names.lookup name with
  | some b =>
    rw [resolve_of_some names h t name hl]
    exact Heap.is_retain.mpr hi
  | none =>
    rw [resolve_of_none names h t name hl]
    exact Heap.is_retain.mpr (Heap.intern_extends h t _ a t' x hi)

variable {names h} (hlive : ∀ p ∈ names, h.holders p.2 ≠ 0)
include hlive

theorem resolve_unique (hu : h.Unique) : (names.resolve h t name).2.2.Unique := by
  cases hl : names.lookup name with
  | some b =>
    rw [resolve_of_some names h t name hl]
    exact hu.retain (hlive _ (mem_of_lookup hl))
  | none =>
    rw [resolve_of_none names h t name hl]
    exact (hu.intern t _).retain (intern_live h t _)

/-- One hold is the caller's, and one more the cache's if the name is new. -/
theorem holders_resolve (a : Atom) :
    (names.resolve h t name).2.2.holders a + (names.map (·.2)).count a =
      h.holders a + ((names.resolve h t name).2.1.map (·.2)).count a +
        [(names.resolve h t name).1].count a := by
  cases hl : names.lookup name with
  | some b =>
    -- a name that the cache knows costs one hold
    rw [resolve_of_some names h t name hl]
    have hb : h.holders b ≠ 0 := hlive (name, b) (mem_of_lookup hl)
    show (h.retain b).holders a + _ = _ + (names.map (·.2)).count a + [b].count a
    rw [Heap.holders_retain hb]
    omega
  | none =>
    -- a new one costs two, and the second is the cache's
    rw [resolve_of_none names h t name hl, Heap.holders_retain (intern_live h t _),
      Heap.holders_intern, List.map_cons, count_cons_eq _ (names.map (·.2))]
    dsimp only
    omega

end Resolve

/-! ### New tables -/

section Make

variable (h : Heap) (t : TableId) (extra : List String)

theorem make_eq :
    Table.make h t extra =
      (⟨(h.intern t "").1, ((h.intern t "").2.internAll t
          (Atom.commonStyles ++ Atom.commonAttributes ++ extra)).1⟩,
        ((h.intern t "").2.internAll t
          (Atom.commonStyles ++ Atom.commonAttributes ++ extra)).2) := rfl

theorem make_extends : h.Extends (Table.make h t extra).2 := by
  rw [make_eq]
  exact (Heap.intern_extends h t "").trans (Heap.internAll_extends _ t _)

theorem make_unique (hu : h.Unique) : (Table.make h t extra).2.Unique := by
  rw [make_eq]
  exact (hu.intern t "").internAll t _

theorem make_empty : (Table.make h t extra).2.Is (Table.make h t extra).1.empty t "" := by
  rw [make_eq]
  exact Heap.internAll_extends _ t _ _ t "" (Heap.intern_is h t "")

theorem make_is :
    ∀ a ∈ (Table.make h t extra).1.atoms, ∃ x, (Table.make h t extra).2.Is a t x := by
  rw [make_eq]
  intro a ha
  rcases List.mem_cons.mp ha with rfl | ha
  · exact ⟨"", Heap.internAll_extends _ t _ _ t "" (Heap.intern_is h t "")⟩
  · exact Heap.internAll_is _ t _ a ha

theorem holders_make (a : Atom) :
    (Table.make h t extra).2.holders a =
      h.holders a + (Table.make h t extra).1.atoms.count a := by
  rw [make_eq, Heap.holders_internAll, Heap.holders_intern, Nat.add_assoc, Table.atoms]
  exact congrArg _ (count_cons_eq _ _ a).symm

end Make

/-! ### What operations leave as it is -/

namespace Op

/-- No operation changes what an atom is. -/
theorem extends_apply (op : Op) (s : Holdings) : s.heap.Extends (op.apply s).heap := by
  -- an operation retains, releases and interns, and each of these extends the heap
  have hrelease : ∀ (h : Heap) (as : List Atom), h.Extends (h.releaseAll as) :=
    fun h as a t x hi => (Heap.is_releaseAll as).mpr hi
  have hgrab : ∀ a, s.heap.Extends (s.heap.retain a) := fun a _ t x hi => Heap.is_retain.mpr hi
  have hdrop : ∀ name, s.heap.Extends (s.dropHandle name).heap := by
    intro name
    rw [Holdings.dropHandle]
    split
    · exact hrelease s.heap [_]
    · exact .refl _
  cases op with
  | grab a => exact hgrab a
  | letGo a => exact hrelease s.heap [a]
  | take t text => exact Heap.intern_extends s.heap t text
  | takeEmpty t =>
    show s.heap.Extends (s.takeEmpty t).2.heap
    rw [Holdings.takeEmpty]
    split
    · exact hgrab _
    · exact Heap.intern_extends s.heap t ""
  | newTable extra => exact make_extends s.heap s.tables.size extra
  | newCache => exact .refl _
  | resolve c t name => exact resolve_extends (s.cache c) s.heap t name
  | dropTable t =>
    show s.heap.Extends (s.dropTable t).heap
    rw [Holdings.dropTable]
    split
    · exact hrelease s.heap _
    · exact .refl _
  | dropCache c => exact hrelease s.heap _
  | dropHandle name => exact hdrop name
  | keep name a => exact hdrop name
  | newStyle => exact .refl _
  | assign i name value =>
    show s.heap.Extends (s.assign i name value).heap
    rw [Holdings.assign]
    dsimp only
    split
    · exact hrelease s.heap [name, _]
    · exact .refl _
  | unassign i name =>
    show s.heap.Extends (s.unassign i name).2.heap
    rw [Holdings.unassign]
    dsimp only
    split
    · exact hrelease s.heap [name]
    · exact .refl _
  | copyProperty i name value =>
    show s.heap.Extends (s.copyProperty i name value).heap
    rw [Holdings.copyProperty]
    split
    · exact (hgrab value).trans (hrelease _ [_])
    · intro a t x hi
      exact Heap.is_retain.mpr (Heap.is_retain.mpr hi)
  | dropStyle i => exact hrelease s.heap _

end Op

/-! ### Sound operations -/

namespace Sound

variable (hs : s.Sound)
include hs

theorem grab {a : Atom} (ha : a ∈ s.held) : (s.grab a).Sound where
  unique := hs.unique.retain (hs.live ha)
  counted b := by
    have hb := hs.counted b
    have hcons := count_cons_eq a s.hand b
    simp only [count_held, Holdings.grab] at hb ⊢
    rw [Heap.holders_retain (hs.live ha)]
    omega
  empties t table ht := Heap.is_retain.mpr (hs.empties t table ht)
  named := hs.named

theorem letGo {a : Atom} (ha : a ∈ s.hand) : (s.letGo a).Sound where
  unique := hs.unique.releaseAll [a]
  counted b := by
    have hb := hs.counted b
    have herase := count_erase_add ha b
    simp only [count_held, Holdings.letGo] at hb ⊢
    rw [Heap.holders_release_eq]
    omega
  empties t table ht := Heap.is_release.mpr (hs.empties t table ht)
  named := hs.named

theorem take (t : TableId) (text : String) : (s.take t text).2.Sound where
  unique := hs.unique.intern t text
  counted b := by
    have hb := hs.counted b
    have hcons := count_cons_eq (s.heap.intern t text).1 s.hand b
    simp only [count_held, Holdings.take] at hb ⊢
    rw [Heap.holders_intern]
    omega
  empties t' table ht := Heap.intern_extends _ t text _ t' "" (hs.empties t' table ht)
  named := hs.named

theorem takeEmpty (t : TableId) : (s.takeEmpty t).2.Sound := by
  rw [Holdings.takeEmpty]
  split
  next table ht => exact hs.grab (mem_held_of_table ht List.mem_cons_self)
  next => exact hs.take t ""

theorem newTable (extra : List String) : (s.newTable extra).2.Sound where
  unique := make_unique _ _ extra hs.unique
  counted b := by
    have hb := hs.counted b
    simp only [count_held, Holdings.newTable] at hb ⊢
    rw [holders_make, count_slots_push, slot_some]
    omega
  empties t table ht := by
    simp only [Holdings.newTable, Array.getElem?_push] at ht ⊢
    by_cases he : t = s.tables.size
    · -- the new table brings its own empty atom
      rw [if_pos he, Option.join_some] at ht
      injection ht with ht
      rw [he, ← ht]
      exact make_empty s.heap s.tables.size extra
    · rw [if_neg he] at ht
      exact make_extends _ _ extra _ t "" (hs.empties t table ht)
  named := hs.named

theorem newCache : s.newCache.2.Sound where
  unique := hs.unique
  counted b := by
    have hb := hs.counted b
    simp only [count_held, Holdings.newCache] at hb ⊢
    rw [count_slots_push, slot_some]
    exact hb
  empties := hs.empties
  named := hs.named

theorem resolve {c : CacheId} (hc : c < s.caches.size) (t : TableId) (name : String) :
    (s.resolve c t name).2.Sound := by
  have hlive : ∀ p ∈ s.cache c, s.heap.holders p.2 ≠ 0 :=
    fun p hp => hs.live (mem_held_of_cache hp)
  have hunique := resolve_unique t name hlive hs.unique
  have hextends := resolve_extends (s.cache c) s.heap t name
  have hheap := holders_resolve t name hlive
  rw [Holdings.resolve]
  -- all that matters of the resolution is in these three facts
  generalize (s.cache c).resolve s.heap t name = r at hunique hextends hheap ⊢
  obtain ⟨a, names, heap⟩ := r
  refine ⟨hunique, fun b => ?_, fun t' table ht => ?_, hs.named⟩
  · have hb := hs.counted b
    have hnames := count_slots_setIfInBounds (List.map (·.2)) hc (some names) b
    have hcons := count_cons_eq a s.hand b
    have hheap := hheap b
    rw [slot_cache, slot_some] at hnames
    simp only [count_held] at hb hheap ⊢
    omega
  · exact hextends _ t' "" (hs.empties t' table ht)

theorem dropTable (t : TableId) : (s.dropTable t).Sound := by
  rw [Holdings.dropTable]
  split
  next table ht =>
    refine ⟨hs.unique.releaseAll _, fun b => ?_, fun t' table' ht' => ?_, hs.named⟩
    · have hb := hs.counted b
      have htables := count_slots_empty Table.atoms s.tables t b
      rw [ht, slot_some] at htables
      simp only [count_held] at hb ⊢
      rw [Heap.holders_releaseAll]
      omega
    · -- the table that was dropped is gone, the others keep their empty atoms
      by_cases he : t = t'
      · simp only [he, Array.getElem?_setIfInBounds_self] at ht'
        split at ht' <;> simp at ht'
      · simp only [Array.getElem?_setIfInBounds_ne he] at ht'
        exact (Heap.is_releaseAll _).mpr (hs.empties t' table' ht')
  next => exact hs

theorem dropCache (c : CacheId) : (s.dropCache c).Sound where
  unique := hs.unique.releaseAll _
  counted b := by
    have hb := hs.counted b
    have hcaches := count_slots_empty (List.map (·.2)) s.caches c b
    rw [slot_cache] at hcaches
    simp only [count_held, Holdings.dropCache] at hb ⊢
    rw [Heap.holders_releaseAll]
    omega
  empties t table ht := (Heap.is_releaseAll _).mpr (hs.empties t table ht)
  named := hs.named

theorem dropHandle (name : String) : (s.dropHandle name).Sound := by
  rw [Holdings.dropHandle]
  split
  next a ha =>
    refine ⟨hs.unique.releaseAll [a], fun b => ?_, fun t table ht => ?_, ?_⟩
    · have hb := hs.counted b
      have hhandles := count_handles_filter hs.named ha b
      simp only [count_held] at hb ⊢
      rw [Heap.holders_release_eq]
      omega
    · exact Heap.is_release.mpr (hs.empties t table ht)
    · exact hs.named.sublist ((List.filter_sublist).map _)
  next => exact hs

omit hs in
theorem not_mem_dropHandle (name : String) : name ∉ (s.dropHandle name).handles.map (·.1) := by
  intro hmem
  obtain ⟨p, hp, rfl⟩ := List.mem_map.mp hmem
  rw [Holdings.dropHandle] at hp
  split at hp
  next => simp at hp
  next hnone =>
    have hne := List.lookup_eq_none_iff.mp hnone p hp
    simp at hne

theorem keep (name : String) {a : Atom} (ha : a ∈ s.hand) : (s.keep name a).Sound := by
  have hdrop := hs.dropHandle name
  have hhand : (s.dropHandle name).hand = s.hand := by
    rw [Holdings.dropHandle]
    split <;> rfl
  refine ⟨hdrop.unique, fun b => ?_, hdrop.empties, ?_⟩
  · have hb := hdrop.counted b
    have herase := count_erase_add (hhand.symm ▸ ha) b
    have hcons := count_cons_eq a ((s.dropHandle name).handles.map (·.2)) b
    simp only [count_held, Holdings.keep, List.map_cons] at hb ⊢
    omega
  · exact List.nodup_cons.mpr ⟨not_mem_dropHandle name, hdrop.named⟩

theorem newStyle : s.newStyle.2.Sound where
  unique := hs.unique
  counted b := by
    have hb := hs.counted b
    simp only [count_held, Holdings.newStyle] at hb ⊢
    rw [count_slots_push, slot_some]
    exact hb
  empties := hs.empties
  named := hs.named

/-- The hand gives up a name and a value, and the declaration a value that it had. -/
theorem assign {i : StyleId} {name value : Atom} (hi : i < s.styles.size) (hname : name ∈ s.hand)
    (hvalue : value ∈ s.hand.erase name) : (s.assign i name value).Sound := by
  have hhand : ∀ b, ((s.hand.erase name).erase value).count b + [name].count b + [value].count b
      = s.hand.count b := by
    intro b
    have h₁ := count_erase_add hname b
    have h₂ := count_erase_add hvalue b
    omega
  have hstyles := count_setProperties hi ((s.properties i).put name value)
  rw [Holdings.assign]
  dsimp only
  split
  next v hv =>
    -- the declaration had the name already: that of the hand is let go, and so is the old value
    refine ⟨(hs.unique.releaseAll [name]).releaseAll [v], fun b => ?_, fun t table ht => ?_,
      hs.named⟩
    · have hb := hs.counted b
      have hput := Style.Properties.count_atoms_put_of_some value hv b
      have hhand := hhand b
      have hstyles := hstyles b
      simp only [count_held] at hb ⊢
      rw [Heap.holders_release_eq, Heap.holders_release_eq]
      simp only [setProperties] at hb hstyles ⊢
      omega
    · exact Heap.is_release.mpr (Heap.is_release.mpr (hs.empties t table ht))
  next hv =>
    -- both atoms pass from the hand into the declaration, so no count changes
    refine ⟨hs.unique, fun b => ?_, hs.empties, hs.named⟩
    have hb := hs.counted b
    have hput := Style.Properties.count_atoms_put_of_none value hv b
    have hhand := hhand b
    have hstyles := hstyles b
    simp only [count_held, setProperties] at hb hstyles ⊢
    omega

theorem unassign (i : StyleId) (name : Atom) : (s.unassign i name).2.Sound := by
  rw [Holdings.unassign]
  dsimp only
  split
  next v hv =>
    -- a declaration that has a property is there
    have hi : i < s.styles.size := by
      refine Decidable.byContradiction fun hi => ?_
      rw [properties, Array.getElem?_eq_none (Nat.le_of_not_lt hi)] at hv
      exact absurd hv (by simp [Style.Properties.value?])
    refine ⟨hs.unique.releaseAll [name], fun b => ?_, fun t table ht => ?_, hs.named⟩
    · have hb := hs.counted b
      have herase := Style.Properties.count_atoms_erase hv b
      have hstyles := count_setProperties hi ((s.properties i).erase name) b
      have hcons := count_cons_eq v s.hand b
      simp only [count_held, setProperties] at hb hstyles ⊢
      rw [Heap.holders_release_eq]
      omega
    · exact Heap.is_release.mpr (hs.empties t table ht)
  next => exact hs

theorem copyProperty {i : StyleId} {name value : Atom} (hi : i < s.styles.size)
    (hname : name ∈ s.held) (hvalue : value ∈ s.held) : (s.copyProperty i name value).Sound := by
  have hstyles := count_setProperties hi ((s.properties i).put name value)
  rw [Holdings.copyProperty]
  split
  next old hold =>
    refine ⟨(hs.unique.retain (hs.live hvalue)).releaseAll [old], fun b => ?_, fun t table ht => ?_,
      hs.named⟩
    · have hb := hs.counted b
      have hput := Style.Properties.count_atoms_put_of_some value hold b
      have hstyles := hstyles b
      simp only [count_held, setProperties] at hb hstyles ⊢
      rw [Heap.holders_release_eq, Heap.holders_retain (hs.live hvalue)]
      omega
    · exact Heap.is_release.mpr (Heap.is_retain.mpr (hs.empties t table ht))
  next hnone =>
    -- taking hold of the name first does not make the value less live
    have hvalue' : (s.heap.retain name).holders value ≠ 0 := by
      rw [Heap.holders_retain (hs.live hname)]
      exact Nat.ne_of_gt (Nat.add_pos_left (Nat.pos_of_ne_zero (hs.live hvalue)) _)
    refine ⟨(hs.unique.retain (hs.live hname)).retain hvalue', fun b => ?_, fun t table ht => ?_,
      hs.named⟩
    · have hb := hs.counted b
      have hput := Style.Properties.count_atoms_put_of_none value hnone b
      have hstyles := hstyles b
      simp only [count_held, setProperties] at hb hstyles ⊢
      rw [Heap.holders_retain hvalue', Heap.holders_retain (hs.live hname)]
      omega
    · exact Heap.is_retain.mpr (Heap.is_retain.mpr (hs.empties t table ht))

theorem dropStyle (i : StyleId) : (s.dropStyle i).Sound where
  unique := hs.unique.releaseAll _
  counted b := by
    have hb := hs.counted b
    have hstyles := count_slots_empty Style.Properties.atoms s.styles i b
    rw [slot_properties] at hstyles
    simp only [count_held, Holdings.dropStyle] at hb ⊢
    rw [Heap.holders_releaseAll]
    omega
  empties t table ht := (Heap.is_releaseAll _).mpr (hs.empties t table ht)
  named := hs.named

end Sound

/-- Operations that are ready keep holdings sound. -/
theorem Op.sound_apply {op : Op} (hs : s.Sound) (hready : op.Ready s) : (op.apply s).Sound := by
  cases op with
  | grab a => exact hs.grab hready
  | letGo a => exact hs.letGo hready
  | take t text => exact hs.take t text
  | takeEmpty t => exact hs.takeEmpty t
  | newTable extra => exact hs.newTable extra
  | newCache => exact hs.newCache
  | resolve c t name => exact hs.resolve hready t name
  | dropTable t => exact hs.dropTable t
  | dropCache c => exact hs.dropCache c
  | dropHandle name => exact hs.dropHandle name
  | keep name a => exact hs.keep name hready
  | newStyle => exact hs.newStyle
  | assign i name value => exact hs.assign hready.1 hready.2.1 hready.2.2
  | unassign i name => exact hs.unassign i name
  | copyProperty i name value => exact hs.copyProperty hready.1 hready.2.1 hready.2.2
  | dropStyle i => exact hs.dropStyle i

/-- The empty atom is empty. -/
theorem Sound.takeEmpty_is (hs : s.Sound) (t : TableId) :
    (s.takeEmpty t).2.heap.Is (s.takeEmpty t).1 t "" ∧
      (s.takeEmpty t).2.hand = (s.takeEmpty t).1 :: s.hand := by
  rw [Holdings.takeEmpty]
  split
  next table ht => exact ⟨Heap.is_retain.mpr (hs.empties t table ht), rfl⟩
  next => exact ⟨Heap.intern_is s.heap t "", rfl⟩

/-- What is held keeps its text. -/
theorem Sound.text_apply (hs : s.Sound) (op : Op) {a : Atom} (ha : a ∈ s.held) :
    (op.apply s).heap.text a = s.heap.text a := by
  obtain ⟨t, x, hi⟩ := Heap.exists_is_of_holders_ne_zero (hs.live ha)
  rw [hi.text_eq, (op.extends_apply s a t x hi).text_eq]

end ScriptHost.Holdings

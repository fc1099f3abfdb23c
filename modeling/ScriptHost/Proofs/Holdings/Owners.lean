/-
Tables with a name cache of their own.

A cache that resolves names in one table only holds cells of that table, as the table itself does.
Such a pair is let go without a trace in what belongs to others: their tables and caches are as they
were, and so is every cell of another table.

* `Owns.apply` — whatever is done with holdings, a pair stays one as long as its cache is used with
  its table only;
* `owns_new` — a new table and a new cache are a pair;
* `Owns.drop` — what is left when a pair has been let go.
-/
import ScriptHost.Proofs.Style.Keyed
import Mathlib.Logic.Relation

namespace ScriptHost.Atom.Heap

variable {h : Heap} {p : Nat}

/-- Atoms that are let go change no cell but their own. -/
theorem getElem?_releaseAll {atoms : List Atom} (hp : ∀ a ∈ atoms, a.place ≠ p) :
    (h.releaseAll atoms).cells[p]? = h.cells[p]? := by
  induction atoms generalizing h with
  | nil => rfl
  | cons a atoms ih =>
    rw [List.forall_mem_cons] at hp
    have hone : (h.release a).cells[p]? = h.cells[p]? := by
      rw [release, Array.getElem?_modify, if_neg hp.1]
    exact (ih (h := h.release a) hp.2).trans hone

end ScriptHost.Atom.Heap

namespace ScriptHost.Holdings

open Style (ResolvesIn)

variable {s s' : Holdings} {t : TableId} {c : CacheId} {op : Op}

/-- What the table and the cache hold are atoms of the table. -/
structure Owns (t : TableId) (c : CacheId) (s : Holdings) : Prop where
  table_lt : t < s.tables.size
  cache_lt : c < s.caches.size
  atoms : ∀ table, s.tables[t]?.join = some table → ∀ a ∈ table.atoms, ∃ x, s.heap.Is a t x
  names : ∀ p ∈ s.cache c, s.heap.Is p.2 t (Text.camelCase p.1)

/-- Nothing has happened to other tables and caches, to the cells of other tables, and to
declarations, handles and the hand. -/
structure Beside (t : TableId) (c : CacheId) (s s' : Holdings) : Prop where
  tables : ∀ t', t' ≠ t → s'.tables[t']? = s.tables[t']?
  caches : ∀ c', c' ≠ c → s'.caches[c']? = s.caches[c']?
  cells : ∀ p : Nat, (∀ cell, s.heap.cells[p]? = some cell → cell.table ≠ t) →
    s'.heap.cells[p]? = s.heap.cells[p]?
  rest : s' = { s with heap := s'.heap, tables := s'.tables, caches := s'.caches }

theorem Beside.refl (t : TableId) (c : CacheId) (s : Holdings) : Beside t c s s :=
  ⟨fun _ _ => rfl, fun _ _ => rfl, fun _ _ => rfl, rfl⟩

/-! ### What operations do to tables -/

/-- Of the tables, an operation changes none, makes a new one or drops one. -/
theorem tables_apply (op : Op) (s : Holdings) :
    (op.apply s).tables = s.tables ∨ (∃ table, (op.apply s).tables = s.tables.push (some table)) ∨
      ∃ t, (op.apply s).tables = s.tables.setIfInBounds t none := by
  have hdrop : ∀ name, (s.dropHandle name).tables = s.tables := by
    intro name
    rw [dropHandle]
    split <;> rfl
  cases op with
  | takeEmpty t =>
    left
    show (s.takeEmpty t).2.tables = s.tables
    rw [takeEmpty]
    split <;> rfl
  | newTable extra => exact Or.inr (Or.inl ⟨_, rfl⟩)
  | dropTable t =>
    show (s.dropTable t).tables = _ ∨ _ ∨ ∃ _, (s.dropTable t).tables = _
    rw [dropTable]
    split
    · exact Or.inr (Or.inr ⟨t, rfl⟩)
    · exact Or.inl rfl
  | dropHandle name => exact Or.inl (hdrop name)
  | keep name a => exact Or.inl (hdrop name)
  | assign i name value =>
    left
    show (s.assign i name value).tables = s.tables
    rw [assign]
    dsimp only
    split <;> rfl
  | unassign i name =>
    left
    show (s.unassign i name).2.tables = s.tables
    rw [unassign]
    dsimp only
    split <;> rfl
  | copyProperty i name value =>
    left
    show (s.copyProperty i name value).tables = s.tables
    rw [copyProperty]
    split <;> rfl
  | _ => exact Or.inl rfl

namespace Owns

variable (h : Owns t c s)
include h

/-- A pair stays one. -/
theorem apply (hresolves : ResolvesIn c t op) : Owns t c (op.apply s) := by
  have hcache := Nat.lt_of_lt_of_le h.cache_lt (Style.caches_size_le op)
  have hnames := Style.cache_names_apply hresolves h.names
  have hatoms : ∀ table, s.tables[t]?.join = some table → ∀ a ∈ table.atoms,
      ∃ x, (op.apply s).heap.Is a t x := by
    intro table htable a ha
    obtain ⟨x, hx⟩ := h.atoms table htable a ha
    exact ⟨x, op.extends_apply s a t x hx⟩
  rcases tables_apply op s with htables | ⟨table, htables⟩ | ⟨t', htables⟩
  · exact ⟨htables ▸ h.table_lt, hcache, htables ▸ hatoms, hnames⟩
  · refine ⟨?_, hcache, ?_, hnames⟩
    · rw [htables, Array.size_push]
      exact Nat.lt_succ_of_lt h.table_lt
    · rw [htables, Array.getElem?_push, if_neg (Nat.ne_of_lt h.table_lt)]
      exact hatoms
  · refine ⟨?_, hcache, ?_, hnames⟩
    · rw [htables, Array.size_setIfInBounds]
      exact h.table_lt
    · rw [htables, Array.getElem?_setIfInBounds]
      split
      · -- a table that has been dropped holds nothing
        rw [if_pos (by simpa [‹t' = t›] using h.table_lt)]
        nofun
      · exact hatoms

/-- Letting go of a pair. -/
theorem drop : Beside t c s ((s.dropCache c).dropTable t) := by
  -- the cells that are let go are cells of the table
  have hplace : ∀ {a : Atom} {x : String} {p : Nat}, s.heap.Is a t x →
      (∀ cell, s.heap.cells[p]? = some cell → cell.table ≠ t) → a.place ≠ p := by
    rintro a x p ⟨cell, hcell, htable, -⟩ hp rfl
    exact hp cell hcell htable
  have hcache : ∀ p : Nat, (∀ cell, s.heap.cells[p]? = some cell → cell.table ≠ t) →
      (s.dropCache c).heap.cells[p]? = s.heap.cells[p]? := by
    intro p hp
    refine Atom.Heap.getElem?_releaseAll fun a ha => ?_
    obtain ⟨entry, hentry, rfl⟩ := List.mem_map.mp ha
    exact hplace (h.names entry hentry) hp
  have hcaches : ∀ c', c' ≠ c → (s.dropCache c).caches[c']? = s.caches[c']? := fun c' hne =>
    Array.getElem?_setIfInBounds_ne (Ne.symm hne)
  rw [dropTable]
  split
  next table htable =>
    refine ⟨fun t' hne => Array.getElem?_setIfInBounds_ne (Ne.symm hne), hcaches, fun p hp => ?_, rfl⟩
    refine (Atom.Heap.getElem?_releaseAll fun a ha => ?_).trans (hcache p hp)
    obtain ⟨x, hx⟩ := h.atoms table htable a ha
    exact hplace hx hp
  next => exact ⟨fun _ _ => rfl, hcaches, hcache, rfl⟩

end Owns

/-- A table that has just been made, with a cache that has just been made. -/
theorem owns_new (s : Holdings) (extra : List String) :
    Owns s.tables.size s.caches.size (s.newTable extra).2.newCache.2 where
  table_lt := by
    show _ < (s.tables.push _).size
    rw [Array.size_push]
    exact Nat.lt_succ_self _
  cache_lt := by
    show _ < (s.caches.push _).size
    rw [Array.size_push]
    exact Nat.lt_succ_self _
  atoms table htable := by
    have hnew : ((s.newTable extra).2.newCache.2.tables)[s.tables.size]?.join =
        some (Atom.Table.make s.heap s.tables.size extra).1 := by
      show ((s.tables.push _)[s.tables.size]?).join = _
      rw [Array.getElem?_push_size]
      rfl
    rw [← Option.some.inj (hnew.symm.trans htable)]
    exact make_is s.heap s.tables.size extra
  names p hp := by
    have hempty : (s.newTable extra).2.newCache.2.cache s.caches.size = [] := by
      show ((s.caches.push (some []))[s.caches.size]?.join).getD [] = []
      rw [Array.getElem?_push_size]
      rfl
    rw [hempty] at hp
    cases hp

end ScriptHost.Holdings

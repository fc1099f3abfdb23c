/-
The cached way to the atom of a name, and the plain one.

The plain way to the atom of a property name is to bring the name into camel case and to intern it;
a cache gives what it remembers instead.  The two ways come to the same atom at any time, although
the table reclaims texts and interns them anew: what a cache remembers it holds, so this text is not
reclaimed, and a held atom is the one that the table takes (`Remembers`).

* `Remembers.resolve_eq_take` — at one moment, both ways lead to one atom;
* `Served.names`, `Served.length_cache` — the cache remembers the names that it was asked for, each
  of them once;
* `Served.cached_eq_plain` — all of it, after whatever happens while a cache serves a table.
-/
import ScriptHost.Proofs.Holdings.Contents
import ScriptHost.Proofs.Holdings.Spellings
import Mathlib.Data.Finset.Card

namespace ScriptHost.Holdings

open Text (camelCase)

variable {c : CacheId} {t : TableId} {s s' : Holdings} {ops : List Op}

/-! ### Operations in the service of a cache -/

/-- The name for which the operation asks the cache. -/
def Op.asked? (c : CacheId) : Op → Option String
  | .resolve c' _ name => if c' = c then some name else none
  | _ => none

/-- The names for which a cache was asked, by spelling and in order. -/
def asked (c : CacheId) (ops : List Op) : List String := ops.filterMap (·.asked? c)

/-- Operations one after the other, while the cache serves the table; each of them is ready when its
turn comes. -/
inductive Served (c : CacheId) (t : TableId) (s : Holdings) : List Op → Holdings → Prop
  | nil : Served c t s [] s
  | concat {ops : List Op} {s' : Holdings} (run : Served c t s ops s') (op : Op)
      (hready : op.Ready s') (hserves : op.Serves c t) : Served c t s (ops ++ [op]) (op.apply s')

theorem Served.service (run : Served c t s ops s') : Service c t s s' := by
  induction run with
  | nil => exact .refl
  | concat _ op hready hserves ih => exact ih.tail ⟨op, hready, hserves, rfl⟩

theorem asked_concat (ops : List Op) (op : Op) :
    asked c (ops ++ [op]) = asked c ops ++ (op.asked? c).toList := by
  rw [asked, List.filterMap_append, List.filterMap_cons, List.filterMap_nil]
  cases op.asked? c <;> rfl

theorem asked?_eq_some {op : Op} {name : String} (h : op.asked? c = some name) :
    ∃ t, op = .resolve c t name := by
  cases op with
  | resolve c' t' name' =>
    rw [Op.asked?] at h
    split at h
    · next hc => exact ⟨t', by rw [hc, Option.some.inj h]⟩
    · cases h
  | _ => cases h

/-! ### One atom -/

namespace Remembers

variable (h : Remembers c t s)
include h

/-- The atom that the cache gives for a name is the one that the table has for its camel-case form. -/
theorem resolve_eq_take (name : String) :
    (s.resolve c t name).1 = (s.take t (camelCase name)).1 := by
  show ((s.cache c).resolve s.heap t name).1 = (s.heap.intern t (camelCase name)).1
  cases hl : (s.cache c).lookup name with
  | some a =>
    -- the cache holds what it remembers, so it is the live atom of the text
    have hmem := mem_of_lookup hl
    have hlive := h.sound.live (mem_held_of_cache hmem)
    rw [resolve_of_some _ _ _ _ hl]
    exact (Atom.Heap.intern_eq h.sound.unique (h.names _ hmem) hlive).symm
  | none => rw [resolve_of_none _ _ _ _ hl]

theorem take (x : String) : Remembers c t (s.take t x).2 :=
  h.apply (.take t x) trivial ⟨trivial, nofun⟩

/-- A held atom is the one that interning its text takes. -/
theorem take_eq_of_held {a : Atom} {x : String} (ha : a ∈ s.held) (hi : s.heap.Is a t x) :
    (s.take t x).1 = a :=
  Atom.Heap.intern_eq h.sound.unique hi (h.sound.live ha)

/-- Interning first and resolving then. -/
theorem resolve_after_take (name : String) :
    ((s.take t (camelCase name)).2.resolve c t name).1 = (s.take t (camelCase name)).1 := by
  have htaken := h.take (camelCase name)
  rw [htaken.resolve_eq_take]
  exact htaken.take_eq_of_held (mem_held_of_hand List.mem_cons_self)
    (Atom.Heap.intern_is s.heap t _)

/-- Resolving first and interning then. -/
theorem take_after_resolve (hc : c < s.caches.size) (name : String) :
    ((s.resolve c t name).2.take t (camelCase name)).1 = (s.resolve c t name).1 :=
  (h.resolve hc name).take_eq_of_held (mem_held_of_hand List.mem_cons_self)
    (Style.resolve_is_of_names h.names name)

/-- The atom of a name that is remembered is the live one of its camel-case form. -/
theorem find?_eq {p : String × Atom} (hp : p ∈ s.cache c) :
    s.heap.find? t (camelCase p.1) = some p.2 :=
  h.sound.unique.find?_eq (h.names p hp) (h.sound.live (mem_held_of_cache hp))

end Remembers

/-! ### Every name once -/

/-- Names that a cache is asked for are remembered, unless they are already. -/
theorem names_resolve (names : Atom.NameCache) (h : Atom.Heap) (t : TableId) (name : String) :
    (names.resolve h t name).2.1.map (·.1) = (names.map (·.1)).insert name := by
  cases hl : names.lookup name with
  | some a =>
    have hmem : name ∈ names.map (·.1) := List.mem_map_of_mem (mem_of_lookup hl)
    rw [resolve_of_some _ _ _ _ hl, List.insert_of_mem hmem]
  | none =>
    have hmem : name ∉ names.map (·.1) := fun hmem => by
      obtain ⟨p, hp, rfl⟩ := List.mem_map.mp hmem
      simpa using List.lookup_eq_none_iff.mp hl p hp
    rw [resolve_of_none _ _ _ _ hl, List.insert_of_not_mem hmem, List.map_cons]

/-- An operation makes the cache remember the name that it asks for, and nothing else. -/
theorem Op.Serves.names_apply {op : Op} (h : op.Serves c t) (hready : op.Ready s) :
    ((op.apply s).cache c).map (·.1) =
      (op.asked? c).elim ((s.cache c).map (·.1)) ((s.cache c).map (·.1)).insert := by
  cases hasked : op.asked? c with
  | some name =>
    obtain ⟨t', rfl⟩ := asked?_eq_some hasked
    show ((s.resolve c t' name).2.cache c).map (·.1) = _
    rw [cache_resolve hready, names_resolve]
    rfl
  | none =>
    rcases h.cache_apply s with hs | ⟨name, rfl⟩
    · rw [hs]
      rfl
    · simp [Op.asked?] at hasked

namespace Served

/-- The cache remembers the names that it was asked for since it was made, each of them once. -/
theorem names (run : Served c t {} ops s) :
    ((s.cache c).map (·.1)).Nodup ∧ ∀ name, name ∈ (s.cache c).map (·.1) ↔ name ∈ asked c ops := by
  induction run with
  | nil =>
    have hempty : ({} : Holdings).cache c = [] := by simp [cache]
    rw [hempty]
    exact ⟨List.nodup_nil, fun _ => Iff.rfl⟩
  | @concat ops s' _ op hready hserves ih =>
    obtain ⟨hnodup, hnames⟩ := ih
    rw [hserves.names_apply hready]
    simp only [asked_concat]
    cases op.asked? c with
    | none =>
      rw [Option.elim_none, Option.toList_none, List.append_nil]
      exact ⟨hnodup, hnames⟩
    | some new =>
      refine ⟨hnodup.insert, fun name => ?_⟩
      rw [Option.elim_some, List.mem_insert_iff, hnames, Option.toList_some, List.mem_append,
        List.mem_singleton, or_comm]

/-- As many names are remembered as different ones were asked for. -/
theorem length_cache (run : Served c t {} ops s) :
    (s.cache c).length = (asked c ops).toFinset.card := by
  obtain ⟨hnodup, hnames⟩ := run.names
  have hsame : ((s.cache c).map (·.1)).toFinset = (asked c ops).toFinset := by
    ext name
    rw [List.mem_toFinset, List.mem_toFinset, hnames]
  rw [← hsame, List.toFinset_card_of_nodup hnodup, List.length_map]

/-- **The cached way is the plain one.**  Whatever has happened while a cache serves one table, a
name is resolved to the very atom that the table has for its camel-case form: to intern it instead,
before or after, gives the same atom.  From then on the text is contained in the table, and that is
its atom, whatever else happens as long as the cache is there.  And the cache is as large as the
number of different names that it was asked for. -/
theorem cached_eq_plain (run : Served c t {} ops s) (hc : c < s.caches.size) (name : String) :
    let a := (s.resolve c t name).1
    let x := camelCase name
    ((s.take t x).1 = a ∧ ((s.take t x).2.resolve c t name).1 = a ∧
        ((s.resolve c t name).2.take t x).1 = a) ∧
      (∀ s', Service c t (s.resolve c t name).2 s' →
        s'.heap.contains t x = true ∧ s'.heap.find? t x = some a ∧
          (s'.resolve c t name).1 = a ∧ (s'.take t x).1 = a) ∧
      (s.cache c).length = (asked c ops).toFinset.card := by
  have h := (remembers_empty c t).service run.service
  have hplain := h.resolve_eq_take name
  refine ⟨⟨hplain.symm, (h.resolve_after_take name).trans hplain.symm,
    h.take_after_resolve hc name⟩, fun s' later => ?_, run.length_cache⟩
  -- the cache has not forgotten the name, and it holds the atom
  have hc' : c < (s.resolve c t name).2.caches.size :=
    Nat.lt_of_lt_of_le hc (Style.caches_size_le (.resolve c t name))
  have hmem := later.subset_cache hc' (mem_cache_resolve hc t name)
  have h' := (h.resolve hc name).service later
  have hfound := h'.find?_eq hmem
  have htaken := h'.take_eq_of_held (mem_held_of_cache hmem) (h'.names _ hmem)
  refine ⟨?_, hfound, (h'.resolve_eq_take name).trans htaken, htaken⟩
  rw [Atom.Heap.contains, hfound]
  rfl

end Served

/-- A name is resolved and its atom let go of, and then it is resolved by another spelling. -/
def sampleOps : List Op :=
  [.newTable [], .newCache, .resolve 0 0 "font-size",
    .letGo (oneCache.resolve 0 0 "font-size").1, .resolve 0 0 "fontSize"]

/-- What these operations lead to. -/
def twoSpellings : Holdings := ((oneCacheAfter "font-size").resolve 0 0 "fontSize").2

theorem sampleOps_served : Served 0 0 {} sampleOps twoSpellings := by
  have htable : Served 0 0 {} [.newTable []] (({} : Holdings).newTable []).2 :=
    .concat .nil (.newTable []) trivial ⟨trivial, nofun⟩
  have hcache : Served 0 0 {} [.newTable [], .newCache] oneCache :=
    htable.concat .newCache trivial ⟨trivial, nofun⟩
  have hresolved := hcache.concat (.resolve 0 0 "font-size") Nat.zero_lt_one (serves_resolve _ _ _)
  have hletGo := hresolved.concat (.letGo (oneCache.resolve 0 0 "font-size").1) List.mem_cons_self
    ⟨trivial, nofun⟩
  exact hletGo.concat (.resolve 0 0 "fontSize") Nat.zero_lt_one (serves_resolve _ _ _)

/-- The cache goes on holding the atom for both spellings, though nobody else does. -/
theorem twoSpellings_cached :
    let a := (twoSpellings.resolve 0 0 "font-size").1
    (twoSpellings.take 0 "fontSize").1 = a ∧
      ((twoSpellings.resolve 0 0 "font-size").2.letGo a).heap.contains 0 "fontSize" = true ∧
      (twoSpellings.cache 0).length = 2 := by
  have hcamel : camelCase "font-size" = "fontSize" := by decide
  obtain ⟨⟨htaken, -, -⟩, hlater, hlength⟩ :=
    sampleOps_served.cached_eq_plain (s := twoSpellings) Nat.zero_lt_one "font-size"
  rw [hcamel] at htaken hlater
  obtain ⟨hcontains, -⟩ :=
    hlater _ (.single ⟨.letGo _, List.mem_cons_self, ⟨trivial, nofun⟩, rfl⟩)
  exact ⟨htaken, hcontains, hlength.trans (by decide)⟩

end ScriptHost.Holdings

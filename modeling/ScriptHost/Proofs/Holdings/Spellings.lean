/-
A cache in the service of one table.

A name cache remembers atoms by the spelling of a name, and between two uses of it a table may
reclaim what nobody holds any more and intern it again.  `Service` is anything that may happen
while the cache is there and used with one table only.  What carries it is a joint invariant of
cache and table (`Remembers`): an entry is an atom of the camel-case form of its name, and since
the cache holds it, it is the live one.

* `Remembers.apply` — one operation keeps the cache true to its table;
* `Service.subset_cache` — and no operation makes it forget;
* `Remembers.resolve_eq_iff` — so two names are resolved to the same atom, sooner and later, exactly
  if they have the same camel-case form;
* `resolve_camelCase_iff` — which names are resolved to the atom of their own camel-case form.
-/
import ScriptHost.Proofs.Holdings.Identity
import ScriptHost.Proofs.Style.Keyed
import ScriptHost.Proofs.Text.Respelling
import Mathlib.Logic.Relation

namespace ScriptHost.Holdings

open Text (camelCase Settled)

variable {c : CacheId} {t : TableId} {s s' : Holdings}

/-! ### Service -/

/-- The operation uses the cache with that table only, and does not drop it. -/
structure Op.Serves (c : CacheId) (t : TableId) (op : Op) : Prop where
  resolvesIn : Style.ResolvesIn c t op
  keeps : op ≠ .dropCache c

/-- What may happen while a cache serves a table. -/
abbrev Service (c : CacheId) (t : TableId) : Holdings → Holdings → Prop :=
  Relation.ReflTransGen fun s s' => ∃ op : Op, op.Ready s ∧ op.Serves c t ∧ s' = op.apply s

/-- The cache remembers names as the atoms of their camel-case forms. -/
structure Remembers (c : CacheId) (t : TableId) (s : Holdings) : Prop where
  sound : s.Sound
  names : ∀ p ∈ s.cache c, s.heap.Is p.2 t (camelCase p.1)

theorem remembers_empty (c : CacheId) (t : TableId) : Remembers c t {} := by
  refine ⟨sound_empty, fun p hp => ?_⟩
  simp [cache] at hp

namespace Remembers

theorem apply (h : Remembers c t s) (op : Op) (hready : op.Ready s) (hserves : op.Serves c t) :
    Remembers c t (op.apply s) where
  sound := op.sound_apply h.sound hready
  names := Style.cache_names_apply hserves.resolvesIn h.names

theorem service (h : Remembers c t s) (run : Service c t s s') : Remembers c t s' := by
  induction run with
  | refl => exact h
  | tail _ hop ih =>
    obtain ⟨op, hready, hserves, rfl⟩ := hop
    exact ih.apply op hready hserves

end Remembers

/-! ### Nothing is forgotten -/

theorem subset_cache_resolve (names : Atom.NameCache) (h : Atom.Heap) (t : TableId)
    (name : String) : names ⊆ (names.resolve h t name).2.1 := by
  cases hl : names.lookup name with
  | some a =>
    rw [resolve_of_some names h t name hl]
    exact List.Subset.refl names
  | none =>
    rw [resolve_of_none names h t name hl]
    exact List.subset_cons_self _ names

theorem cache_resolve (hc : c < s.caches.size) (t : TableId) (name : String) :
    (s.resolve c t name).2.cache c = ((s.cache c).resolve s.heap t name).2.1 := by
  simp only [resolve, cache, Array.getElem?_setIfInBounds_self_of_lt hc]
  rfl

/-- The cache stays as it is, unless it is asked for a name. -/
theorem Op.Serves.cache_apply {op : Op} (h : op.Serves c t) (s : Holdings) :
    (op.apply s).cache c = s.cache c ∨ ∃ name, op = .resolve c t name := by
  rcases Style.caches_apply s op with hs | hs | ⟨c', rfl, hs⟩ | ⟨c', t', name, rfl⟩
  · exact Or.inl (Style.cache_congr hs c)
  · -- where there was no cache it was empty, and a new one is empty
    left
    rw [cache, cache, hs, Array.getElem?_push]
    split
    · next hc => rw [hc, Array.getElem?_eq_none (Nat.le_refl _)]; rfl
    · rfl
  · have hne : c' ≠ c := fun he => h.keeps (he ▸ rfl)
    left
    rw [cache, cache, hs, Array.getElem?_setIfInBounds_ne hne]
  · by_cases hne : c' = c
    · subst hne
      have ht : t' = t := h.resolvesIn rfl
      exact Or.inr ⟨name, ht ▸ rfl⟩
    · left
      show (s.resolve c' t' name).2.cache c = s.cache c
      simp only [Holdings.resolve, cache, Array.getElem?_setIfInBounds_ne hne]

theorem Op.Serves.subset_cache {op : Op} (h : op.Serves c t) (hc : c < s.caches.size) :
    s.cache c ⊆ (op.apply s).cache c := by
  rcases h.cache_apply s with hs | ⟨name, rfl⟩
  · exact hs ▸ List.Subset.refl _
  · show s.cache c ⊆ (s.resolve c t name).2.cache c
    rw [cache_resolve hc]
    exact subset_cache_resolve _ s.heap t name

namespace Service

theorem caches_size_le (run : Service c t s s') : s.caches.size ≤ s'.caches.size := by
  induction run with
  | refl => exact Nat.le_refl _
  | tail _ hop ih =>
    obtain ⟨op, -, -, rfl⟩ := hop
    exact ih.trans (Style.caches_size_le op)

theorem subset_cache (run : Service c t s s') (hc : c < s.caches.size) :
    s.cache c ⊆ s'.cache c := by
  induction run with
  | refl => exact List.Subset.refl _
  | tail hrun hop ih =>
    obtain ⟨op, -, hserves, rfl⟩ := hop
    exact List.Subset.trans ih
      (hserves.subset_cache (Nat.lt_of_lt_of_le hc (caches_size_le hrun)))

end Service

/-! ### Resolving -/

/-- A name that was resolved is in the cache, with the atom that was given. -/
theorem mem_cache_resolve (hc : c < s.caches.size) (t : TableId) (name : String) :
    (name, (s.resolve c t name).1) ∈ (s.resolve c t name).2.cache c := by
  rw [cache_resolve hc, resolve]
  cases hl : (s.cache c).lookup name with
  | some a =>
    rw [resolve_of_some _ s.heap t name hl]
    exact mem_of_lookup hl
  | none =>
    rw [resolve_of_none _ s.heap t name hl]
    exact List.mem_cons_self

theorem serves_resolve (c : CacheId) (t : TableId) (name : String) :
    (Op.resolve c t name).Serves c t := ⟨fun _ => rfl, nofun⟩

namespace Remembers

theorem resolve (h : Remembers c t s) (hc : c < s.caches.size) (name : String) :
    Remembers c t (s.resolve c t name).2 :=
  h.apply (.resolve c t name) hc (serves_resolve c t name)

/-- Two names are resolved to the same atom exactly if they have the same camel-case form, however
much later the second one is resolved. -/
theorem resolve_eq_iff (h : Remembers c t s) (hc : c < s.caches.size) {x y : String}
    (later : Service c t (s.resolve c t x).2 s') :
    (s'.resolve c t y).1 = (s.resolve c t x).1 ↔ camelCase y = camelCase x := by
  have hc₁ : c < (s.resolve c t x).2.caches.size :=
    Nat.lt_of_lt_of_le hc (Style.caches_size_le (.resolve c t x))
  have hc' : c < s'.caches.size := Nat.lt_of_lt_of_le hc₁ later.caches_size_le
  -- what was given for `x` is what the cache remembers of it to the end
  have hlast : Service c t (s.resolve c t x).2 (s'.resolve c t y).2 :=
    later.tail ⟨.resolve c t y, hc', serves_resolve c t y, rfl⟩
  have hend := (h.resolve hc x).service hlast
  have hx := hlast.subset_cache hc₁ (mem_cache_resolve hc t x)
  have hy := mem_cache_resolve hc' t y
  have heq := hend.sound.eq_iff (mem_held_of_cache hy) (mem_held_of_cache hx) (hend.names _ hy)
    (hend.names _ hx)
  exact heq.trans (and_iff_right rfl)

end Remembers

/-! ### A name and its camel-case form -/

/-- **Settled names.**  Spelling a name in camel case twice is spelling it once exactly if it is a
custom property, or has no two adjacent hyphens directly behind another character before its first
NUL.  Whatever has happened to a cache that serves one table, and whatever happens between the two
uses of it, these are the names that it resolves to the atom of their camel-case form, whichever of
the two spellings it meets first. -/
theorem resolve_camelCase_iff (name : String) (run : Service c t {} s) (hc : c < s.caches.size) :
    (camelCase (camelCase name) = camelCase name ↔ Settled name) ∧
      (∀ s', Service c t (s.resolve c t name).2 s' →
        ((s'.resolve c t (camelCase name)).1 = (s.resolve c t name).1 ↔ Settled name)) ∧
      ∀ s', Service c t (s.resolve c t (camelCase name)).2 s' →
        ((s'.resolve c t name).1 = (s.resolve c t (camelCase name)).1 ↔ Settled name) := by
  have hstable := Text.camelCase_camelCase_iff name
  have hremembers := (remembers_empty c t).service run
  refine ⟨hstable, fun s' later => ?_, fun s' later => ?_⟩
  · exact (hremembers.resolve_eq_iff hc later).trans hstable
  · exact (hremembers.resolve_eq_iff hc later).trans (eq_comm.trans hstable)

/-- A host with one table and one cache. -/
def oneCache : Holdings := ((({} : Holdings).newTable []).2.newCache).2

theorem service_oneCache : Service 0 0 {} oneCache := by
  have htable : Service 0 0 {} (({} : Holdings).newTable []).2 :=
    .single ⟨.newTable [], trivial, ⟨trivial, nofun⟩, rfl⟩
  exact htable.tail ⟨.newCache, trivial, ⟨trivial, nofun⟩, rfl⟩

/-- A name has been resolved there, and nobody but the cache holds its atom any more. -/
def oneCacheAfter (name : String) : Holdings :=
  (oneCache.resolve 0 0 name).2.letGo (oneCache.resolve 0 0 name).1

/-- A single hyphen is settled, a doubled one is not. -/
theorem oneCache_resolves :
    ((oneCacheAfter "font-size").resolve 0 0 "fontSize").1 =
        (oneCache.resolve 0 0 "font-size").1 ∧
      ((oneCacheAfter "font--size").resolve 0 0 "font-size").1 ≠
        (oneCache.resolve 0 0 "font--size").1 := by
  have hafter : ∀ name, Service 0 0 (oneCache.resolve 0 0 name).2 (oneCacheAfter name) :=
    fun name => .single ⟨.letGo _, List.mem_cons_self, ⟨trivial, nofun⟩, rfl⟩
  have hc : 0 < oneCache.caches.size := Nat.zero_lt_one
  obtain ⟨hstable, hsame, -⟩ := resolve_camelCase_iff "font-size" service_oneCache hc
  obtain ⟨hunstable, hother, -⟩ := resolve_camelCase_iff "font--size" service_oneCache hc
  have hsettled : Settled "font-size" := hstable.mp (by decide)
  have hunsettled : ¬ Settled "font--size" := mt hunstable.mpr (by decide)
  exact ⟨(hsame _ (hafter "font-size")).mpr hsettled,
    mt (hother _ (hafter "font--size")).mp hunsettled⟩

end ScriptHost.Holdings

/-
Declarations by the texts of their names.

A declaration finds a property by the identity of its name, while whoever reads it thinks of
texts.  `Keyed` says why this comes to the same: the names that a declaration holds, and those in
the name cache of its context, are live atoms of one table, and there every text has one live atom.
`shown` is the declaration as a function of texts.

* `Keyed.apply` — operations that leave the declaration alone keep it keyed (`Op.Leaves`);
* `Keyed.shown_eq` — looking a property up by the atom of a text is looking it up by the text;
* `Keyed.assign`, `Keyed.unassign` — so are setting it and removing it.
-/
import ScriptHost.Proofs.Holdings.Accounts
import ScriptHost.Style.Edit

namespace ScriptHost.Style

open Holdings (Op)

/-! ### Properties by text -/

namespace Properties

/-- The text of the property of that name, by the texts of atoms; the empty text without one. -/
def shown (text : Atom → String) (ps : Properties) (x : String) : String :=
  ((ps.find? fun p => text p.1 = x).map fun p => text p.2).getD ""

theorem shown_congr {text text' : Atom → String} {ps : Properties}
    (h : ∀ p ∈ ps, text' p.1 = text p.1 ∧ text' p.2 = text p.2) (x : String) :
    shown text' ps x = shown text ps x := by
  induction ps with
  | nil => rfl
  | cons p rest ih =>
    rw [List.forall_mem_cons] at h
    obtain ⟨⟨hname, hvalue⟩, hrest⟩ := h
    have hih := ih hrest
    unfold shown at hih ⊢
    by_cases hx : text p.1 = x
    · simp [hname, hvalue, hx]
    · simpa [List.find?_cons, hname, hx] using hih

/-- A property is found by its name where no other name has the same text. -/
theorem shown_eq {text : Atom → String} {ps : Properties} {k : Atom}
    (hk : ∀ p ∈ ps, text p.1 = text k → p.1 = k) :
    shown text ps (text k) = ((ps.value? k).map text).getD "" := by
  induction ps with
  | nil => rfl
  | cons p rest ih =>
    rw [List.forall_mem_cons] at hk
    have hih := ih hk.2
    unfold shown value? at hih ⊢
    rw [List.lookup_cons, List.find?_cons]
    by_cases hx : text p.1 = text k
    · -- the same text, so the same name
      have he := hk.1 hx
      simp [he]
    · have hne : (k == p.1) = false := beq_false_of_ne fun he => hx (he ▸ rfl)
      simpa [hx, hne] using hih

theorem shown_eq_empty {text : Atom → String} {ps : Properties} {x : String}
    (h : ∀ p ∈ ps, text p.1 ≠ x) : shown text ps x = "" := by
  have hnone : ps.find? (fun p => text p.1 = x) = none :=
    List.find?_eq_none.mpr fun p hp => by simpa using h p hp
  rw [shown, hnone]
  rfl

theorem shown_put_of_ne {text : Atom → String} {k : Atom} {x : String} (hx : text k ≠ x) (v : Atom)
    (ps : Properties) : shown text (ps.put k v) x = shown text ps x := by
  unfold shown
  induction ps with
  | nil => simp [put, hx]
  | cons p rest ih =>
    obtain ⟨n, v'⟩ := p
    by_cases hn : n = k
    · -- the property that is set is not the one that is looked for
      subst hn
      simp [put, hx]
    · rw [put, if_neg hn, List.find?_cons, List.find?_cons]
      by_cases hnx : text n = x
      · simp [hnx]
      · simpa [hnx] using ih

theorem shown_erase_of_ne {text : Atom → String} {k : Atom} {x : String} (hx : text k ≠ x)
    (ps : Properties) : shown text (ps.erase k) x = shown text ps x := by
  unfold shown
  induction ps with
  | nil => rfl
  | cons p rest ih =>
    obtain ⟨n, v⟩ := p
    by_cases hn : n = k
    · subst hn
      simp [erase, hx]
    · rw [erase, if_neg hn, List.find?_cons, List.find?_cons]
      by_cases hnx : text n = x
      · simp [hnx]
      · simpa [hnx] using ih

theorem names_put (ps : Properties) (k v : Atom) :
    (ps.put k v).map (·.1) = if k ∈ ps.map (·.1) then ps.map (·.1) else ps.map (·.1) ++ [k] := by
  induction ps with
  | nil => rfl
  | cons p rest ih =>
    obtain ⟨n, v'⟩ := p
    by_cases hn : n = k
    · simp [put, hn]
    · rw [put, if_neg hn, List.map_cons, ih]
      by_cases hk : k ∈ rest.map (·.1)
      · simp [hk]
      · simp [hk, Ne.symm hn]

theorem names_erase (ps : Properties) (k : Atom) :
    (ps.erase k).map (·.1) = (ps.map (·.1)).erase k := by
  induction ps with
  | nil => rfl
  | cons p rest ih =>
    obtain ⟨n, v⟩ := p
    by_cases hn : n = k
    · simp [erase, hn]
    · rw [erase, if_neg hn, List.map_cons, ih, List.map_cons,
        List.erase_cons_tail (by simpa using hn)]

end Properties

/-! ### Operations that leave a declaration alone -/

/-- The operation does not change the declaration, and it uses the name cache of the context only
with the table of the context. -/
def Leaves (d : Declaration) : Op → Prop
  | .resolve c t _ => c = d.names → t = d.table
  | .assign i _ _ => i ≠ d.style
  | .unassign i _ => i ≠ d.style
  | .copyProperty i _ _ => i ≠ d.style
  | .dropStyle i => i ≠ d.style
  | _ => True

section Frame

variable (s : Holdings)

theorem assign_places (i : StyleId) (name value : Atom) :
    (s.assign i name value).styles =
        s.styles.setIfInBounds i (some ((s.properties i).put name value)) ∧
      (s.assign i name value).caches = s.caches := by
  rw [Holdings.assign]
  dsimp only
  split
  · exact ⟨rfl, rfl⟩
  · exact ⟨rfl, rfl⟩

theorem caches_unassign (i : StyleId) (name : Atom) : (s.unassign i name).2.caches = s.caches := by
  rw [Holdings.unassign]
  dsimp only
  split <;> rfl

/-- Of the declarations, an operation changes none, makes a new one or replaces one. -/
theorem styles_apply (op : Op) :
    (op.apply s).styles = s.styles ∨ (op.apply s).styles = s.styles.push (some []) ∨
      ∃ i o, (∀ d : Declaration, Leaves d op → i ≠ d.style) ∧
        (op.apply s).styles = s.styles.setIfInBounds i o := by
  have hdrop : ∀ name, (s.dropHandle name).styles = s.styles := by
    intro name
    rw [Holdings.dropHandle]
    split <;> rfl
  cases op with
  | takeEmpty t =>
    left
    show (s.takeEmpty t).2.styles = s.styles
    rw [Holdings.takeEmpty]
    split <;> rfl
  | dropTable t =>
    left
    show (s.dropTable t).styles = s.styles
    rw [Holdings.dropTable]
    split <;> rfl
  | dropHandle name => exact Or.inl (hdrop name)
  | keep name a => exact Or.inl (hdrop name)
  | newStyle => exact Or.inr (Or.inl rfl)
  | assign i name value =>
    exact Or.inr (Or.inr ⟨i, _, fun _ hi => hi, (assign_places s i name value).1⟩)
  | unassign i name =>
    show (s.unassign i name).2.styles = _ ∨ (s.unassign i name).2.styles = _ ∨
      ∃ _ _, _ ∧ (s.unassign i name).2.styles = _
    rw [Holdings.unassign]
    dsimp only
    split
    · exact Or.inr (Or.inr ⟨i, _, fun _ hi => hi, rfl⟩)
    · exact Or.inl rfl
  | copyProperty i name value =>
    refine Or.inr (Or.inr ⟨i, some ((s.properties i).put name value), fun _ hi => hi, ?_⟩)
    show (s.copyProperty i name value).styles = _
    rw [Holdings.copyProperty]
    split <;> rfl
  | dropStyle i => exact Or.inr (Or.inr ⟨i, none, fun _ hi => hi, rfl⟩)
  | _ => exact Or.inl rfl

/-- Of the caches, an operation changes none, makes a new one, empties one or resolves by one. -/
theorem caches_apply (op : Op) :
    (op.apply s).caches = s.caches ∨ (op.apply s).caches = s.caches.push (some []) ∨
      (∃ c, op = .dropCache c ∧ (op.apply s).caches = s.caches.setIfInBounds c none) ∨
      ∃ c t name, op = .resolve c t name := by
  have hdrop : ∀ name, (s.dropHandle name).caches = s.caches := by
    intro name
    rw [Holdings.dropHandle]
    split <;> rfl
  cases op with
  | takeEmpty t =>
    left
    show (s.takeEmpty t).2.caches = s.caches
    rw [Holdings.takeEmpty]
    split <;> rfl
  | dropTable t =>
    left
    show (s.dropTable t).caches = s.caches
    rw [Holdings.dropTable]
    split <;> rfl
  | dropHandle name => exact Or.inl (hdrop name)
  | keep name a => exact Or.inl (hdrop name)
  | newCache => exact Or.inr (Or.inl rfl)
  | resolve c t name => exact Or.inr (Or.inr (Or.inr ⟨c, t, name, rfl⟩))
  | dropCache c => exact Or.inr (Or.inr (Or.inl ⟨c, rfl, rfl⟩))
  | assign i name value => exact Or.inl (assign_places s i name value).2
  | unassign i name => exact Or.inl (caches_unassign s i name)
  | copyProperty i name value =>
    left
    show (s.copyProperty i name value).caches = s.caches
    rw [Holdings.copyProperty]
    split <;> rfl
  | _ => exact Or.inl rfl

/-- A declaration depends on the list of declarations only. -/
theorem properties_congr {s s' : Holdings} (h : s'.styles = s.styles) (i : StyleId) :
    s'.properties i = s.properties i := by
  rw [Holdings.properties, Holdings.properties, h]

theorem cache_congr {s s' : Holdings} (h : s'.caches = s.caches) (c : CacheId) :
    s'.cache c = s.cache c := by
  rw [Holdings.cache, Holdings.cache, h]

theorem properties_setProperties_self {i : StyleId} (hi : i < s.styles.size) (ps : Properties) :
    (s.setProperties i ps).properties i = ps := by
  rw [Holdings.properties, Holdings.setProperties, Array.getElem?_setIfInBounds_self_of_lt hi]
  rfl

theorem properties_assign {i : StyleId} (hi : i < s.styles.size) (name value : Atom) :
    (s.assign i name value).properties i = (s.properties i).put name value :=
  (properties_congr (assign_places s i name value).1 i).trans
    (properties_setProperties_self s hi _)

end Frame

section Leaves

variable {s : Holdings} {d : Declaration} {op : Op}

theorem properties_apply (h : Leaves d op) :
    (op.apply s).properties d.style = s.properties d.style := by
  show ((op.apply s).styles[d.style]?.join).getD [] = (s.styles[d.style]?.join).getD []
  rcases styles_apply s op with hs | hs | ⟨i, o, hi, hs⟩
  · rw [hs]
  · rw [hs, Array.getElem?_push]
    by_cases hd : d.style = s.styles.size
    · -- a place that was not there held no properties, and neither does a new one
      rw [if_pos hd, Array.getElem?_eq_none (Nat.le_of_eq hd.symm)]
      rfl
    · rw [if_neg hd]
  · rw [hs, Array.getElem?_setIfInBounds_ne (hi d h)]

theorem styles_size_le (op : Op) : s.styles.size ≤ (op.apply s).styles.size := by
  rcases styles_apply s op with hs | hs | ⟨i, o, -, hs⟩
  · exact Nat.le_of_eq (congrArg Array.size hs.symm)
  · rw [hs, Array.size_push]
    exact Nat.le_succ _
  · exact Nat.le_of_eq (by rw [hs, Array.size_setIfInBounds])

theorem caches_size_le (op : Op) : s.caches.size ≤ (op.apply s).caches.size := by
  rcases caches_apply s op with hs | hs | ⟨c, -, hs⟩ | ⟨c, t, name, rfl⟩
  · exact Nat.le_of_eq (congrArg Array.size hs.symm)
  · rw [hs, Array.size_push]
    exact Nat.le_succ _
  · exact Nat.le_of_eq (by rw [hs, Array.size_setIfInBounds])
  · simp [Op.apply, Holdings.resolve]

/-- A name that a cache has come to remember stands for the atom of its camel-case form. -/
theorem resolve_names (names : Atom.NameCache) (h : Atom.Heap) (t : TableId) (name : String) :
    ∀ p ∈ (names.resolve h t name).2.1, p ∈ names ∨
      (names.resolve h t name).2.2.Is p.2 t (Text.camelCase p.1) := by
  intro p hp
  cases hl : names.lookup name with
  | some a =>
    rw [Holdings.resolve_of_some names h t name hl] at hp
    exact Or.inl hp
  | none =>
    rw [Holdings.resolve_of_none names h t name hl] at hp ⊢
    rcases List.mem_cons.mp hp with rfl | hp
    · exact Or.inr (Atom.Heap.is_retain.mpr (Atom.Heap.intern_is h t _))
    · exact Or.inl hp

/-- What is resolved by the cache is resolved in the table. -/
def ResolvesIn (c : CacheId) (t : TableId) : Op → Prop
  | .resolve c' t' _ => c' = c → t' = t
  | _ => True

theorem Leaves.resolvesIn (h : Leaves d op) : ResolvesIn d.names d.table op := by
  cases op with
  | resolve c t name => exact h
  | _ => trivial

section Resolving

variable {c : CacheId} {t : TableId}

theorem mem_cache_apply (h : ResolvesIn c t op) :
    ∀ p ∈ (op.apply s).cache c, p ∈ s.cache c ∨
      (op.apply s).heap.Is p.2 t (Text.camelCase p.1) := by
  intro p hp
  rcases caches_apply s op with hs | hs | ⟨c', -, hs⟩ | ⟨c', t', name, rfl⟩
  · exact Or.inl (cache_congr hs c ▸ hp)
  · rw [Holdings.cache, hs, Array.getElem?_push] at hp
    by_cases hd : c = s.caches.size
    · simp [hd] at hp
    · rw [if_neg hd] at hp
      exact Or.inl hp
  · rw [Holdings.cache, hs] at hp
    by_cases hc : c' = c
    · rw [hc, Array.getElem?_setIfInBounds_self] at hp
      split at hp <;> simp at hp
    · rw [Array.getElem?_setIfInBounds_ne hc] at hp
      exact Or.inl hp
  · by_cases hc : c' = c
    · -- only here can the cache have learned a name, and then it resolved it in the own table
      subst hc
      rw [← h rfl]
      simp only [Op.apply, Holdings.resolve, Holdings.cache, Array.getElem?_setIfInBounds_self]
        at hp
      split at hp
      · exact resolve_names (s.cache c') s.heap t' name p hp
      · simp at hp
    · simp only [Op.apply, Holdings.resolve, Holdings.cache,
        Array.getElem?_setIfInBounds_ne hc] at hp
      exact Or.inl hp

/-- A cache goes on remembering names as the atoms of their camel-case forms. -/
theorem cache_names_apply (h : ResolvesIn c t op)
    (hnames : ∀ p ∈ s.cache c, s.heap.Is p.2 t (Text.camelCase p.1)) :
    ∀ p ∈ (op.apply s).cache c, (op.apply s).heap.Is p.2 t (Text.camelCase p.1) := by
  intro p hp
  rcases mem_cache_apply h p hp with hp | hi
  · exact op.extends_apply s _ _ _ (hnames p hp)
  · exact hi

end Resolving

theorem names_apply (h : Leaves d op)
    (hnames : ∀ p ∈ s.cache d.names, s.heap.Is p.2 d.table (Text.camelCase p.1)) :
    ∀ p ∈ (op.apply s).cache d.names,
      (op.apply s).heap.Is p.2 d.table (Text.camelCase p.1) :=
  cache_names_apply h.resolvesIn hnames

end Leaves

/-- A cache that remembers names as the atoms of their camel-case forms resolves them to these. -/
theorem resolve_is_of_names {s : Holdings} {c : CacheId} {t : TableId}
    (hnames : ∀ p ∈ s.cache c, s.heap.Is p.2 t (Text.camelCase p.1)) (name : String) :
    (s.resolve c t name).2.heap.Is (s.resolve c t name).1 t (Text.camelCase name) := by
  rw [Holdings.resolve]
  cases hl : (s.cache c).lookup name with
  | some a =>
    rw [Holdings.resolve_of_some _ s.heap t name hl]
    exact Atom.Heap.is_retain.mpr (hnames _ (mem_of_lookup hl))
  | none =>
    rw [Holdings.resolve_of_none _ s.heap t name hl]
    exact Atom.Heap.is_retain.mpr (Atom.Heap.intern_is s.heap t _)

/-! ### Keyed declarations -/

/-- The names of a declaration, and those in the cache by which it finds them, are atoms of its
table; a name occurs once. -/
structure Keyed (d : Declaration) (s : Holdings) : Prop where
  sound : s.Sound
  style_lt : d.style < s.styles.size
  names_lt : d.names < s.caches.size
  names : ∀ p ∈ s.cache d.names, s.heap.Is p.2 d.table (Text.camelCase p.1)
  keys : ∀ k ∈ (s.properties d.style).map (·.1), ∃ x, s.heap.Is k d.table x
  distinct : ((s.properties d.style).map (·.1)).Nodup

/-- What a declaration shows for a text; the empty text if it is not set. -/
def shown (d : Declaration) (s : Holdings) (x : String) : String :=
  Properties.shown s.heap.text (s.properties d.style) x

/-- Nothing else is known of a new declaration than that it is there. -/
theorem keyed_of_new {d : Declaration} {s : Holdings} (hs : s.Sound)
    (hstyle : d.style < s.styles.size) (hnames : d.names < s.caches.size)
    (hcache : ∀ p ∈ s.cache d.names, s.heap.Is p.2 d.table (Text.camelCase p.1))
    (hnew : s.properties d.style = []) : Keyed d s where
  sound := hs
  style_lt := hstyle
  names_lt := hnames
  names := hcache
  keys := by simp [hnew]
  distinct := by simp [hnew]

namespace Keyed

variable {d : Declaration} {s : Holdings} (hk : Keyed d s)
include hk

/-- Atoms that are held keep their texts. -/
theorem shown_apply (op : Op) (hleaves : Leaves d op) (x : String) :
    shown d (op.apply s) x = shown d s x := by
  rw [shown, shown, properties_apply hleaves]
  refine Properties.shown_congr (fun p hp => ?_) x
  obtain ⟨hname, hvalue⟩ := Holdings.mem_held_of_property hp
  exact ⟨hk.sound.text_apply op hname, hk.sound.text_apply op hvalue⟩

theorem apply (op : Op) (hready : op.Ready s) (hleaves : Leaves d op) : Keyed d (op.apply s) where
  sound := Op.sound_apply hk.sound hready
  style_lt := Nat.lt_of_lt_of_le hk.style_lt (styles_size_le op)
  names_lt := Nat.lt_of_lt_of_le hk.names_lt (caches_size_le op)
  names := names_apply hleaves hk.names
  keys := by
    intro k hkey
    rw [properties_apply hleaves] at hkey
    obtain ⟨x, hi⟩ := hk.keys k hkey
    exact ⟨x, op.extends_apply s _ _ _ hi⟩
  distinct := by
    rw [properties_apply hleaves]
    exact hk.distinct

/-- Only the live atom of a text can be the name of the property of that text. -/
theorem name_eq {k : Atom} {x : String} (hi : s.heap.Is k d.table x)
    (hlive : s.heap.holders k ≠ 0) {p : Atom × Atom} (hp : p ∈ s.properties d.style)
    (hx : s.heap.text p.1 = x) : p.1 = k := by
  obtain ⟨y, hy⟩ := hk.keys p.1 (List.mem_map_of_mem hp)
  have hyx : y = x := by rw [← hy.text_eq, hx]
  exact hk.sound.unique p.1 k d.table x (hyx ▸ hy) hi
    (hk.sound.live (Holdings.mem_held_of_property hp).1) hlive

/-- A property is found by the live atom of its text. -/
theorem shown_eq {k : Atom} {x : String} (hi : s.heap.Is k d.table x)
    (hlive : s.heap.holders k ≠ 0) :
    shown d s x = (((s.properties d.style).value? k).map s.heap.text).getD "" := by
  rw [shown, ← hi.text_eq]
  exact Properties.shown_eq fun p hp hx => hk.name_eq hi hlive hp (hx.trans hi.text_eq)

/-- A name is resolved to the atom of its camel-case form. -/
theorem resolve_is (name : String) :
    (s.resolve d.names d.table name).2.heap.Is (s.resolve d.names d.table name).1 d.table
      (Text.camelCase name) := resolve_is_of_names hk.names name

/-- Taking the value of a property spares the declaration, and the atom taken is its text. -/
theorem takeValue {k : Atom} {x : String} (hi : s.heap.Is k d.table x)
    (hlive : s.heap.holders k ≠ 0) :
    ∃ op : Op, op.Ready s ∧ Leaves d op ∧ (s.takeValue d.style k d.table).2 = op.apply s ∧
      (op.apply s).hand = (s.takeValue d.style k d.table).1 :: s.hand ∧
      ∃ t, (op.apply s).heap.Is (s.takeValue d.style k d.table).1 t (shown d s x) := by
  rw [hk.shown_eq hi hlive, Holdings.takeValue]
  cases hv : (s.properties d.style).value? k with
  | none =>
    -- an unset property is read as the empty atom of the table
    obtain ⟨his, hhand⟩ := hk.sound.takeEmpty_is d.table
    exact ⟨.takeEmpty d.table, trivial, trivial, rfl, hhand, d.table, his⟩
  | some v =>
    have hheld := (Holdings.mem_held_of_property (Properties.mem_of_value? hv)).2
    obtain ⟨t, y, hy⟩ := Atom.Heap.exists_is_of_holders_ne_zero (hk.sound.live hheld)
    refine ⟨.grab v, hheld, trivial, rfl, rfl, t, Atom.Heap.is_retain.mpr ?_⟩
    rw [Option.map_some, Option.getD_some, hy.text_eq]
    exact hy

/-! ### Changing a property -/

theorem assign {k v : Atom} (hi : ∃ x, s.heap.Is k d.table x) (hkey : k ∈ s.hand)
    (hv : v ∈ s.hand.erase k) : Keyed d (s.assign d.style k v) where
  sound := hk.sound.assign hk.style_lt hkey hv
  style_lt := Nat.lt_of_lt_of_le hk.style_lt (styles_size_le (.assign d.style k v))
  names_lt := Nat.lt_of_lt_of_le hk.names_lt (caches_size_le (.assign d.style k v))
  names := by
    intro p hp
    rw [cache_congr (assign_places s d.style k v).2] at hp
    exact (Op.assign d.style k v).extends_apply s _ _ _ (hk.names p hp)
  keys := by
    intro n hn
    rw [properties_assign s hk.style_lt, Properties.names_put] at hn
    have hmem : n ∈ (s.properties d.style).map (·.1) ∨ n = k := by
      split at hn
      · exact Or.inl hn
      · simpa using List.mem_append.mp hn
    have hn : ∃ x, s.heap.Is n d.table x := by
      rcases hmem with hmem | rfl
      · exact hk.keys n hmem
      · exact hi
    exact hn.imp fun x hx => (Op.assign d.style k v).extends_apply s _ _ _ hx
  distinct := by
    rw [properties_assign s hk.style_lt, Properties.names_put]
    split
    next => exact hk.distinct
    next hn =>
      refine List.nodup_append.mpr ⟨hk.distinct, List.pairwise_singleton _ k, fun a ha b hb he => ?_⟩
      rw [List.mem_singleton.mp hb] at he
      exact hn (he ▸ ha)

/-- Setting a property by the atom of its text sets it by its text. -/
theorem shown_assign {k v : Atom} {x y : String} {t : TableId} (hi : s.heap.Is k d.table x)
    (hiv : s.heap.Is v t y) (hkey : k ∈ s.hand) (hv : v ∈ s.hand.erase k) (x' : String) :
    shown d (s.assign d.style k v) x' = if x' = x then y else shown d s x' := by
  have hk' := hk.assign ⟨x, hi⟩ hkey hv
  have hextends : s.heap.Extends (s.assign d.style k v).heap :=
    (Op.assign d.style k v).extends_apply s
  have hproperties := properties_assign s hk.style_lt k v
  by_cases hx : x' = x
  · -- the property that was set; its name is live, since the declaration now holds it
    have hvalue : ((s.assign d.style k v).properties d.style).value? k = some v := by
      rw [hproperties, Properties.value?_put_self]
    have hlive := hk'.sound.live
      (Holdings.mem_held_of_property (Properties.mem_of_value? hvalue)).1
    have hi' : (s.assign d.style k v).heap.Is k d.table x := hextends _ _ _ hi
    have hiv' : (s.assign d.style k v).heap.Is v t y := hextends _ _ _ hiv
    rw [if_pos hx, hx, hk'.shown_eq hi' hlive, hvalue, Option.map_some, Option.getD_some,
      hiv'.text_eq]
  · -- any other text finds what it found before, and these atoms have kept their texts
    have htext : (s.assign d.style k v).heap.text k ≠ x' := by
      rw [(hextends _ _ _ hi).text_eq]
      exact Ne.symm hx
    rw [if_neg hx, shown, hproperties, Properties.shown_put_of_ne htext]
    refine Properties.shown_congr (fun p hp => ?_) x'
    obtain ⟨hname, hval⟩ := Holdings.mem_held_of_property hp
    exact ⟨hk.sound.text_apply (.assign d.style k v) hname,
      hk.sound.text_apply (.assign d.style k v) hval⟩

theorem properties_unassign {k v : Atom} (hv : (s.properties d.style).value? k = some v) :
    (s.unassign d.style k).2.properties d.style = (s.properties d.style).erase k := by
  rw [Holdings.unassign]
  dsimp only
  rw [hv]
  exact properties_setProperties_self s hk.style_lt _

theorem unassign {k v : Atom} (hv : (s.properties d.style).value? k = some v) :
    Keyed d (s.unassign d.style k).2 where
  sound := hk.sound.unassign d.style k
  style_lt := Nat.lt_of_lt_of_le hk.style_lt (styles_size_le (.unassign d.style k))
  names_lt := Nat.lt_of_lt_of_le hk.names_lt (caches_size_le (.unassign d.style k))
  names := by
    intro p hp
    rw [cache_congr (caches_unassign s d.style k)] at hp
    exact (Op.unassign d.style k).extends_apply s _ _ _ (hk.names p hp)
  keys := by
    intro n hn
    rw [hk.properties_unassign hv, Properties.names_erase] at hn
    obtain ⟨x, hx⟩ := hk.keys n (List.mem_of_mem_erase hn)
    exact ⟨x, (Op.unassign d.style k).extends_apply s _ _ _ hx⟩
  distinct := by
    rw [hk.properties_unassign hv, Properties.names_erase]
    exact hk.distinct.erase k

/-- Removing a property by its name removes it by the text of its name. -/
theorem shown_unassign {k v : Atom} {x : String} (hi : s.heap.Is k d.table x)
    (hv : (s.properties d.style).value? k = some v) (x' : String) :
    shown d (s.unassign d.style k).2 x' = if x' = x then "" else shown d s x' := by
  have hextends : s.heap.Extends (s.unassign d.style k).2.heap :=
    (Op.unassign d.style k).extends_apply s
  have hmem := Properties.mem_of_value? hv
  have hlive := hk.sound.live (Holdings.mem_held_of_property hmem).1
  have htext : ∀ {a}, a ∈ s.held → (s.unassign d.style k).2.heap.text a = s.heap.text a :=
    fun ha => hk.sound.text_apply (.unassign d.style k) ha
  rw [shown, hk.properties_unassign hv]
  by_cases hx : x' = x
  · -- a property that still showed under this text would have had the same name
    rw [if_pos hx]
    refine Properties.shown_eq_empty fun p hp hp' => ?_
    have hname : p.1 ∈ ((s.properties d.style).map (·.1)).erase k := by
      rw [← Properties.names_erase]
      exact List.mem_map_of_mem hp
    obtain ⟨q, hq, hqp⟩ := List.mem_map.mp (List.mem_of_mem_erase hname)
    have hq' : s.heap.text q.1 = x := by
      rw [hqp, ← htext (hqp ▸ (Holdings.mem_held_of_property hq).1), hp', hx]
    have hqk := hk.name_eq hi hlive hq hq'
    rw [← hqp, hqk] at hname
    exact hk.distinct.not_mem_erase hname
  · have hne : (s.unassign d.style k).2.heap.text k ≠ x' := by
      rw [(hextends _ _ _ hi).text_eq]
      exact Ne.symm hx
    rw [if_neg hx, Properties.shown_erase_of_ne hne]
    refine Properties.shown_congr (fun p hp => ?_) x'
    obtain ⟨hname, hval⟩ := Holdings.mem_held_of_property hp
    exact ⟨htext hname, htext hval⟩

end Keyed
end ScriptHost.Style

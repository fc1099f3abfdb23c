/-
Copying from a declaration of another context.

Atoms of two tables are never the same atom, whatever their texts.  A declaration that copies one
of another context takes over the atoms of the other table, while it goes on finding properties by
atoms of its own.  `Mixed` is a declaration with such properties.

* `Mixed.apply` — operations that leave the declaration alone keep it so;
* `Mixed.lookup_eq` — by no name does it find what it has copied;
* `copy_foreign` — so it has more properties and reads as before, and a property that is set under
  a name that it has copied is one more of that name.
-/
import ScriptHost.Proofs.Style.Refinement

namespace ScriptHost.Style

open Holdings (Op)

namespace Properties

variable {ps qs : Properties} {k : Atom}

theorem put_of_not_mem (hk : k ∉ ps.map (·.1)) (v : Atom) : ps.put k v = ps ++ [(k, v)] := by
  induction ps with
  | nil => rfl
  | cons p ps ih =>
    rw [List.map_cons, List.mem_cons, not_or] at hk
    rw [put, if_neg (Ne.symm hk.1), ih hk.2]
    rfl

theorem value?_append_of_not_mem (hk : k ∉ qs.map (·.1)) (ps : Properties) :
    value? (ps ++ qs) k = ps.value? k := by
  rw [value?, List.lookup_append, lookup_eq_none_iff_not_mem.mpr hk, Option.or_none]
  rfl

theorem texts_append (text : Atom → String) (ps qs : Properties) :
    texts text (ps ++ qs) = texts text ps ++ texts text qs := List.map_append

end Properties

/-- Properties whose names are new come at the end, and no other declaration changes. -/
theorem properties_copyProperties {s : Holdings} {i : StyleId} {ps : Properties}
    (hlt : i < s.styles.size) (hnew : ∀ p ∈ ps, p.1 ∉ (s.properties i).map (·.1))
    (hnodup : (ps.map (·.1)).Nodup) :
    let t := ps.foldl (fun s (n, v) => s.copyProperty i n v) s
    t.properties i = s.properties i ++ ps ∧ (∀ j, j ≠ i → t.properties j = s.properties j) ∧
      t.caches = s.caches := by
  induction ps generalizing s with
  | nil => exact ⟨(List.append_nil _).symm, fun _ _ => rfl, rfl⟩
  | cons p ps ih =>
    obtain ⟨n, v⟩ := p
    rw [List.forall_mem_cons] at hnew
    obtain ⟨hn, hrest⟩ := List.nodup_cons.mp hnodup
    obtain ⟨hstyles, hcaches⟩ := copyProperty_places s i n v
    have hproperties : (s.copyProperty i n v).properties i = s.properties i ++ [(n, v)] := by
      rw [Holdings.properties, hstyles, Array.getElem?_setIfInBounds_self_of_lt hlt]
      exact Properties.put_of_not_mem hnew.1 v
    have hnew' : ∀ p ∈ ps, p.1 ∉ ((s.copyProperty i n v).properties i).map (·.1) := by
      intro p hp hmem
      rw [hproperties, List.map_append, List.mem_append] at hmem
      rcases hmem with hmem | hmem
      · exact hnew.2 p hp hmem
      · exact hn (List.mem_singleton.mp hmem ▸ List.mem_map_of_mem hp)
    have hlt' : i < (s.copyProperty i n v).styles.size :=
      Nat.lt_of_lt_of_le hlt (styles_size_le (.copyProperty i n v))
    obtain ⟨hall, hother, hsame⟩ := ih hlt' hnew' hrest
    refine ⟨hall.trans ?_, fun j hj => (hother j hj).trans ?_, hsame.trans hcaches⟩
    · rw [hproperties, List.append_assoc]
      rfl
    · have hleaves : Leaves ⟨j, 0, 0, 0⟩ (.copyProperty i n v) := Ne.symm hj
      exact properties_apply hleaves

/-- A declaration that has, after some properties of its own, others whose names are atoms of
other tables. -/
structure Mixed (F : Family) (i : StyleId) (own foreign : Texts) (s : Holdings) : Prop where
  sound : s.Sound
  names_lt : F.names < s.caches.size
  names : ∀ p ∈ s.cache F.names, s.heap.Is p.2 F.table (Text.camelCase p.1)
  parts : ∃ ps qs, s.properties i = ps ++ qs ∧
    Properties.texts s.heap.text ps = own ∧ Properties.texts s.heap.text qs = foreign ∧
    (∀ p ∈ ps, ∃ x, s.heap.Is p.1 F.table x) ∧ ∀ p ∈ qs, ∃ t x, t ≠ F.table ∧ s.heap.Is p.1 t x

namespace Mixed

variable {F : Family} {i : StyleId} {own foreign : Texts} {s : Holdings} {k : Atom} {x : String}

theorem sheet_eq (hm : Mixed F i own foreign s) : sheet s i = own ++ foreign := by
  obtain ⟨ps, qs, hsplit, rfl, rfl, -, -⟩ := hm.parts
  rw [sheet, hsplit, Properties.texts_append]

theorem apply (hm : Mixed F i own foreign s) (op : Op) (hready : op.Ready s)
    (hleaves : Leaves (F.declaration i) op) : Mixed F i own foreign (op.apply s) := by
  obtain ⟨ps, qs, hsplit, hown, hforeign, hps, hqs⟩ := hm.parts
  have hextends := op.extends_apply s
  refine ⟨op.sound_apply hm.sound hready, Nat.lt_of_lt_of_le hm.names_lt (caches_size_le op),
    names_apply hleaves hm.names, ps, qs, (properties_apply hleaves).trans hsplit, ?_, ?_, ?_, ?_⟩
  · rw [texts_apply hm.sound op fun p hp => hsplit ▸ List.mem_append_left qs hp, hown]
  · rw [texts_apply hm.sound op fun p hp => hsplit ▸ List.mem_append_right ps hp, hforeign]
  · intro p hp
    obtain ⟨y, hy⟩ := hps p hp
    exact ⟨y, hextends _ _ _ hy⟩
  · intro p hp
    obtain ⟨t, y, ht, hy⟩ := hqs p hp
    exact ⟨t, y, ht, hextends _ _ _ hy⟩

/-- Looking up an atom of the own table is looking up its text in the own part. -/
theorem lookup_eq (hm : Mixed F i own foreign s) (hx : s.heap.Is k F.table x)
    (hlive : s.heap.holders k ≠ 0) :
    ((s.properties i).value? k).map s.heap.text = own.lookup x := by
  obtain ⟨ps, qs, hsplit, hown, -, hps, hqs⟩ := hm.parts
  have hforeign : k ∉ qs.map (·.1) := by
    intro hmem
    obtain ⟨p, hp, rfl⟩ := List.mem_map.mp hmem
    obtain ⟨t, y, ht, hy⟩ := hqs p hp
    exact ht (hy.eq hx).1
  have hunique : ∀ p ∈ ps, s.heap.text p.1 = s.heap.text k → p.1 = k := by
    intro p hp htext
    obtain ⟨y, hy⟩ := hps p hp
    have hyx : y = x := by rw [← hy.text_eq, htext, hx.text_eq]
    have hmem : p ∈ s.properties i := hsplit ▸ List.mem_append_left qs hp
    exact hm.sound.unique p.1 k F.table x (hyx ▸ hy) hx
      (hm.sound.live (Holdings.mem_held_of_property hmem).1) hlive
  rw [hsplit, Properties.value?_append_of_not_mem hforeign, ← hown, ← hx.text_eq]
  exact (Properties.lookup_texts hunique).symm

end Mixed

section Scenes

variable {ε : Type} {F F' : Family} {S S' : Sheets} {own foreign : Texts} {s : Scene ε}
  {i j : StyleId} {name value : String}

/-- Where atoms are what they were, declarations have the texts that they had. -/
theorem Kept.texts_eq {s : Holdings} {h : Atom.Heap} (hk : Kept F S s) (hi : i ∈ F)
    (hextends : s.heap.Extends h) : Properties.texts h.text (s.properties i) = S i := by
  rw [← hk.sheets i hi]
  refine Properties.texts_congr fun p hp => ?_
  obtain ⟨⟨x, hx⟩, y, hy⟩ := hk.atoms i hi p hp
  exact ⟨(hextends _ _ _ hx).text_eq.trans hx.text_eq.symm,
    (hextends _ _ _ hy).text_eq.trans hy.text_eq.symm⟩

/-- What is copied from another context is none of the own properties. -/
theorem Kept.mixed {s : Holdings} (hk : Kept F S s) (hk' : Kept F' S' s)
    (htable : F.table ≠ F'.table) (hi : i ∈ F) (hj : j ∈ F') (hne : i ≠ j)
    (hlt : i < s.styles.size) :
    Mixed F i (S i) (S' j) (s.copyStyle i j) ∧ sheet (s.copyStyle i j) j = S' j := by
  have hwhole : Holdings.Whole s (s.copyStyle i j) :=
    Holdings.copyProperties_whole hne hlt fun _ hp => hp
  have hextends := hwhole.steps.extends_heap
  have hnew : ∀ p ∈ s.properties j, p.1 ∉ (s.properties i).map (·.1) := by
    intro p hp hmem
    obtain ⟨q, hq, hqp⟩ := List.mem_map.mp hmem
    obtain ⟨⟨x, hx⟩, -⟩ := hk.atoms i hi q hq
    obtain ⟨⟨y, hy⟩, -⟩ := hk'.atoms j hj p hp
    exact htable (hx.eq (hqp ▸ hy)).1
  obtain ⟨hproperties, hother, hcaches⟩ :=
    properties_copyProperties hlt hnew (hk'.distinct j hj)
  have hsource : (s.copyStyle i j).properties j = s.properties j := hother j hne.symm
  refine ⟨⟨hwhole.steps.sound hk.sound, ?_, ?_, s.properties i, s.properties j, hproperties,
    hk.texts_eq hi hextends, hk'.texts_eq hj hextends, ?_, ?_⟩, ?_⟩
  · exact (congrArg Array.size hcaches).symm ▸ hk.names_lt
  · intro p hp
    exact hextends _ _ _ (hk.names p (cache_congr hcaches F.names ▸ hp))
  · intro p hp
    obtain ⟨x, hx⟩ := (hk.atoms i hi p hp).1
    exact ⟨x, hextends _ _ _ hx⟩
  · intro p hp
    obtain ⟨x, hx⟩ := (hk'.atoms j hj p hp).1
    exact ⟨F'.table, x, htable.symm, hextends _ _ _ hx⟩
  · rw [sheet, hsource]
    exact hk'.texts_eq hj hextends

/-- A name is looked up in the own part only. -/
theorem Mixed.get (hm : Mixed F i own foreign s.holdings)
    (sink : ContextId → Scene ε → Scene ε) (name : String) :
    (s.make F sink (.get i name)).1 = .text (own.get (Text.camelCase name)) := by
  obtain ⟨op, -, -, -, -, htext⟩ :=
    Scene.get_steps hm.sound (d := F.declaration i) hm.names_lt sink name
  have hm₁ : Mixed F i own foreign (s.perform (.resolve F.names F.table name)).holdings :=
    hm.apply (.resolve F.names F.table name) hm.names_lt fun _ => rfl
  have hkey : (s.holdings.resolve F.names F.table name).1 ∈
      (s.perform (.resolve F.names F.table name)).holdings.hand := List.mem_cons_self
  have hlookup := hm₁.lookup_eq (resolve_is_of_names hm.names name)
    (hm₁.sound.live (Holdings.mem_held_of_hand hkey))
  exact congrArg Reply.text (htext.trans (congrArg (·.getD "") hlookup))

/-- What setting comes to once the atoms of name and value are in the hand. -/
theorem Mixed.of_setOutcome {key v : Atom} {x : String} {r : Except Fault Unit × Scene ε}
    (hm : Mixed F i own foreign s.holdings) (hlt : i < s.holdings.styles.size)
    (hopen : s.queue.closed = false) (hx : s.holdings.heap.Is key F.table x)
    (hy : s.holdings.heap.Is v F.table value) (hkey : key ∈ s.holdings.hand)
    (hnew : x ∉ own.map (·.1))
    (h : Desk.SetOutcome (Scene.desk Scene.quiet) (F.declaration i) key v s r) :
    sheet r.2.holdings i = own ++ foreign ++ [(x, value)] := by
  have hunset : (s.holdings.properties i).value? key = none := by
    have hlookup := hm.lookup_eq hx (hm.sound.live (Holdings.mem_held_of_hand hkey))
    rw [lookup_eq_none_iff_not_mem.mpr hnew] at hlookup
    exact Option.map_eq_none_iff.mp hlookup
  cases h with
  | same hset => exact absurd (hunset.symm.trans hset) (by simp)
  | @refused s₃ fault _ happend =>
    have hclosed := (Scene.closed_of_append happend).1
    exact absurd (hopen.symm.trans hclosed) (by simp)
  | @made s₃ _ happend =>
    have hsnd : ((Scene.outlet Scene.quiet).append _ s).2 = s₃ := congrArg Prod.snd happend
    have hholdings : s₃.holdings = s.holdings :=
      hsnd ▸ (Scene.stream_append_of_open hopen _).2
    have hextends := (Op.assign i key v).extends_apply s.holdings
    show sheet (s₃.holdings.assign i key v) i = _
    rw [hholdings, sheet, properties_assign s.holdings hlt,
      Properties.put_of_not_mem (lookup_eq_none_iff_not_mem.mp hunset), Properties.texts_append,
      ← hm.sheet_eq, sheet]
    refine congrArg₂ (· ++ ·) (texts_apply hm.sound (.assign i key v) fun _ hp => hp) ?_
    exact congrArg₂ (fun a b => [(a, b)]) (hextends _ _ _ hx).text_eq (hextends _ _ _ hy).text_eq

/-- A property whose name is not in the own part is added at the end. -/
theorem Mixed.set (hm : Mixed F i own foreign s.holdings) (hlt : i < s.holdings.styles.size)
    (hopen : s.queue.closed = false) (hnew : Text.camelCase name ∉ own.map (·.1))
    (value : String) :
    sheet (s.make F Scene.quiet (.set i name value)).2.holdings i =
      own ++ foreign ++ [(Text.camelCase name, value)] := by
  obtain ⟨key, s₁, v, s₂, hkey, hvalue, houtcome⟩ :=
    (Scene.desk Scene.quiet).set_outcome (F.declaration i) name value s
  obtain ⟨rfl, rfl⟩ := Prod.mk.inj hkey
  obtain ⟨rfl, rfl⟩ := Prod.mk.inj hvalue
  have hm₁ : Mixed F i own foreign (s.perform (.resolve F.names F.table name)).holdings :=
    hm.apply (.resolve F.names F.table name) hm.names_lt fun _ => rfl
  have hm₂ : Mixed F i own foreign
      ((s.perform (.resolve F.names F.table name)).perform (.take F.table value)).holdings :=
    hm₁.apply (.take F.table value) trivial trivial
  have hx := (Op.take F.table value).extends_apply _ _ _ _ (resolve_is_of_names hm.names name)
  have hy := Atom.Heap.intern_is (s.perform (.resolve F.names F.table name)).holdings.heap
    F.table value
  exact hm₂.of_setOutcome hlt hopen hx hy (List.mem_cons_of_mem _ List.mem_cons_self) hnew houtcome

/-- **Copying between contexts.**  A declaration that copies one of another context has its
properties in addition, and the source is unchanged.  It reads as before under every name, also
under those that it has copied; and setting one of these, if it had no such property itself, adds
a second property of that name. -/
theorem copy_foreign (hk : Kept F S s.holdings) (hk' : Kept F' S' s.holdings)
    (htable : F.table ≠ F'.table) (hi : i ∈ F) (hj : j ∈ F') (hne : i ≠ j)
    (hlt : i < s.holdings.styles.size) (sink : ContextId → Scene ε → Scene ε) :
    let t := (s.make F sink (.copy i j)).2
    sheet t.holdings i = S i ++ S' j ∧ sheet t.holdings j = S' j ∧
      (∀ name, (t.make F sink (.get i name)).1 = .text ((S i).get (Text.camelCase name))) ∧
      ∀ name value, Text.camelCase name ∉ (S i).map (·.1) → s.queue.closed = false →
        sheet (t.make F Scene.quiet (.set i name value)).2.holdings i =
          S i ++ S' j ++ [(Text.camelCase name, value)] := by
  obtain ⟨hm, hsource⟩ := hk.mixed hk' htable hi hj hne hlt
  have hlt' : i < (s.holdings.copyStyle i j).styles.size :=
    Nat.lt_of_lt_of_le hlt
      (Holdings.copyProperties_whole hne hlt fun _ hp => hp).steps.styles_size_le
  refine ⟨hm.sheet_eq, hsource, fun name => ?_, fun name value hnew hopen => ?_⟩
  · exact Mixed.get (s := (s.make F sink (.copy i j)).2) hm sink name
  · exact Mixed.set (s := (s.make F sink (.copy i j)).2) hm hlt' hopen hnew value

end Scenes

/-! ### A sample -/

/-- The declaration of the first of two contexts. -/
def firstContext : Family where
  table := 0
  names := 0
  target _ := 1
  styles i := i = 0
  nonempty := ⟨0, rfl⟩

/-- The declaration of the second one. -/
def secondContext : Family where
  table := 1
  names := 1
  target _ := 2
  styles i := i = 1
  nonempty := ⟨1, rfl⟩

def blankScene : Scene (List Event × Unit) where
  holdings := ([.newTable [], .newTable [], .newCache, .newCache, .newStyle, .newStyle] : List Op).foldl
    (fun h op => op.apply h) {}
  queue := { context := 2 }
  received := []
  logs := []
  rest := ([], ())

/-- In the second context a property has been set. -/
def paintedScene : Scene (List Event × Unit) :=
  blankScene.call secondContext Scene.quiet (.set 1 "color" "red")

/-- The same, with the queue of the first context. -/
def colourScene : Scene (List Event × Unit) :=
  (Scene.outlet Scene.quiet).setQueue { context := 1 } paintedScene

theorem holdings_setQueue {ε : Type} (s : Scene ε) (q : Queue) :
    ((Scene.outlet Scene.quiet).setQueue q s).holdings = s.holdings := rfl

theorem colourScene_holdings : colourScene.holdings = paintedScene.holdings :=
  holdings_setQueue paintedScene { context := 1 }

/-- The first declaration has copied the second one. -/
def copiedScene : Scene (List Event × Unit) :=
  (colourScene.make firstContext Scene.quiet (.copy 0 1)).2

/-- The second declaration has a colour.  The first one, which has copied it, reads as if it had
none, and sets another one beside it. -/
theorem colourScene_eval :
    (1 < blankScene.holdings.styles.size ∧ 1 < blankScene.holdings.caches.size) ∧
      (colourScene.holdings.cache 0 = [] ∧ colourScene.holdings.properties 0 = [] ∧
        0 < colourScene.holdings.caches.size ∧ 0 < colourScene.holdings.styles.size) ∧
      sheet colourScene.holdings 1 = [("color", "red")] ∧
      (colourScene.make secondContext Scene.quiet (.get 1 "color")).1 = .text "red" ∧
      (copiedScene.make firstContext Scene.quiet (.get 0 "color")).1 = .text "" ∧
      sheet (copiedScene.make firstContext Scene.quiet (.set 0 "color" "blue")).2.holdings 0 =
        [("color", "red"), ("color", "blue")] := by
  decide +kernel

theorem secondContext_kept :
    ∃ S, Kept secondContext S colourScene.holdings ∧ S 1 = [("color", "red")] := by
  obtain ⟨⟨hstyles, hcaches⟩, -, hsheet, -⟩ := colourScene_eval
  have hfresh : Family.Fresh secondContext blankScene :=
    .of_ops (by simp [Op.Ready, Leaves]) rfl hcaches rfl
  have hquiet : Family.Tells secondContext ([1] ++ []) (Scene.quiet (ε := List Event × Unit)) :=
    fun _ s S hk => ⟨[], S, .of_eq hk rfl rfl fun _ => Nat.le_refl _⟩
  obtain ⟨h, S, hset⟩ : ∃ h S, Family.Since secondContext [] blankScene.holdings.hand
      (fun _ => []) blankScene h S paintedScene :=
    Family.since_set hfresh.sheets rfl hstyles List.not_mem_nil hquiet "color" "red"
  rw [colourScene_holdings] at hsheet ⊢
  exact ⟨S, hset.sheets, (hset.sheets.sheets 1 rfl).symm.trans hsheet⟩

theorem firstContext_kept : Kept firstContext (fun _ => []) colourScene.holdings := by
  obtain ⟨-, ⟨hcache, hproperties, hsize, -⟩, -⟩ := colourScene_eval
  obtain ⟨S, hsecond, -⟩ := secondContext_kept
  refine .of_new hsecond.sound hsize (fun p hp => ?_) fun i hi => ?_
  · exact absurd (hcache ▸ hp) List.not_mem_nil
  · obtain rfl : i = 0 := hi
    exact hproperties

theorem colourScene_copy_foreign :
    ∃ S, Kept firstContext (fun _ => []) colourScene.holdings ∧
      Kept secondContext S colourScene.holdings ∧
      sheet copiedScene.holdings 0 = [("color", "red")] ∧
      (copiedScene.make firstContext Scene.quiet (.get 0 "color")).1 = .text "" := by
  obtain ⟨-, ⟨-, -, -, hlt⟩, -⟩ := colourScene_eval
  obtain ⟨S, hsecond, hS⟩ := secondContext_kept
  obtain ⟨hsheet, -, hget, -⟩ := copy_foreign firstContext_kept hsecond (by decide) rfl rfl
    (by decide) hlt Scene.quiet
  rw [hS] at hsheet
  exact ⟨S, firstContext_kept, hsecond, hsheet, hget "color"⟩

/-- What is read is not what was copied, and two properties come to have the same name. -/
theorem copied_colour_not_found :
    (copiedScene.make firstContext Scene.quiet (.get 0 "color")).1 ≠
        (colourScene.make secondContext Scene.quiet (.get 1 "color")).1 ∧
      ¬ ((sheet (copiedScene.make firstContext Scene.quiet
        (.set 0 "color" "blue")).2.holdings 0).map (·.1)).Nodup := by
  obtain ⟨-, -, -, hsource, hcopy, hset⟩ := colourScene_eval
  rw [hsource, hcopy, hset]
  decide

end ScriptHost.Style

/-
The declarations of one context.

Several declarations share the atom table and the name cache of their context, and each finds its
properties by the identity of names.  `Kept` says that all of them are, by their texts, what they
should be, whatever becomes of the atoms of these texts elsewhere:

* `Kept.apply` — operations that leave the declarations alone keep them (`Family.Leaves`);
* `Kept.value?_eq_some_iff` — comparing atoms is comparing texts;
* `Kept.assign`, `Kept.unassign`, `Kept.copyStyle` — setting, removing and copying by atoms is the
  same by texts.

Design notes: a declaration that has not been made yet has no properties, so the family may be any
set of places, and its declarations may be made at any time.
-/
import ScriptHost.Proofs.Style.Texts
import Mathlib.Logic.Function.Basic

namespace ScriptHost.Style

open Holdings (Op)

/-- Declarations of one context, by their places, with the targets that they style. -/
structure Family where
  table : TableId
  names : CacheId
  target : StyleId → Int
  styles : StyleId → Prop
  nonempty : ∃ i, styles i

namespace Family

instance : Membership StyleId Family := ⟨fun F i => F.styles i⟩

def declaration (F : Family) (i : StyleId) : Declaration :=
  { style := i, target := F.target i, table := F.table, names := F.names }

/-- The operation changes none of the declarations, and it uses the name cache of the context only
with the table of the context. -/
def Leaves (F : Family) (op : Op) : Prop := ∀ i ∈ F, Style.Leaves (F.declaration i) op

end Family

/-- A declaration by its texts. -/
def sheet (s : Holdings) (i : StyleId) : Texts := Properties.texts s.heap.text (s.properties i)

/-- What declarations should be. -/
abbrev Sheets := StyleId → Texts

/-- The declarations of a family are by their texts what they should be, and their names and values
are atoms of the table of their context. -/
structure Kept (F : Family) (S : Sheets) (s : Holdings) : Prop where
  sound : s.Sound
  names_lt : F.names < s.caches.size
  names : ∀ p ∈ s.cache F.names, s.heap.Is p.2 F.table (Text.camelCase p.1)
  atoms : ∀ i ∈ F, ∀ p ∈ s.properties i,
    (∃ x, s.heap.Is p.1 F.table x) ∧ ∃ y, s.heap.Is p.2 F.table y
  distinct : ∀ i ∈ F, ((s.properties i).map (·.1)).Nodup
  sheets : ∀ i ∈ F, sheet s i = S i

namespace Properties

variable {ps : Properties} {k v : Atom} {p : Atom × Atom}

theorem mem_put (h : p ∈ ps.put k v) : p ∈ ps ∨ p = (k, v) := by
  induction ps with
  | nil => exact Or.inr (List.mem_singleton.mp h)
  | cons q ps ih =>
    obtain ⟨n, v'⟩ := q
    by_cases hn : n = k
    · subst hn
      rw [put, if_pos rfl] at h
      rcases List.mem_cons.mp h with rfl | h
      · exact Or.inr rfl
      · exact Or.inl (List.mem_cons_of_mem _ h)
    · rw [put, if_neg hn] at h
      rcases List.mem_cons.mp h with rfl | h
      · exact Or.inl List.mem_cons_self
      · exact (ih h).imp_left (List.mem_cons_of_mem _)

theorem mem_of_mem_erase (h : p ∈ ps.erase k) : p ∈ ps := by
  induction ps with
  | nil => exact h
  | cons q ps ih =>
    obtain ⟨n, v'⟩ := q
    by_cases hn : n = k
    · rw [erase, if_pos hn] at h
      exact List.mem_cons_of_mem _ h
    · rw [erase, if_neg hn] at h
      rcases List.mem_cons.mp h with rfl | h
      · exact List.mem_cons_self
      · exact List.mem_cons_of_mem _ (ih h)

theorem nodup_put (h : (ps.map (·.1)).Nodup) (k v : Atom) : ((ps.put k v).map (·.1)).Nodup := by
  rw [names_put]
  split
  next => exact h
  next hn =>
    refine List.nodup_append.mpr ⟨h, List.pairwise_singleton _ k, fun a ha b hb he => ?_⟩
    rw [List.mem_singleton.mp hb] at he
    exact hn (he ▸ ha)

end Properties

theorem copyProperty_places (s : Holdings) (i : StyleId) (name value : Atom) :
    (s.copyProperty i name value).styles =
        s.styles.setIfInBounds i (some ((s.properties i).put name value)) ∧
      (s.copyProperty i name value).caches = s.caches := by
  rw [Holdings.copyProperty]
  split
  · exact ⟨rfl, rfl⟩
  · exact ⟨rfl, rfl⟩

theorem unassign_places {s : Holdings} {i : StyleId} {name v : Atom}
    (hv : (s.properties i).value? name = some v) :
    (s.unassign i name).2.styles =
        s.styles.setIfInBounds i (some ((s.properties i).erase name)) ∧
      (s.unassign i name).2.caches = s.caches := by
  rw [Holdings.unassign]
  dsimp only
  rw [hv]
  exact ⟨rfl, rfl⟩

/-- Atoms that are held keep their texts, so properties keep theirs. -/
theorem texts_apply {s : Holdings} {i : StyleId} {ps : Properties} (hs : s.Sound) (op : Op)
    (hps : ∀ p ∈ ps, p ∈ s.properties i) :
    Properties.texts (op.apply s).heap.text ps = Properties.texts s.heap.text ps := by
  refine Properties.texts_congr fun p hp => ?_
  obtain ⟨hname, hvalue⟩ := Holdings.mem_held_of_property (hps p hp)
  exact ⟨hs.text_apply op hname, hs.text_apply op hvalue⟩

/-- Taking the value of a property leaves every declaration alone, and the atom taken is its text;
for a property that is not set it is the empty text. -/
theorem takeValue_text {s : Holdings} (hs : s.Sound) (i : StyleId) (k : Atom) (t : TableId) :
    ∃ op : Op, op.Ready s ∧ (∀ d, Leaves d op) ∧ (s.takeValue i k t).2 = op.apply s ∧
      (op.apply s).hand = (s.takeValue i k t).1 :: s.hand ∧
      (op.apply s).heap.text (s.takeValue i k t).1 =
        (((s.properties i).value? k).map s.heap.text).getD "" := by
  rw [Holdings.takeValue]
  cases hv : (s.properties i).value? k with
  | none =>
    obtain ⟨his, hhand⟩ := hs.takeEmpty_is t
    exact ⟨.takeEmpty t, trivial, fun _ => trivial, rfl, hhand, his.text_eq⟩
  | some v =>
    have hheld := (Holdings.mem_held_of_property (Properties.mem_of_value? hv)).2
    exact ⟨.grab v, hheld, fun _ => trivial, rfl, rfl, hs.text_apply (.grab v) hheld⟩

namespace Kept

variable {F : Family} {S : Sheets} {s : Holdings} {i : StyleId} {op : Op} {k v : Atom} {x y : String}

/-- Declarations that nobody has touched are empty. -/
theorem of_new (hs : s.Sound) (hlt : F.names < s.caches.size)
    (hcache : ∀ p ∈ s.cache F.names, s.heap.Is p.2 F.table (Text.camelCase p.1))
    (hnew : ∀ i ∈ F, s.properties i = []) : Kept F (fun _ => []) s where
  sound := hs
  names_lt := hlt
  names := hcache
  atoms i hi p hp := absurd (hnew i hi ▸ hp) List.not_mem_nil
  distinct i hi := by
    rw [hnew i hi]
    exact List.nodup_nil
  sheets i hi := by
    rw [sheet, hnew i hi]
    rfl

/-! ### Texts and atoms -/

/-- A live atom of the table is the only name of its text. -/
theorem name_eq (hk : Kept F S s) (hi : i ∈ F) (hx : s.heap.Is k F.table x)
    (hlive : s.heap.holders k ≠ 0) :
    ∀ p ∈ s.properties i, s.heap.text p.1 = s.heap.text k → p.1 = k := by
  intro p hp htext
  obtain ⟨⟨x', hx'⟩, -⟩ := hk.atoms i hi p hp
  have hxx' : x' = x := by rw [← hx'.text_eq, htext, hx.text_eq]
  exact hk.sound.unique p.1 k F.table x (hxx' ▸ hx') hx
    (hk.sound.live (Holdings.mem_held_of_property hp).1) hlive

/-- So is it the only value. -/
theorem value_eq (hk : Kept F S s) (hi : i ∈ F) (hy : s.heap.Is v F.table y)
    (hlive : s.heap.holders v ≠ 0) :
    ∀ p ∈ s.properties i, s.heap.text p.2 = s.heap.text v → p.2 = v := by
  intro p hp htext
  obtain ⟨-, y', hy'⟩ := hk.atoms i hi p hp
  have hyy' : y' = y := by rw [← hy'.text_eq, htext, hy.text_eq]
  exact hk.sound.unique p.2 v F.table y (hyy' ▸ hy') hy
    (hk.sound.live (Holdings.mem_held_of_property hp).2) hlive

/-- Looking up the live atom of a text is looking up the text. -/
theorem lookup_eq (hk : Kept F S s) (hi : i ∈ F) (hx : s.heap.Is k F.table x)
    (hlive : s.heap.holders k ≠ 0) :
    (S i).lookup x = ((s.properties i).value? k).map s.heap.text := by
  rw [← hk.sheets i hi, sheet, ← hx.text_eq]
  exact Properties.lookup_texts (hk.name_eq hi hx hlive)

/-- Comparing a value by its atom is comparing it by its text. -/
theorem value?_eq_some_iff (hk : Kept F S s) (hi : i ∈ F) (hx : s.heap.Is k F.table x)
    (hlive : s.heap.holders k ≠ 0) (hy : s.heap.Is v F.table y) (hlive' : s.heap.holders v ≠ 0) :
    (s.properties i).value? k = some v ↔ (S i).lookup x = some y := by
  rw [hk.lookup_eq hi hx hlive, Option.map_eq_some_iff]
  constructor
  · exact fun h => ⟨v, h, hy.text_eq⟩
  · rintro ⟨v', hv', htext⟩
    have hmem := Properties.mem_of_value? hv'
    have hvv : v' = v := hk.value_eq hi hy hlive' (k, v') hmem (htext.trans hy.text_eq.symm)
    rwa [hvv] at hv'

/-- No two names of a declaration have the same text. -/
theorem nodup (hk : Kept F S s) (hi : i ∈ F) : ((S i).map (·.1)).Nodup := by
  rw [← hk.sheets i hi, sheet, Properties.names_texts, List.Nodup, List.pairwise_map,
    List.pairwise_map]
  have hdistinct := hk.distinct i hi
  rw [List.Nodup, List.pairwise_map] at hdistinct
  refine hdistinct.imp_of_mem fun {p q} hp hq hne htext => hne ?_
  obtain ⟨⟨x, hx⟩, -⟩ := hk.atoms i hi q hq
  exact hk.name_eq hi hx (hk.sound.live (Holdings.mem_held_of_property hq).1) p hp htext

/-! ### Operations -/

theorem sheet_apply (hs : s.Sound) (h : (op.apply s).properties i = s.properties i) :
    sheet (op.apply s) i = sheet s i := by
  rw [sheet, sheet, h]
  exact texts_apply hs op fun _ hp => hp

theorem apply (hk : Kept F S s) (op : Op) (hready : op.Ready s) (hleaves : F.Leaves op) :
    Kept F S (op.apply s) := by
  have hproperties : ∀ i ∈ F, (op.apply s).properties i = s.properties i :=
    fun i hi => properties_apply (hleaves i hi)
  obtain ⟨j, hj⟩ := F.nonempty
  refine ⟨op.sound_apply hk.sound hready, Nat.lt_of_lt_of_le hk.names_lt (caches_size_le op),
    names_apply (hleaves j hj) hk.names, fun i hi p hp => ?_, fun i hi => ?_, fun i hi => ?_⟩
  · rw [hproperties i hi] at hp
    obtain ⟨⟨x, hx⟩, y, hy⟩ := hk.atoms i hi p hp
    exact ⟨⟨x, op.extends_apply s _ _ _ hx⟩, y, op.extends_apply s _ _ _ hy⟩
  · rw [hproperties i hi]
    exact hk.distinct i hi
  · rw [sheet_apply hk.sound (hproperties i hi)]
    exact hk.sheets i hi

/-- An operation that replaces the properties of one declaration, by atoms of the table. -/
theorem change (op : Op) {ps : Properties} {ts : Texts} (hk : Kept F S s) (hlt : i < s.styles.size)
    (hready : op.Ready s) (hstyles : (op.apply s).styles = s.styles.setIfInBounds i (some ps))
    (hcaches : (op.apply s).caches = s.caches)
    (hatoms : ∀ p ∈ ps, (∃ x, s.heap.Is p.1 F.table x) ∧ ∃ y, s.heap.Is p.2 F.table y)
    (hdistinct : (ps.map (·.1)).Nodup)
    (hsheet : Properties.texts (op.apply s).heap.text ps = ts) :
    Kept F (Function.update S i ts) (op.apply s) := by
  have hself : (op.apply s).properties i = ps := by
    rw [Holdings.properties, hstyles, Array.getElem?_setIfInBounds_self_of_lt hlt]
    rfl
  have hother : ∀ j, j ≠ i → (op.apply s).properties j = s.properties j := by
    intro j hj
    rw [Holdings.properties, hstyles, Array.getElem?_setIfInBounds_ne (Ne.symm hj)]
    rfl
  refine ⟨op.sound_apply hk.sound hready, Nat.lt_of_lt_of_le hk.names_lt (caches_size_le op),
    fun p hp => ?_, fun j hj p hp => ?_, fun j hj => ?_, fun j hj => ?_⟩
  · rw [cache_congr hcaches] at hp
    exact op.extends_apply s _ _ _ (hk.names p hp)
  · have hbefore : (∃ x, s.heap.Is p.1 F.table x) ∧ ∃ y, s.heap.Is p.2 F.table y := by
      by_cases hji : j = i
      · subst hji
        exact hatoms p (hself ▸ hp)
      · exact hk.atoms j hj p (hother j hji ▸ hp)
    obtain ⟨⟨x, hx⟩, y, hy⟩ := hbefore
    exact ⟨⟨x, op.extends_apply s _ _ _ hx⟩, y, op.extends_apply s _ _ _ hy⟩
  · by_cases hji : j = i
    · subst hji
      rwa [hself]
    · rw [hother j hji]
      exact hk.distinct j hj
  · by_cases hji : j = i
    · subst hji
      rw [Function.update_self, sheet, hself, hsheet]
    · rw [Function.update_of_ne hji, sheet_apply hk.sound (hother j hji)]
      exact hk.sheets j hj

/-- An operation that puts a property into a declaration. -/
theorem put (op : Op) (hk : Kept F S s) (hi : i ∈ F) (hlt : i < s.styles.size) (hready : op.Ready s)
    (hstyles : (op.apply s).styles = s.styles.setIfInBounds i (some ((s.properties i).put k v)))
    (hcaches : (op.apply s).caches = s.caches) (hx : s.heap.Is k F.table x)
    (hy : s.heap.Is v F.table y) (hlive : s.heap.holders k ≠ 0) :
    Kept F (Function.update S i ((S i).set x y)) (op.apply s) := by
  have hx' := op.extends_apply s _ _ _ hx
  have hy' := op.extends_apply s _ _ _ hy
  refine hk.change op hlt hready hstyles hcaches (fun p hp => ?_)
    (Properties.nodup_put (hk.distinct i hi) k v) ?_
  · rcases Properties.mem_put hp with hp | rfl
    · exact hk.atoms i hi p hp
    · exact ⟨⟨x, hx⟩, y, hy⟩
  · -- by the texts of before, and these are those of afterwards
    have htexts : Properties.texts (op.apply s).heap.text (s.properties i) = S i :=
      (texts_apply hk.sound op fun _ hp => hp).trans (hk.sheets i hi)
    rw [Properties.texts_put (fun p hp htext => ?_) (hk.distinct i hi), htexts, hx'.text_eq,
      hy'.text_eq]
    refine hk.name_eq hi hx hlive p hp ?_
    rw [← hk.sound.text_apply op (Holdings.mem_held_of_property hp).1, htext, hx'.text_eq,
      hx.text_eq]

/-- A name and a value pass from the hand into a declaration. -/
theorem assign (hk : Kept F S s) (hi : i ∈ F) (hlt : i < s.styles.size)
    (hx : s.heap.Is k F.table x) (hy : s.heap.Is v F.table y) (hkey : k ∈ s.hand)
    (hv : v ∈ s.hand.erase k) :
    Kept F (Function.update S i ((S i).set x y)) (s.assign i k v) := by
  obtain ⟨hstyles, hcaches⟩ := assign_places s i k v
  exact hk.put (.assign i k v) hi hlt ⟨hlt, hkey, hv⟩ hstyles hcaches hx hy
    (hk.sound.live (Holdings.mem_held_of_hand hkey))

theorem unassign (hk : Kept F S s) (hi : i ∈ F) (hlt : i < s.styles.size)
    (hx : s.heap.Is k F.table x) (hv : (s.properties i).value? k = some v) :
    Kept F (Function.update S i ((S i).remove x)) (s.unassign i k).2 := by
  obtain ⟨hstyles, hcaches⟩ := unassign_places hv
  have hlive := hk.sound.live (Holdings.mem_held_of_property (Properties.mem_of_value? hv)).1
  have hnodup : (((s.properties i).erase k).map (·.1)).Nodup := by
    rw [Properties.names_erase]
    exact (hk.distinct i hi).erase k
  refine hk.change (.unassign i k) hlt trivial hstyles hcaches
    (fun p hp => hk.atoms i hi p (Properties.mem_of_mem_erase hp)) hnodup ?_
  rw [← hk.sheets i hi, sheet, ← hx.text_eq,
    ← Properties.texts_erase (hk.name_eq hi hx hlive) (hk.distinct i hi)]
  exact texts_apply hk.sound (.unassign i k) fun _ hp => Properties.mem_of_mem_erase hp

/-! ### Copying -/

/-- Giving some properties of another declaration, in order. -/
theorem copyProperties {j : StyleId} (ps : Properties) (hk : Kept F S s) (hi : i ∈ F) (hj : j ∈ F)
    (hne : i ≠ j) (hlt : i < s.styles.size) (hps : ∀ p ∈ ps, p ∈ s.properties j) :
    Kept F (Function.update S i ((S i).copy (Properties.texts s.heap.text ps)))
      (ps.foldl (fun s (n, v) => s.copyProperty i n v) s) := by
  induction ps generalizing s S with
  | nil =>
    show Kept F (Function.update S i (S i)) s
    rwa [Function.update_eq_self]
  | cons p ps ih =>
    obtain ⟨n, v⟩ := p
    rw [List.forall_mem_cons] at hps
    obtain ⟨hn, hv⟩ := Holdings.mem_held_of_property hps.1
    obtain ⟨⟨x, hx⟩, y, hy⟩ := hk.atoms j hj (n, v) hps.1
    obtain ⟨hstyles, hcaches⟩ := copyProperty_places s i n v
    have hput : Kept F (Function.update S i ((S i).set x y)) (s.copyProperty i n v) :=
      hk.put (.copyProperty i n v) hi hlt ⟨hlt, hn, hv⟩ hstyles hcaches hx hy
        (hk.sound.live hn)
    -- the source is another declaration, so it is as before, and what it holds keeps its text
    have hsource : (s.copyProperty i n v).properties j = s.properties j := by
      have hleaves : Leaves (F.declaration j) (.copyProperty i n v) := hne
      exact properties_apply hleaves
    have htexts : Properties.texts (s.copyProperty i n v).heap.text ps =
        Properties.texts s.heap.text ps := texts_apply hk.sound (.copyProperty i n v) hps.2
    have hlt' := Nat.lt_of_lt_of_le hlt (styles_size_le (s := s) (.copyProperty i n v))
    have hrest := ih hput hlt' (hsource ▸ hps.2)
    rw [htexts, Function.update_self, Function.update_idem] at hrest
    show Kept F (Function.update S i ((S i).copy ((s.heap.text n, s.heap.text v) :: _))) _
    rw [hx.text_eq, hy.text_eq]
    exact hrest

theorem copyStyle {j : StyleId} (hk : Kept F S s) (hi : i ∈ F) (hj : j ∈ F) (hne : i ≠ j)
    (hlt : i < s.styles.size) :
    Kept F (Function.update S i ((S i).copy (S j))) (s.copyStyle i j) := by
  have hcopied := hk.copyProperties (s.properties j) hi hj hne hlt fun _ hp => hp
  rwa [show Properties.texts s.heap.text (s.properties j) = S j from hk.sheets j hj] at hcopied

end Kept

end ScriptHost.Style

/-
Declarations as maps of texts.

Whoever writes a script thinks of a declaration as a list of texts by texts, in the order in which
they were first set.  `Texts` is that list, with what editing does to it, and `Properties.texts`
reads it off the atoms of a declaration.  Where no two names have the same text,

* `Properties.lookup_texts` — looking up an atom is looking up its text;
* `Properties.texts_put`, `Properties.texts_erase` — and so are putting and erasing.
-/
import ScriptHost.Proofs.Style.Keyed

namespace ScriptHost.Style

theorem lookup_eq_none_iff_not_mem {α β : Type} [BEq α] [LawfulBEq α] {k : α} {ps : List (α × β)} :
    ps.lookup k = none ↔ k ∉ ps.map (·.1) := by
  rw [List.lookup_eq_none_iff, List.mem_map, not_exists]
  constructor
  · rintro h p ⟨hp, rfl⟩
    exact absurd (h p hp) (by simp)
  · intro h p hp
    exact bne_iff_ne.mpr fun hk => h p ⟨hp, hk.symm⟩

/-- Values by names, each name once. -/
abbrev Texts := List (String × String)

namespace Texts

/-- Replaces the value of a name in its place; a new name comes last. -/
def set (name value : String) (ts : Texts) : Texts :=
  if name ∈ ts.map (·.1) then ts.map fun p => if p.1 = name then (name, value) else p
  else ts ++ [(name, value)]

def remove (name : String) (ts : Texts) : Texts := ts.filter (·.1 ≠ name)

/-- The value of a name, or the empty text. -/
def get (name : String) (ts : Texts) : String := (ts.lookup name).getD ""

/-- Sets all that the source has, in its order. -/
def copy (ts source : Texts) : Texts := source.foldl (fun ts p => ts.set p.1 p.2) ts

def css (ts : Texts) : String := String.join (ts.map fun p => p.1 ++ ": " ++ p.2 ++ ";")

variable {name value : String} {ts : Texts}

theorem set_cons_of_ne {p : String × String} (hp : p.1 ≠ name) (value : String) (ts : Texts) :
    set name value (p :: ts) = p :: set name value ts := by
  have hmem : name ∈ List.map (·.1) (p :: ts) ↔ name ∈ ts.map (·.1) := by
    rw [List.map_cons, List.mem_cons]
    exact or_iff_right (Ne.symm hp)
  unfold set
  by_cases hn : name ∈ ts.map (·.1)
  · rw [if_pos (hmem.mpr hn), if_pos hn, List.map_cons, if_neg hp]
  · rw [if_neg fun h => hn (hmem.mp h), if_neg hn]
    rfl

theorem set_cons_self {old : String} (hn : name ∉ ts.map (·.1)) (value : String) :
    set name value ((name, old) :: ts) = (name, value) :: ts := by
  have hrest : ts.map (fun p => if p.1 = name then (name, value) else p) = ts := by
    refine (List.map_congr_left fun p hp => ?_).trans (List.map_id ts)
    exact if_neg fun h : p.1 = name => hn (h ▸ List.mem_map_of_mem hp)
  have hmem : name ∈ List.map (·.1) ((name, old) :: ts) := List.mem_cons_self
  rw [set, if_pos hmem, List.map_cons, if_pos rfl, hrest]

/-- Setting what is set is no change. -/
theorem set_of_lookup (h : (ts.map (·.1)).Nodup) (hl : ts.lookup name = some value) :
    ts.set name value = ts := by
  induction ts with
  | nil => exact absurd hl (by simp)
  | cons p ts ih =>
    obtain ⟨hp, hrest⟩ := List.nodup_cons.mp h
    rw [List.lookup_cons] at hl
    by_cases hn : p.1 = name
    · subst hn
      rw [beq_self_eq_true] at hl
      obtain rfl := Option.some.inj hl
      exact set_cons_self hp p.2
    · rw [beq_false_of_ne (Ne.symm hn)] at hl
      rw [set_cons_of_ne hn, ih hrest hl]

/-- Removing what is not set is no change. -/
theorem remove_of_not_mem (h : name ∉ ts.map (·.1)) : ts.remove name = ts := by
  refine List.filter_eq_self.mpr fun p hp => ?_
  exact decide_eq_true fun hn => h (hn ▸ List.mem_map_of_mem hp)

theorem remove_cons_of_ne {p : String × String} (hp : p.1 ≠ name) (ts : Texts) :
    remove name (p :: ts) = p :: remove name ts :=
  List.filter_cons_of_pos (by simpa using hp)

theorem remove_cons_self (name value : String) (ts : Texts) :
    remove name ((name, value) :: ts) = remove name ts :=
  List.filter_cons_of_neg (by simp)

end Texts

namespace Properties

/-- Properties by the texts of their atoms. -/
def texts (text : Atom → String) (ps : Properties) : Texts := ps.map fun p => (text p.1, text p.2)

variable {text text' : Atom → String} {ps : Properties} {k : Atom}

theorem texts_congr (h : ∀ p ∈ ps, text' p.1 = text p.1 ∧ text' p.2 = text p.2) :
    texts text' ps = texts text ps :=
  List.map_congr_left fun p hp => Prod.ext (h p hp).1 (h p hp).2

theorem names_texts (text : Atom → String) (ps : Properties) :
    (texts text ps).map (·.1) = (ps.map (·.1)).map text := by
  rw [texts, List.map_map, List.map_map]
  rfl

theorem css_eq (h : Atom.Heap) (ps : Properties) : ps.css h = (texts h.text ps).css := by
  rw [css, Texts.css, texts, List.map_map]
  rfl

section Injective

variable (hk : ∀ p ∈ ps, text p.1 = text k → p.1 = k)
include hk

theorem mem_names_texts : text k ∈ (texts text ps).map (·.1) ↔ k ∈ ps.map (·.1) := by
  rw [names_texts]
  constructor
  · intro h
    obtain ⟨n, hn, htext⟩ := List.mem_map.mp h
    obtain ⟨p, hp, rfl⟩ := List.mem_map.mp hn
    exact hk p hp htext ▸ hn
  · exact List.mem_map_of_mem

theorem lookup_texts : (texts text ps).lookup (text k) = (ps.value? k).map text := by
  induction ps with
  | nil => rfl
  | cons p ps ih =>
    rw [List.forall_mem_cons] at hk
    rw [texts, List.map_cons, List.lookup_cons, value?, List.lookup_cons]
    by_cases hp : p.1 = k
    · rw [hp, beq_self_eq_true, beq_self_eq_true]
      rfl
    · rw [beq_false_of_ne fun h => hp (hk.1 h.symm), beq_false_of_ne (Ne.symm hp)]
      exact ih hk.2

theorem texts_put (hnodup : (ps.map (·.1)).Nodup) (v : Atom) :
    texts text (ps.put k v) = (texts text ps).set (text k) (text v) := by
  induction ps with
  | nil => rfl
  | cons p ps ih =>
    obtain ⟨n, v'⟩ := p
    obtain ⟨hn, hrest⟩ := List.nodup_cons.mp hnodup
    rw [List.forall_mem_cons] at hk
    by_cases hp : n = k
    · subst hp
      rw [put, if_pos rfl]
      have hmem : text n ∉ (texts text ps).map (·.1) := fun h => hn ((mem_names_texts hk.2).mp h)
      exact (Texts.set_cons_self hmem (text v)).symm
    · rw [put, if_neg hp]
      show (text n, text v') :: texts text (put k v ps) = _
      rw [ih hk.2 hrest]
      exact (Texts.set_cons_of_ne (p := (text n, text v')) (fun h => hp (hk.1 h)) _ _).symm

theorem texts_erase (hnodup : (ps.map (·.1)).Nodup) :
    texts text (ps.erase k) = (texts text ps).remove (text k) := by
  induction ps with
  | nil => rfl
  | cons p ps ih =>
    obtain ⟨n, v⟩ := p
    obtain ⟨hn, hrest⟩ := List.nodup_cons.mp hnodup
    rw [List.forall_mem_cons] at hk
    by_cases hp : n = k
    · subst hp
      rw [erase, if_pos rfl]
      have hmem : text n ∉ (texts text ps).map (·.1) := fun h => hn ((mem_names_texts hk.2).mp h)
      exact ((Texts.remove_cons_self _ _ _).trans (Texts.remove_of_not_mem hmem)).symm
    · rw [erase, if_neg hp]
      show (text n, text v) :: texts text (erase k ps) = _
      rw [ih hk.2 hrest]
      exact (Texts.remove_cons_of_ne (p := (text n, text v)) (fun h => hp (hk.1 h)) _).symm

end Injective

end Properties

end ScriptHost.Style

/-
Counting atoms in the places that hold them.

`slots` lists the atoms that the objects of one kind hold, and `held` those of all places.  The
lemmas say how the count of an atom changes when one place does; `Proofs.Holdings.Accounts` sets
them against the counts of the cells.
-/
import ScriptHost.Holdings

namespace ScriptHost

/-! ### Slots -/

section Slots

variable {α : Type} (f : α → List Atom)

/-- What a place holds; an empty one holds nothing. -/
def slot (o : Option α) : List Atom := (o.map f).getD []

theorem slot_some (x : α) : slot f (some x) = f x := rfl

/-- Everything that the places of a kind hold. -/
def slots (xs : Array (Option α)) : List Atom := xs.toList.flatMap (slot f)

theorem count_slots_push (xs : Array (Option α)) (o : Option α) (a : Atom) :
    (slots f (xs.push o)).count a = (slots f xs).count a + (slot f o).count a := by
  simp [slots, List.count_append]

/-- Replacing one entry of a list exchanges what it holds. -/
theorem count_flatMap_set (os : List (Option α)) (i : Nat) (hi : i < os.length) (o : Option α)
    (a : Atom) :
    ((os.set i o).flatMap (slot f)).count a + (slot f os[i]).count a =
      (os.flatMap (slot f)).count a + (slot f o).count a := by
  -- stated with sums on both sides, as nothing is subtracted then
  induction os generalizing i with
  | nil => exact absurd hi (Nat.not_lt_zero i)
  | cons o' os ih =>
    cases i with
    | zero =>
      simp only [List.set_cons_zero, List.flatMap_cons, List.count_append, List.getElem_cons_zero]
      omega
    | succ i =>
      have htail := ih i (Nat.lt_of_succ_lt_succ hi)
      simp only [List.set_cons_succ, List.flatMap_cons, List.count_append, List.getElem_cons_succ]
      omega

theorem count_slots_setIfInBounds {xs : Array (Option α)} {i : Nat} (hi : i < xs.size)
    (o : Option α) (a : Atom) :
    (slots f (xs.setIfInBounds i o)).count a + (slot f xs[i]?.join).count a =
      (slots f xs).count a + (slot f o).count a := by
  have hset := count_flatMap_set f xs.toList i (by simpa using hi) o a
  rw [Array.getElem_toList] at hset
  rw [slots, Array.toList_setIfInBounds, Array.getElem?_eq_getElem hi]
  exact hset

/-- Emptying a place, if there is one. -/
theorem count_slots_empty (xs : Array (Option α)) (i : Nat) (a : Atom) :
    (slots f (xs.setIfInBounds i none)).count a + (slot f xs[i]?.join).count a =
      (slots f xs).count a := by
  by_cases hi : i < xs.size
  · exact count_slots_setIfInBounds f hi none a
  · -- beyond the end there is nothing to empty
    rw [Array.setIfInBounds_eq_of_size_le (Nat.le_of_not_lt hi),
      Array.getElem?_eq_none (Nat.le_of_not_lt hi)]
    rfl

/-- What a place holds is held. -/
theorem mem_slots {xs : Array (Option α)} {i : Nat} {x : α} (hx : xs[i]?.join = some x) {a : Atom}
    (ha : a ∈ f x) : a ∈ slots f xs := by
  cases hi : xs[i]? with
  | none =>
    rw [hi] at hx
    exact absurd hx (by simp)
  | some o =>
    rw [hi, Option.join_some] at hx
    refine List.mem_flatMap.mpr ⟨o, Array.mem_toList_iff.mpr (Array.mem_of_getElem? hi), ?_⟩
    rw [hx]
    exact ha

end Slots

/-! ### Single atoms -/

theorem mem_of_lookup {α β : Type} [BEq α] [LawfulBEq α] {k : α} {v : β} {ps : List (α × β)}
    (hv : ps.lookup k = some v) : (k, v) ∈ ps := by
  obtain ⟨before, after, rfl, -⟩ := List.lookup_eq_some_iff.mp hv
  exact List.mem_append_right _ List.mem_cons_self

theorem count_cons_eq (b : Atom) (l : List Atom) (a : Atom) :
    (b :: l).count a = [b].count a + l.count a := by
  rw [← List.count_append]
  rfl

theorem count_erase_add {b : Atom} {l : List Atom} (hb : b ∈ l) (a : Atom) :
    (l.erase b).count a + [b].count a = l.count a := by
  have hperm := (List.perm_cons_erase hb).count_eq a
  rw [count_cons_eq] at hperm
  omega

/-! ### Properties -/

namespace Style.Properties

variable {ps : Properties} {name old : Atom} (value : Atom)

theorem mem_of_value? (hv : ps.value? name = some old) : (name, old) ∈ ps := mem_of_lookup hv

theorem mem_atoms {n v : Atom} (hp : (n, v) ∈ ps) : n ∈ ps.atoms ∧ v ∈ ps.atoms :=
  ⟨List.mem_flatMap.mpr ⟨_, hp, by simp⟩, List.mem_flatMap.mpr ⟨_, hp, by simp⟩⟩

theorem atoms_cons (n v : Atom) (ps : Properties) :
    Properties.atoms ((n, v) :: ps) = n :: v :: ps.atoms := rfl

theorem count_atoms_put_of_some (hv : ps.value? name = some old) (a : Atom) :
    (ps.put name value).atoms.count a + [old].count a = ps.atoms.count a + [value].count a := by
  induction ps with
  | nil => exact absurd hv (by simp [value?])
  | cons p rest ih =>
    obtain ⟨n, v⟩ := p
    rw [value?, List.lookup_cons] at hv
    by_cases hn : n = name
    · -- the property stands here: its name stays, its value is exchanged
      subst hn
      rw [beq_self_eq_true] at hv
      injection hv with hv
      subst hv
      rw [put, if_pos rfl, atoms_cons, atoms_cons]
      have h₁ := count_cons_eq n (value :: atoms rest) a
      have h₂ := count_cons_eq value (atoms rest) a
      have h₃ := count_cons_eq n (v :: atoms rest) a
      have h₄ := count_cons_eq v (atoms rest) a
      omega
    · rw [beq_false_of_ne (Ne.symm hn)] at hv
      rw [put, if_neg hn, atoms_cons, atoms_cons]
      have hrest := ih hv
      have h₁ := count_cons_eq n (v :: atoms (put name value rest)) a
      have h₂ := count_cons_eq v (atoms (put name value rest)) a
      have h₃ := count_cons_eq n (v :: atoms rest) a
      have h₄ := count_cons_eq v (atoms rest) a
      omega

theorem put_of_none (hv : ps.value? name = none) : ps.put name value = ps ++ [(name, value)] := by
  induction ps with
  | nil => rfl
  | cons p rest ih =>
    obtain ⟨n, v⟩ := p
    rw [value?, List.lookup_cons] at hv
    by_cases hn : n = name
    · subst hn
      rw [beq_self_eq_true] at hv
      exact absurd hv (by simp)
    · rw [beq_false_of_ne (Ne.symm hn)] at hv
      rw [put, if_neg hn, ih hv, List.cons_append]

theorem count_atoms_put_of_none (hv : ps.value? name = none) (a : Atom) :
    (ps.put name value).atoms.count a =
      ps.atoms.count a + [name].count a + [value].count a := by
  rw [put_of_none value hv, atoms, List.flatMap_append, List.count_append, Nat.add_assoc]
  refine congrArg (List.count a (atoms ps) + ·) ?_
  exact count_cons_eq name [value] a

theorem count_atoms_erase (hv : ps.value? name = some old) (a : Atom) :
    (ps.erase name).atoms.count a + [name].count a + [old].count a = ps.atoms.count a := by
  induction ps with
  | nil => exact absurd hv (by simp [value?])
  | cons p rest ih =>
    obtain ⟨n, v⟩ := p
    rw [value?, List.lookup_cons] at hv
    have h₁ := count_cons_eq n (v :: atoms rest) a
    have h₂ := count_cons_eq v (atoms rest) a
    by_cases hn : n = name
    · subst hn
      rw [beq_self_eq_true] at hv
      injection hv with hv
      subst hv
      rw [erase, if_pos rfl, atoms_cons]
      omega
    · rw [beq_false_of_ne (Ne.symm hn)] at hv
      rw [erase, if_neg hn, atoms_cons, atoms_cons]
      have hrest := ih hv
      have h₃ := count_cons_eq n (v :: atoms (erase name rest)) a
      have h₄ := count_cons_eq v (atoms (erase name rest)) a
      omega

end Style.Properties

/-! ### Handles -/

/-- Without the one handle of a name, the others hold one atom less. -/
theorem count_handles_filter {handles : List (String × Atom)} {name : String} {a : Atom}
    (hnodup : (handles.map (·.1)).Nodup) (ha : handles.lookup name = some a) (b : Atom) :
    ((handles.filter (·.1 ≠ name)).map (·.2)).count b + [a].count b =
      (handles.map (·.2)).count b := by
  induction handles with
  | nil => exact absurd ha (by simp)
  | cons p rest ih =>
    obtain ⟨n, v⟩ := p
    obtain ⟨hn, hrest⟩ := List.nodup_cons.mp hnodup
    rw [List.lookup_cons] at ha
    rw [List.map_cons, count_cons_eq v]
    by_cases hname : name = n
    · subst hname
      rw [beq_self_eq_true] at ha
      injection ha with ha
      -- no other handle has this name, so the filter takes out the first one only
      have hall : rest.filter (·.1 ≠ name) = rest := by
        refine List.filter_eq_self.mpr fun p hp => ?_
        have hne : p.1 ≠ name := fun he => hn (List.mem_map.mpr ⟨p, hp, he⟩)
        simpa using hne
      rw [List.filter_cons_of_neg (by simp), hall, ha, Nat.add_comm]
    · rw [beq_false_of_ne hname] at ha
      rw [List.filter_cons_of_pos (by simpa using Ne.symm hname), List.map_cons, count_cons_eq v]
      have hcount := ih hrest ha
      omega

/-! ### All places -/

namespace Holdings

variable {s : Holdings}

/-- Every atom that is held, once for each time that it is held. -/
def held (s : Holdings) : List Atom :=
  slots Atom.Table.atoms s.tables ++ slots (List.map (·.2)) s.caches ++
    slots Style.Properties.atoms s.styles ++ s.handles.map (·.2) ++ s.hand

theorem count_held (s : Holdings) (a : Atom) :
    s.held.count a = (slots Atom.Table.atoms s.tables).count a +
      (slots (List.map (·.2)) s.caches).count a +
      (slots Style.Properties.atoms s.styles).count a + (s.handles.map (·.2)).count a +
      s.hand.count a := by
  simp only [held, List.count_append]

theorem mem_held_of_hand {a : Atom} (ha : a ∈ s.hand) : a ∈ s.held :=
  List.mem_append_right _ ha

theorem mem_held_of_table {t : TableId} {table : Atom.Table} (ht : s.tables[t]?.join = some table)
    {a : Atom} (ha : a ∈ table.atoms) : a ∈ s.held := by
  simp only [held, List.mem_append]
  exact Or.inl (Or.inl (Or.inl (Or.inl (mem_slots _ ht ha))))

theorem mem_held_of_cache {c : CacheId} {p : String × Atom} (hp : p ∈ s.cache c) :
    p.2 ∈ s.held := by
  simp only [held, List.mem_append]
  refine Or.inl (Or.inl (Or.inl (Or.inr ?_)))
  cases hc : s.caches[c]?.join with
  | none => simp [cache, hc] at hp
  | some names =>
    rw [cache, hc] at hp
    exact mem_slots _ hc (List.mem_map_of_mem hp)

theorem mem_held_of_property {i : StyleId} {n v : Atom} (hp : (n, v) ∈ s.properties i) :
    n ∈ s.held ∧ v ∈ s.held := by
  simp only [held, List.mem_append]
  cases hi : s.styles[i]?.join with
  | none => simp [properties, hi] at hp
  | some ps =>
    rw [properties, hi] at hp
    obtain ⟨hn, hv⟩ := Style.Properties.mem_atoms hp
    exact ⟨Or.inl (Or.inl (Or.inr (mem_slots _ hi hn))), Or.inl (Or.inl (Or.inr (mem_slots _ hi hv)))⟩

theorem slot_cache (c : CacheId) :
    slot (List.map (·.2)) s.caches[c]?.join = (s.cache c).map (·.2) := by
  rw [cache, slot]
  cases s.caches[c]?.join <;> rfl

theorem slot_properties (i : StyleId) :
    slot Style.Properties.atoms s.styles[i]?.join = (s.properties i).atoms := by
  rw [properties, slot]
  cases s.styles[i]?.join <;> rfl

/-- Replacing a declaration exchanges its atoms. -/
theorem count_setProperties {i : StyleId} (hi : i < s.styles.size) (ps : Style.Properties)
    (a : Atom) :
    (slots Style.Properties.atoms (s.setProperties i ps).styles).count a +
        (s.properties i).atoms.count a =
      (slots Style.Properties.atoms s.styles).count a + ps.atoms.count a := by
  have hset := count_slots_setIfInBounds Style.Properties.atoms hi (some ps) a
  rw [slot_properties, slot_some] at hset
  exact hset

end Holdings
end ScriptHost

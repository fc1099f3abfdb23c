/-
The books of a registry.

A registry keeps a list of what it holds and a counter.  What it should hold can be read off its
history alone: a context stands under the name under which it was created until that name is struck
out.  `Ledger` says that list and counter agree with the history, and

* `Ledger.get?_iff`, `Ledger.counted` — what is found under a name, and how many there are;
* `Ledger.create`, `Ledger.strike`, `Ledger.other` — the books stay right whatever happens next.

Design notes: a name is the number of contexts created before, so no two creations ever share one
and a history that strikes a name out before it is given has no effect (`Standing.lt`).
-/
import ScriptHost.Registry
import ScriptHost.Config

namespace ScriptHost

/-- Striking out a name takes away what is found under it, and nothing else. -/
theorem Registry.get?_remove {C : Type} (r : Registry C) (id id' : ContextId) :
    (r.remove id).2.get? id' = if id' = id then none else r.get? id' := by
  show (r.contexts.filter (·.1 ≠ id)).lookup id' = if id' = id then none else r.contexts.lookup id'
  induction r.contexts with
  | nil => simp
  | cons p contexts ih =>
    by_cases hp : p.1 = id
    · rw [List.filter_cons_of_neg (by simpa using hp), ih]
      split
      next => rfl
      next hne => rw [List.lookup_cons, beq_false_of_ne (hp ▸ hne)]
    · rw [List.filter_cons_of_pos (by simpa using hp), List.lookup_cons, List.lookup_cons, ih]
      split
      next heq => rw [if_neg (by rwa [eq_of_beq heq])]
      next => rfl

namespace Registration

/-- What is asked of a registry, or done to one of the contexts, with what came back.  Contexts are
known by their places. -/
inductive Event where
  | create (config : Config) (result : Except Fault Nat)
  | get (id : ContextId) (found : Option Nat)
  | strike (id : ContextId) (found : Bool)
  | dispose (i : Nat)

/-- The contexts that have been created, in order. -/
def created : List Event → List Nat
  | [] => []
  | .create _ (.ok i) :: h => i :: created h
  | _ :: h => created h

/-- The context at `i` was created under the name `id`, the number of those created before it, and
nobody has struck it out since. -/
def Standing (h : List Event) (id : ContextId) (i : Nat) : Prop :=
  ∃ h₁ config h₂, h = h₁ ++ .create config (.ok i) :: h₂ ∧ id = (created h₁).length ∧
    ∀ found, .strike id found ∉ h₂

variable {h : List Event} {e : Event} {id : ContextId} {i : Nat}

theorem created_append (h h' : List Event) : created (h ++ h') = created h ++ created h' := by
  induction h with
  | nil => rfl
  | cons e h ih => rcases e with ⟨_, _ | _⟩ | _ | _ | _ <;> simp [created, ih]

/-- One more event: what stood may be struck out, and a new context stands. -/
theorem standing_concat : Standing (h ++ [e]) id i ↔
    (Standing h id i ∧ ∀ found, e ≠ .strike id found) ∨
      ∃ config, e = .create config (.ok i) ∧ id = (created h).length := by
  constructor
  · rintro ⟨h₁, config, h₂, heq, hid, hstrike⟩
    rcases List.eq_nil_or_concat h₂ with rfl | ⟨h₂, e', rfl⟩
    · obtain ⟨rfl, he⟩ := List.append_inj' heq rfl
      exact Or.inr ⟨config, (List.cons_eq_cons.mp he).1, hid⟩
    · rw [List.concat_eq_append] at heq hstrike
      rw [← List.cons_append, ← List.append_assoc] at heq
      obtain ⟨rfl, he⟩ := List.append_inj' heq rfl
      obtain rfl := (List.cons_eq_cons.mp he).1
      refine Or.inl ⟨⟨h₁, config, h₂, rfl, hid, fun found hmem => ?_⟩, fun found he' => ?_⟩
      · exact hstrike found (List.mem_append_left _ hmem)
      · exact hstrike found (by simp [he'])
  · rintro (⟨⟨h₁, config, h₂, rfl, hid, hstrike⟩, he⟩ | ⟨config, rfl, hid⟩)
    · refine ⟨h₁, config, h₂ ++ [e], by simp, hid, fun found hmem => ?_⟩
      rcases List.mem_append.mp hmem with hmem | hmem
      · exact hstrike found hmem
      · exact he found (List.mem_singleton.mp hmem).symm
    · exact ⟨h, config, [], rfl, hid, fun _ => List.not_mem_nil⟩

/-- Names are given in order: one that stands is below the next. -/
theorem Standing.lt (hs : Standing h id i) : id < (created h).length := by
  obtain ⟨h₁, config, h₂, rfl, rfl, -⟩ := hs
  rw [created_append, List.length_append]
  exact Int.ofNat_lt.mpr (Nat.lt_add_of_pos_right (Nat.zero_lt_succ _))

/-- A registry that is as its history says. -/
structure Ledger (max : Nat) (h : List Event) (r : Registry Nat) : Prop where
  max_eq : r.max = max
  nextId_eq : r.nextId = (created h).length
  mem_iff : ∀ id i, (id, i) ∈ r.contexts ↔ Standing h id i
  nodup : (r.contexts.map Prod.fst).Nodup
  size_le : r.size ≤ max

namespace Ledger

variable {max : Nat} {r : Registry Nat}

theorem empty (max : Nat) : Ledger max [] { max } where
  max_eq := rfl
  nextId_eq := rfl
  mem_iff id i := by simp [Standing]
  nodup := List.nodup_nil
  size_le := Nat.zero_le _

/-- Under a name one finds the context that stands there. -/
theorem get?_iff (hl : Ledger max h r) : r.get? id = some i ↔ Standing h id i := by
  rw [← hl.mem_iff, Registry.get?, List.lookup_eq_some_iff]
  constructor
  · rintro ⟨l₁, l₂, heq, -⟩
    exact heq ▸ List.mem_append_right l₁ List.mem_cons_self
  · intro hmem
    obtain ⟨l₁, l₂, heq⟩ := List.append_of_mem hmem
    refine ⟨l₁, l₂, heq, fun p hp => ?_⟩
    -- an entry of that name further up would be a second one
    have hnodup := hl.nodup
    rw [heq, List.map_append, List.map_cons] at hnodup
    have hne := (List.nodup_append.mp hnodup).2.2 p.1 (List.mem_map_of_mem hp) id
      List.mem_cons_self
    exact bne_iff_ne.mpr hne.symm

/-- As many are registered as stand under a name. -/
theorem counted (hl : Ledger max h r) : ∃ ids : List ContextId, ids.Nodup ∧ ids.length = r.size ∧
    ∀ id, id ∈ ids ↔ ∃ i, Standing h id i := by
  refine ⟨r.contexts.map Prod.fst, hl.nodup, List.length_map _, fun id => ?_⟩
  rw [List.mem_map]
  constructor
  · rintro ⟨⟨id, i⟩, hmem, rfl⟩
    exact ⟨i, (hl.mem_iff id i).mp hmem⟩
  · rintro ⟨i, hs⟩
    exact ⟨(id, i), (hl.mem_iff id i).mpr hs, rfl⟩

theorem nextId_lt (hl : Ledger max h r) (hs : Standing h id i) : id < r.nextId :=
  hl.nextId_eq ▸ hs.lt

theorem create (hl : Ledger max h r) (hlt : r.size < max) (config : Config) (i : Nat) :
    Ledger max (h ++ [.create config (.ok i)]) (r.enter i) where
  max_eq := hl.max_eq
  nextId_eq := by
    rw [created_append, List.length_append, ← hl.nextId_eq]
    rfl
  mem_iff id j := by
    rw [standing_concat, ← hl.mem_iff, ← hl.nextId_eq, Registry.enter, List.mem_append,
      List.mem_singleton, Prod.mk.injEq]
    constructor
    · rintro (hmem | ⟨rfl, rfl⟩)
      · exact Or.inl ⟨hmem, fun _ heq => Event.noConfusion heq⟩
      · exact Or.inr ⟨config, rfl, rfl⟩
    · rintro (⟨hmem, -⟩ | ⟨config', heq, hid⟩)
      · exact Or.inl hmem
      · cases heq
        exact Or.inr ⟨hid, rfl⟩
  nodup := by
    show ((r.contexts ++ [_]).map Prod.fst).Nodup
    rw [List.map_append, List.nodup_append]
    refine ⟨hl.nodup, by simp, fun id hid next hnext => ?_⟩
    obtain ⟨⟨id, i⟩, hmem, rfl⟩ := List.mem_map.mp hid
    obtain rfl := List.mem_singleton.mp hnext
    exact Int.ne_of_lt (hl.nextId_lt ((hl.mem_iff id i).mp hmem))
  size_le := by
    rw [Registry.size_enter]
    exact hlt

theorem strike (hl : Ledger max h r) (id : ContextId) (found : Bool) :
    Ledger max (h ++ [.strike id found]) (r.remove id).2 where
  max_eq := hl.max_eq
  nextId_eq := by
    rw [created_append, List.length_append, ← hl.nextId_eq]
    rfl
  mem_iff id' i := by
    rw [standing_concat, ← hl.mem_iff, Registry.remove, List.mem_filter]
    constructor
    · rintro ⟨hmem, hne⟩
      refine Or.inl ⟨hmem, fun found' heq => ?_⟩
      cases heq
      exact of_decide_eq_true hne rfl
    · rintro (⟨hmem, hne⟩ | ⟨config, heq, -⟩)
      · exact ⟨hmem, decide_eq_true fun heq => hne found (heq ▸ rfl)⟩
      · cases heq
  nodup := hl.nodup.sublist (List.filter_sublist.map _)
  size_le := Nat.le_trans (List.length_filter_le _ _) hl.size_le

/-- Anything else changes nothing. -/
theorem other (hl : Ledger max h r) (hcreate : created [e] = [])
    (hstrike : ∀ id found, e ≠ .strike id found) : Ledger max (h ++ [e]) r where
  max_eq := hl.max_eq
  nextId_eq := by
    rw [created_append, hcreate, List.append_nil]
    exact hl.nextId_eq
  mem_iff id i := by
    rw [standing_concat, ← hl.mem_iff]
    constructor
    · exact fun hmem => Or.inl ⟨hmem, hstrike id⟩
    · rintro (⟨hmem, -⟩ | ⟨config, rfl, -⟩)
      · exact hmem
      · exact absurd hcreate (List.cons_ne_nil i _)
  nodup := hl.nodup
  size_le := hl.size_le

/-- Striking out a name under which nothing stands changes nothing. -/
theorem remove_of_not_standing (hl : Ledger max h r) (hs : ∀ i, ¬ Standing h id i) :
    r.remove id = (none, r) := by
  have hget : r.get? id = none := by
    refine Option.eq_none_iff_forall_ne_some.mpr fun i hi => ?_
    exact hs i (hl.get?_iff.mp hi)
  have hfilter : r.contexts.filter (·.1 ≠ id) = r.contexts := by
    refine List.filter_eq_self.mpr fun p hp => ?_
    have hne : p.1 ≠ id := by
      rintro rfl
      exact hs p.2 ((hl.mem_iff p.1 p.2).mp hp)
    simpa using hne
  rw [Registry.remove, hget, hfilter]

end Ledger

end Registration
end ScriptHost

/-
Spelling a name twice.

The camel-case form of a name is a name, and it has a camel-case form of its own.  A hyphen is
dropped only directly behind another character, so whether a second spelling changes anything is a
question of which hyphens the first one has left behind another character (`Behind`):

* `camelScan_eq_self_iff` — the scan changes nothing if there is none;
* `behind_camelScan` — and what it leaves there was at least two before;
* `camelCase_camelCase_iff` — which names keep their spelling.
-/
import ScriptHost.Proofs.Text.CamelCase
import Mathlib.Data.List.TakeWhile

namespace ScriptHost.Text

/-! ### Hyphens behind other characters -/

/-- The text `pattern` stands directly behind a character that is no hyphen; `joins` says that such
a character comes before the whole. -/
def Behind (joins : Bool) (pattern cs : List Char) : Prop :=
  joins = true ∧ pattern <+: cs ∨ ∃ c, c ≠ '-' ∧ c :: pattern <:+: cs

variable {joins : Bool} {c : Char} {cs pattern : List Char}

theorem not_behind_nil (hne : pattern ≠ []) : ¬ Behind joins pattern [] := by
  rintro (⟨-, h⟩ | ⟨c, -, h⟩)
  · exact hne (List.prefix_nil.mp h)
  · exact List.cons_ne_nil c pattern (List.infix_nil.mp h)

theorem behind_cons : Behind joins pattern (c :: cs) ↔
    joins = true ∧ pattern <+: c :: cs ∨ Behind (c ≠ '-') pattern cs := by
  simp only [Behind, List.infix_cons_iff, List.cons_prefix_cons, decide_eq_true_eq]
  constructor
  · rintro (h | ⟨d, hd, ⟨rfl, h⟩ | h⟩)
    · exact Or.inl h
    · exact Or.inr (Or.inl ⟨hd, h⟩)
    · exact Or.inr (Or.inr ⟨d, hd, h⟩)
  · rintro (h | ⟨hc, h⟩ | ⟨d, hd, h⟩)
    · exact Or.inl h
    · exact Or.inr ⟨c, hc, Or.inl ⟨rfl, h⟩⟩
    · exact Or.inr ⟨d, hd, Or.inr h⟩

theorem behind_false : Behind false pattern cs ↔ ∃ c, c ≠ '-' ∧ c :: pattern <:+: cs := by
  simp [Behind]

/-! ### What the scan leaves -/

theorem nul_notMem_camelScan (joins capital : Bool) (cs : List Char) :
    '\x00' ∉ camelScan joins capital cs := by
  induction cs generalizing joins capital with
  | nil => exact List.not_mem_nil
  | cons c cs ih =>
    by_cases hnul : c = '\x00'
    · rw [camelScan, if_pos hnul]
      exact List.not_mem_nil
    · rw [camelScan, if_neg hnul]
      split
      · exact ih false true
      · rw [List.mem_cons, not_or, asciiUpper_eq_toUpper]
        refine ⟨fun h => hnul ?_, ih _ false⟩
        cases capital
        · exact h.symm
        · exact (toUpper_eq_iff (by decide)).mp h.symm

theorem length_camelScan_le (joins capital : Bool) (cs : List Char) :
    (camelScan joins capital cs).length ≤ cs.length := by
  induction cs generalizing joins capital with
  | nil => exact Nat.le_refl 0
  | cons c cs ih =>
    rw [camelScan]
    split
    · exact Nat.zero_le _
    · split
      · exact Nat.le_succ_of_le (ih false true)
      · exact Nat.succ_le_succ (ih _ false)

/-- The scan keeps a name as it is exactly if all its hyphens come first. -/
theorem camelScan_eq_self_iff (hnul : '\x00' ∉ cs) :
    camelScan joins false cs = cs ↔ ¬ Behind joins ['-'] cs := by
  induction cs generalizing joins with
  | nil => exact iff_of_true rfl (not_behind_nil (List.cons_ne_nil _ _))
  | cons c cs ih =>
    rw [List.mem_cons, not_or] at hnul
    rw [behind_cons, camelScan, if_neg (Ne.symm hnul.1)]
    by_cases hdropped : c = '-' ∧ joins = true
    · -- a hyphen that is dropped is missing in the end
      rw [if_pos hdropped]
      refine iff_of_false (fun h => ?_) fun h => h (Or.inl ⟨hdropped.2, cs, ?_⟩)
      · have hlength := length_camelScan_le false true cs
        rw [h, List.length_cons] at hlength
        omega
      · rw [hdropped.1]
        rfl
    · rw [if_neg hdropped]
      have hfirst : ¬ (joins = true ∧ ['-'] <+: c :: cs) := fun h =>
        hdropped ⟨(List.cons_prefix_cons.mp h.2).1.symm, h.1⟩
      rw [or_iff_right hfirst, ← ih hnul.2]
      simp

/-- What the scan leaves of hyphens behind another character are those that were at least two. -/
theorem behind_camelScan (hnul : '\x00' ∉ cs) :
    (∀ joins, Behind joins ['-'] (camelScan joins false cs) ↔ Behind joins ['-', '-'] cs) ∧
      (Behind true ['-'] (camelScan false true cs) ↔
        ['-'] <+: cs ∨ Behind false ['-', '-'] cs) := by
  induction cs with
  | nil => simp [camelScan, Behind]
  | cons c cs ih =>
    rw [List.mem_cons, not_or] at hnul
    obtain ⟨ihplain, ihdropped⟩ := ih hnul.2
    by_cases hc : c = '-'
    · subst hc
      refine ⟨fun joins => ?_, ?_⟩
      · cases joins with
        | false =>
          rw [camelScan_hyphen, behind_cons, behind_cons]
          simp [ihplain]
        | true =>
          show Behind true ['-'] (camelScan false true cs) ↔ _
          rw [ihdropped, behind_cons]
          simp
      · rw [camelScan_hyphen, behind_cons]
        simp
    · refine ⟨fun joins => ?_, ?_⟩
      · rw [camelScan_cons_of_ne (Ne.symm hnul.1) hc, behind_cons, behind_cons]
        simp [ihplain, hc, Ne.symm hc]
      · rw [camelScan_cons_of_ne (Ne.symm hnul.1) hc, behind_cons, behind_cons]
        have hupper : c.toUpper ≠ '-' := fun h => hc ((toUpper_eq_iff (by decide)).mp h)
        simp [ihplain, hc, Ne.symm hc, hupper, Ne.symm hupper]

/-! ### Names -/

theorem isCustomProperty_eq_true_iff :
    isCustomProperty cs = true ↔ ∃ c rest, cs = '-' :: '-' :: c :: rest := by
  fun_cases isCustomProperty cs with
  | case1 c rest => exact iff_of_true rfl ⟨c, rest, rfl⟩
  | case2 cs hcs =>
    refine iff_of_false Bool.false_ne_true ?_
    rintro ⟨c, rest, rfl⟩
    exact hcs c rest rfl

/-- The scan makes no custom property of a name that was none. -/
theorem isCustomProperty_of_camelScan (hnul : '\x00' ∉ cs)
    (h : isCustomProperty (camelScan false false cs) = true) : isCustomProperty cs = true := by
  have hkept : ∀ {c cs}, '\x00' ∉ c :: cs →
      camelScan false false (c :: cs) = c :: camelScan (c ≠ '-') false cs := by
    intro c cs hnul
    rw [camelScan, if_neg fun h : c = '\x00' => hnul (h ▸ List.mem_cons_self),
      if_neg fun h => Bool.false_ne_true h.2]
    rfl
  obtain ⟨c, rest, hscan⟩ := isCustomProperty_eq_true_iff.mp h
  -- the first two hyphens of the result are the first two characters of the name
  obtain _ | ⟨d, cs⟩ := cs
  · cases hscan
  rw [hkept hnul] at hscan
  obtain ⟨rfl, hscan⟩ := List.cons.inj hscan
  have hnul' := List.not_mem_of_not_mem_cons hnul
  obtain _ | ⟨e, cs⟩ := cs
  · cases hscan
  have hscan : camelScan false false (e :: cs) = '-' :: c :: rest := hscan
  rw [hkept hnul'] at hscan
  obtain ⟨rfl, hscan⟩ := List.cons.inj hscan
  obtain _ | ⟨f, cs⟩ := cs
  · cases hscan
  · rfl

theorem customProperty_of_camelScan {name : String}
    (h : CustomProperty (String.ofList (camelScan false false (beforeNul name)))) :
    CustomProperty name := by
  rw [← isCustomProperty_iff, String.toList_ofList] at h
  obtain ⟨c, rest, hcustom⟩ := isCustomProperty_eq_true_iff.mp
    (isCustomProperty_of_camelScan (nul_notMem_beforeNul name) h)
  obtain ⟨after, hname⟩ : beforeNul name <+: name.toList := List.takeWhile_prefix _
  rw [← isCustomProperty_iff, ← hname, hcustom]
  rfl

theorem beforeNul_ofList (hnul : '\x00' ∉ cs) : beforeNul (String.ofList cs) = cs := by
  rw [beforeNul, String.toList_ofList, List.takeWhile_eq_self_iff]
  intro c hc
  exact decide_eq_true fun h => hnul (h ▸ hc)

/-- The name is a custom property, or no two adjacent hyphens stand directly behind another
character before its first NUL. -/
def Settled (name : String) : Prop :=
  CustomProperty name ∨ ¬ ∃ c, c ≠ '-' ∧ [c, '-', '-'] <:+: beforeNul name

/-- Spelling a settled name once more changes nothing, and any other one it does change. -/
theorem camelCase_camelCase_iff (name : String) :
    camelCase (camelCase name) = camelCase name ↔ Settled name := by
  rw [Settled]
  by_cases hcustom : CustomProperty name
  · rw [camelCase_of_custom hcustom, camelCase_of_custom hcustom]
    exact iff_of_true rfl (Or.inl hcustom)
  · have hnul := nul_notMem_camelScan false false (beforeNul name)
    rw [camelCase_of_not_custom hcustom,
      camelCase_of_not_custom (mt customProperty_of_camelScan hcustom), beforeNul_ofList hnul,
      String.ofList_inj, camelScan_eq_self_iff hnul, (behind_camelScan (nul_notMem_beforeNul name)).1,
      behind_false, or_iff_right hcustom]

end ScriptHost.Text

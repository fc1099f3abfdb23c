/-
Camel case by runs of hyphens.

`camelCase` scans a name character by character and remembers two things: whether a hyphen would be
dropped here, and whether a capital is due.  Seen as a whole, a name is a sequence of runs, of
hyphens and of other characters in turn, and `spelledByRuns` says what becomes of each of them.

* `camelScan_flatten` — from any state on, the scan does to runs what `spellRuns` does;
* `camelCase_eq_spelledByRuns` — so camel case is spelling by runs, for every name.

Design notes: that the runs are the longest ones is used in one place only, behind a run of
hyphens, where the next run has to be one of other characters.
-/
import ScriptHost.Text.CamelCase
import Mathlib.Data.List.SplitBy

namespace ScriptHost.Text

/-! ### Spelling by runs -/

def isHyphen (c : Char) : Bool := c = '-'

/-- The longest runs of hyphens and of other characters, in their order. -/
def runs (cs : List Char) : List (List Char) := cs.splitBy fun a b => isHyphen a == isHyphen b

/-- How the runs behind another one are spelled.  A run of hyphens becomes one hyphen shorter, and
if it was a single one, the run after it begins with a capital. -/
def spellRuns (capital : Bool) : List (List Char) → List Char
  | [] => []
  | run :: rest =>
    if run.all isHyphen then
      List.replicate (run.length - 1) '-' ++ spellRuns (run.length = 1) rest
    else (if capital then run.modifyHead Char.toUpper else run) ++ spellRuns false rest

/-- The first run stays as it is, be it one of hyphens or not. -/
def respell (cs : List Char) : List Char :=
  match runs cs with
  | [] => []
  | first :: rest => first ++ spellRuns false rest

/-- The part of a name before its first NUL. -/
def beforeNul (name : String) : List Char := name.toList.takeWhile (· ≠ '\x00')

/-- A name is a custom property if it is longer than two bytes and begins with two hyphens. -/
def CustomProperty (name : String) : Prop := 2 < name.utf8ByteSize ∧ ['-', '-'] <+: name.toList

instance (name : String) : Decidable (CustomProperty name) := inferInstanceAs (Decidable (_ ∧ _))

def spelledByRuns (name : String) : String :=
  if CustomProperty name then name else String.ofList (respell (beforeNul name))

/-! ### Characters -/

theorem isHyphen_iff {c : Char} : isHyphen c = true ↔ c = '-' := decide_eq_true_iff

theorem toNat_toUpper {c : Char} (h : 'a' ≤ c ∧ c ≤ 'z') : c.toUpper.toNat = c.toNat - 32 := by
  have hlow : 97 ≤ c.toNat := h.1
  have hhigh : c.toNat ≤ 122 := h.2
  have hval : 'a'.val ≤ c.val ∧ c.val ≤ 'z'.val := h
  delta Char.toUpper
  rw [dif_pos hval]
  show (c.val + ('A'.val - 'a'.val)).toNat = c.toNat - 32
  rw [UInt32.toNat_add]
  show (c.toNat + 4294967264) % 4294967296 = c.toNat - 32
  omega

theorem toUpper_of_not {c : Char} (h : ¬ ('a' ≤ c ∧ c ≤ 'z')) : c.toUpper = c := by
  have hval : ¬ ('a'.val ≤ c.val ∧ c.val ≤ 'z'.val) := h
  exact dif_neg hval

theorem asciiUpper_eq_toUpper (c : Char) : asciiUpper c = c.toUpper := by
  rw [asciiUpper]
  by_cases h : 'a' ≤ c ∧ c ≤ 'z'
  · have hhigh : c.toNat ≤ 122 := h.2
    have hvalid : (c.toNat - 32).isValidChar := Or.inl (by omega)
    refine Char.toNat_inj.mp ?_
    rw [if_pos h, toNat_toUpper h, Char.ofNat, dif_pos hvalid]
    rfl
  · rw [if_neg h, toUpper_of_not h]

/-- A character below the capitals is the capital of itself alone. -/
theorem toUpper_eq_iff {c d : Char} (hd : d.toNat < 65) : c.toUpper = d ↔ c = d := by
  by_cases h : 'a' ≤ c ∧ c ≤ 'z'
  · have hlow : 97 ≤ c.toNat := h.1
    refine iff_of_false (fun he => ?_) fun he => ?_
    · have hupper := toNat_toUpper h
      rw [he] at hupper
      omega
    · rw [he] at hlow
      omega
  · rw [toUpper_of_not h]

/-- Two hyphens are two bytes, so a longer name has another character. -/
theorem isCustomProperty_iff (name : String) :
    isCustomProperty name.toList = true ↔ CustomProperty name := by
  obtain ⟨cs, rfl⟩ : ∃ cs, name = String.ofList cs := ⟨_, String.ofList_toList.symm⟩
  have hsize : ∀ cs, (String.ofList ('-' :: '-' :: cs)).utf8ByteSize =
      2 + (String.ofList cs).utf8ByteSize := by
    intro cs
    have happend : String.ofList ('-' :: '-' :: cs) = "--" ++ String.ofList cs :=
      @String.ofList_append ['-', '-'] cs
    rw [happend, String.utf8ByteSize_append]
    rfl
  rw [CustomProperty, String.toList_ofList]
  constructor
  · fun_cases isCustomProperty cs with
    | case1 c cs =>
      have hrest : (String.ofList (c :: cs)).utf8ByteSize ≠ 0 := fun h => by
        simpa using congrArg String.toList (String.utf8ByteSize_eq_zero_iff.mp h)
      rw [hsize]
      exact fun _ => ⟨by omega, _, rfl⟩
    | case2 => nofun
  · rintro ⟨hlong, rest, rfl⟩
    cases rest with
    | nil => exact absurd hlong (by decide)
    | cons c rest => rfl

/-! ### The scan -/

variable {joins capital : Bool} {cs rest run : List Char}

/-- Nothing behind a NUL is read. -/
theorem camelScan_takeWhile (joins capital : Bool) (cs : List Char) :
    camelScan joins capital (cs.takeWhile (· ≠ '\x00')) = camelScan joins capital cs := by
  induction cs generalizing joins capital with
  | nil => rfl
  | cons c cs ih =>
    by_cases hnul : c = '\x00'
    · rw [List.takeWhile_cons_of_neg (by simpa using hnul), hnul]
      rfl
    · rw [List.takeWhile_cons_of_pos (by simpa using hnul), camelScan, camelScan, ih, ih]

/-- A character that is no hyphen is kept, as a capital if one is due. -/
theorem camelScan_cons_of_ne {c : Char} (hnul : c ≠ '\x00') (hc : c ≠ '-') :
    camelScan joins capital (c :: cs) =
      (if capital then c.toUpper else c) :: camelScan true false cs := by
  rw [camelScan, if_neg hnul, if_neg fun h => hc h.1, asciiUpper_eq_toUpper]
  simp [hc]

/-- A run of other characters is kept, and only its first character can become a capital. -/
theorem camelScan_word (hne : run ≠ []) (hrun : ∀ c ∈ run, c ≠ '\x00' ∧ c ≠ '-') :
    camelScan joins capital (run ++ rest) =
      (if capital then run.modifyHead Char.toUpper else run) ++ camelScan true false rest := by
  have hkept : ∀ {cs : List Char}, (∀ c ∈ cs, c ≠ '\x00' ∧ c ≠ '-') →
      camelScan true false (cs ++ rest) = cs ++ camelScan true false rest := by
    intro cs hcs
    induction cs with
    | nil => rfl
    | cons c cs ih =>
      rw [List.forall_mem_cons] at hcs
      rw [List.cons_append, camelScan_cons_of_ne hcs.1.1 hcs.1.2, ih hcs.2]
      rfl
  cases run with
  | nil => exact absurd rfl hne
  | cons c cs =>
    rw [List.forall_mem_cons] at hrun
    rw [List.cons_append, camelScan_cons_of_ne hrun.1.1 hrun.1.2, hkept hrun.2]
    cases capital <;> rfl

/-- Behind a hyphen, and at the beginning, hyphens are kept. -/
theorem camelScan_hyphen (capital : Bool) (cs : List Char) :
    camelScan false capital ('-' :: cs) = '-' :: camelScan false false cs := by
  cases capital <;> rfl

theorem camelScan_hyphens (n : Nat) (rest : List Char) :
    camelScan false false (List.replicate n '-' ++ rest) =
      List.replicate n '-' ++ camelScan false false rest := by
  induction n with
  | zero => rfl
  | succ n ih => rw [List.replicate_succ, List.cons_append, camelScan_hyphen, ih, List.cons_append]

/-- Behind another character the first hyphen is dropped; a second one takes the capital. -/
theorem camelScan_hyphens_after (n : Nat) (rest : List Char) :
    camelScan true false (List.replicate (n + 1) '-' ++ rest) =
      List.replicate n '-' ++ camelScan false (n = 0) rest := by
  have hfirst : camelScan true false (List.replicate (n + 1) '-' ++ rest) =
      camelScan false true (List.replicate n '-' ++ rest) := rfl
  rw [hfirst]
  cases n with
  | zero => rfl
  | succ n =>
    rw [List.replicate_succ, List.cons_append, camelScan_hyphen, camelScan_hyphens,
      List.cons_append]
    rfl

/-! ### Runs -/

/-- Runs of hyphens and of other characters in turn; `hyphens` says whether one of hyphens may come
first. -/
inductive Alternating : Bool → List (List Char) → Prop
  | nil (hyphens : Bool) : Alternating hyphens []
  | hyphens (n : Nat) {rest : List (List Char)} (h : Alternating false rest) :
      Alternating true (List.replicate (n + 1) '-' :: rest)
  | word {hyphens : Bool} {run : List Char} {rest : List (List Char)} (hne : run ≠ [])
      (hrun : ∀ c ∈ run, c ≠ '-') (h : Alternating true rest) : Alternating hyphens (run :: rest)

/-- All characters of a run are hyphens, or none is. -/
theorem uniform_of_mem_runs (hrun : run ∈ runs cs) :
    (∃ n, run = List.replicate (n + 1) '-') ∨ run ≠ [] ∧ ∀ c ∈ run, c ≠ '-' := by
  cases run with
  | nil => exact absurd hrun (List.nil_notMem_splitBy _ cs)
  | cons c run =>
    have hchain := List.isChain_of_mem_splitBy hrun
    have : IsTrans Char fun a b => (isHyphen a == isHyphen b) = true :=
      ⟨fun a b d hab hbd => by simp_all⟩
    have hsame : ∀ d ∈ run, isHyphen c = isHyphen d := fun d hd =>
      beq_iff_eq.mp ((List.pairwise_cons.mp (List.isChain_iff_pairwise.mp hchain)).1 d hd)
    by_cases hc : c = '-'
    · refine Or.inl ⟨run.length, List.eq_replicate_iff.mpr ⟨rfl, fun d hd => ?_⟩⟩
      rcases List.mem_cons.mp hd with rfl | hd
      · exact hc
      · exact isHyphen_iff.mp ((hsame d hd).symm.trans (isHyphen_iff.mpr hc))
    · refine Or.inr ⟨List.cons_ne_nil c run, fun d hd hhyphen => hc ?_⟩
      rcases List.mem_cons.mp hd with rfl | hd
      · exact hhyphen
      · exact isHyphen_iff.mp ((hsame d hd).trans (isHyphen_iff.mpr hhyphen))

theorem alternating_of_isChain {rs : List (List Char)} {hyphens : Bool}
    (hruns : ∀ run ∈ rs, (∃ n, run = List.replicate (n + 1) '-') ∨ run ≠ [] ∧ ∀ c ∈ run, c ≠ '-')
    (hchain : rs.IsChain fun a b => ∃ ha hb, (isHyphen (a.getLast ha) == isHyphen (b.head hb)) = false)
    (hfirst : hyphens = false → ∀ run ∈ rs.head?, ∀ n, run ≠ List.replicate (n + 1) '-') :
    Alternating hyphens rs := by
  induction rs generalizing hyphens with
  | nil => exact .nil hyphens
  | cons run rs ih =>
    rw [List.forall_mem_cons] at hruns
    rcases hruns.1 with ⟨n, rfl⟩ | ⟨hne, hrun⟩
    · cases hyphens with
      | false => exact absurd rfl (hfirst rfl _ rfl n)
      | true =>
        refine .hyphens n (ih hruns.2 hchain.tail fun _ next hnext m hm => ?_)
        obtain ⟨ha, hb, hdiffer⟩ := (List.isChain_cons.mp hchain).1 next hnext
        subst hm
        simp at hdiffer
    · exact .word hne hrun (ih hruns.2 hchain.tail nofun)

theorem alternating_runs (cs : List Char) : Alternating true (runs cs) := by
  have hchain := List.isChain_getLast_head_splitBy (fun a b => isHyphen a == isHyphen b) cs
  exact alternating_of_isChain (fun _ => uniform_of_mem_runs) hchain nofun

theorem all_isHyphen_replicate (n : Nat) : (List.replicate n '-').all isHyphen = true := by
  rw [List.all_replicate]
  split <;> rfl

theorem all_isHyphen_word (hne : run ≠ []) (hrun : ∀ c ∈ run, c ≠ '-') :
    run.all isHyphen = false := by
  cases run with
  | nil => exact absurd rfl hne
  | cons c run =>
    have hc : isHyphen c = false := decide_eq_false (hrun c List.mem_cons_self)
    rw [List.all_cons, hc, Bool.false_and]

/-- The scan spells runs.  A capital is due only behind a hyphen that was dropped, and there a
hyphen would be kept. -/
theorem camelScan_flatten {rs : List (List Char)} (h : Alternating joins rs)
    (hnul : '\x00' ∉ rs.flatten) (hcapital : joins = true → capital = false) :
    camelScan joins capital rs.flatten = spellRuns capital rs := by
  induction h generalizing capital with
  | nil => rfl
  | @hyphens n rest _ ih =>
    obtain rfl : capital = false := hcapital rfl
    rw [List.flatten_cons, List.mem_append, not_or] at hnul
    rw [List.flatten_cons, camelScan_hyphens_after, ih hnul.2 nofun, spellRuns,
      if_pos (all_isHyphen_replicate _), List.length_replicate, Nat.add_sub_cancel]
    simp
  | @word _ run rest hne hrun _ ih =>
    rw [List.flatten_cons, List.mem_append, not_or] at hnul
    have hrun' : ∀ c ∈ run, c ≠ '\x00' ∧ c ≠ '-' :=
      fun c hc => ⟨fun h => hnul.1 (h ▸ hc), hrun c hc⟩
    rw [List.flatten_cons, camelScan_word hne hrun', ih hnul.2 fun _ => rfl, spellRuns,
      if_neg (ne_true_of_eq_false (all_isHyphen_word hne hrun))]

/-- At the beginning of a name the scan keeps the first run. -/
theorem camelScan_eq_respell (hnul : '\x00' ∉ cs) : camelScan false false cs = respell cs := by
  have hflatten : (runs cs).flatten = cs := List.flatten_splitBy _ cs
  have halternate := alternating_runs cs
  rw [respell]
  generalize runs cs = rs at hflatten halternate
  subst hflatten
  cases halternate with
  | nil => rfl
  | hyphens n h =>
    rw [List.flatten_cons, List.mem_append, not_or] at hnul
    rw [List.flatten_cons, camelScan_hyphens, camelScan_flatten h hnul.2 nofun]
  | @word _ run rest hne hrun h =>
    rw [List.flatten_cons, List.mem_append, not_or] at hnul
    have hrun' : ∀ c ∈ run, c ≠ '\x00' ∧ c ≠ '-' :=
      fun c hc => ⟨fun h => hnul.1 (h ▸ hc), hrun c hc⟩
    rw [List.flatten_cons, camelScan_word hne hrun', camelScan_flatten h hnul.2 fun _ => rfl]
    rfl

theorem nul_notMem_beforeNul (name : String) : '\x00' ∉ beforeNul name := fun h => by
  simpa using List.all_eq_true.mp List.all_takeWhile _ h

theorem camelCase_of_custom {name : String} (h : CustomProperty name) : camelCase name = name := by
  rw [camelCase, camelChars, if_pos ((isCustomProperty_iff name).mpr h), String.ofList_toList]

theorem camelCase_of_not_custom {name : String} (h : ¬ CustomProperty name) :
    camelCase name = String.ofList (camelScan false false (beforeNul name)) := by
  rw [camelCase, camelChars, if_neg fun h' => h ((isCustomProperty_iff name).mp h'), beforeNul,
    camelScan_takeWhile]

/-- **Camel case is spelling by runs.**  A custom property stays as it is.  Of any other name the
part before the first NUL is taken; there the first run stays, and a run of hyphens further on
loses one hyphen, where a single hyphen makes the character behind it a capital. -/
theorem camelCase_eq_spelledByRuns (name : String) : camelCase name = spelledByRuns name := by
  rw [spelledByRuns]
  by_cases hcustom : CustomProperty name
  · rw [if_pos hcustom, camelCase_of_custom hcustom]
  · rw [if_neg hcustom, camelCase_of_not_custom hcustom,
      camelScan_eq_respell (nul_notMem_beforeNul name)]

example : spelledByRuns "-a-b--c-" = "-aB-c" := by decide

end ScriptHost.Text

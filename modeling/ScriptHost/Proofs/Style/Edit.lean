/-
The outcomes of an edit.

Setting a property comes to nothing, or it appends one command and makes the change that the
command tells, or the command is refused and nothing changes; and removing one likewise.  Whatever
is proved of edits begins with these cases.
-/
import ScriptHost.Style.Edit

namespace ScriptHost.Style.Desk

variable {σ : Type} (w : Desk σ) (d : Declaration)

/-- How setting a property goes on once the atoms of name and value are in the hand. -/
inductive SetOutcome (key v : Atom) (s : σ) : Except Fault Unit × σ → Prop
  /-- The value is already set. -/
  | same (h : ((w.holdings s).properties d.style).value? key = some v) :
      SetOutcome key v s (.ok (), w.change (fun h => (h.letGo key).letGo v) s)
  | made {s' : σ} (h : ((w.holdings s).properties d.style).value? key ≠ some v)
      (happend : w.append (command d.target ((w.holdings s).heap.text key)
        ((w.holdings s).heap.text v)) s = (.ok (), s')) :
      SetOutcome key v s (.ok (), w.change (fun h => h.assign d.style key v) s')
  | refused {s' : σ} {fault : Fault}
      (h : ((w.holdings s).properties d.style).value? key ≠ some v)
      (happend : w.append (command d.target ((w.holdings s).heap.text key)
        ((w.holdings s).heap.text v)) s = (.error fault, s')) :
      SetOutcome key v s (.error fault, w.change (fun h => (h.letGo key).letGo v) s')

theorem set_outcome (name value : String) (s : σ) :
    ∃ key s₁ v s₂, w.holding (fun h => h.resolve d.names d.table name) s = (key, s₁) ∧
      w.holding (fun h => h.take d.table value) s₁ = (v, s₂) ∧
      SetOutcome w d key v s₂ (w.set d name value s) := by
  rcases hkey : w.holding (fun h => h.resolve d.names d.table name) s with ⟨key, s₁⟩
  rcases hvalue : w.holding (fun h => h.take d.table value) s₁ with ⟨v, s₂⟩
  refine ⟨key, s₁, v, s₂, rfl, hvalue, ?_⟩
  rw [set, hkey]
  dsimp only
  rw [hvalue]
  dsimp only
  by_cases hsame : ((w.holdings s₂).properties d.style).value? key = some v
  · rw [if_pos hsame]
    exact .same hsame
  · rw [if_neg hsame]
    rcases happend : w.append (command d.target ((w.holdings s₂).heap.text key)
      ((w.holdings s₂).heap.text v)) s₂ with ⟨result, s₃⟩
    cases result with
    | ok u => exact .made hsame happend
    | error fault => exact .refused hsame happend

/-- How removing a property goes on once the atom of its name is in the hand. -/
inductive RemoveOutcome (key : Atom) (s : σ) : Except Fault Atom × σ → Prop
  | unset {value : Atom} {s' : σ} (h : ((w.holdings s).properties d.style).value? key = none)
      (hempty : w.holding (fun h => (h.letGo key).takeEmpty d.table) s = (value, s')) :
      RemoveOutcome key s (.ok value, s')
  | made {value : Atom} {s' s'' : σ}
      (h : ((w.holdings s).properties d.style).value? key ≠ none)
      (happend : w.append (command d.target ((w.holdings s).heap.text key) "") s = (.ok (), s'))
      (hremove : w.holding (fun h => (h.letGo key).unassign d.style key) s' = (some value, s'')) :
      RemoveOutcome key s (.ok value, s'')
  /-- Whoever was told of the command has removed the property. -/
  | gone {value : Atom} {s' s'' s''' : σ}
      (h : ((w.holdings s).properties d.style).value? key ≠ none)
      (happend : w.append (command d.target ((w.holdings s).heap.text key) "") s = (.ok (), s'))
      (hremove : w.holding (fun h => (h.letGo key).unassign d.style key) s' = (none, s''))
      (hempty : w.holding (fun h => h.takeEmpty d.table) s'' = (value, s''')) :
      RemoveOutcome key s (.ok value, s''')
  | refused {s' : σ} {fault : Fault}
      (h : ((w.holdings s).properties d.style).value? key ≠ none)
      (happend : w.append (command d.target ((w.holdings s).heap.text key) "") s =
        (.error fault, s')) :
      RemoveOutcome key s (.error fault, w.change (fun h => h.letGo key) s')

theorem remove_outcome (name : String) (s : σ) :
    ∃ key s₁, w.holding (fun h => h.resolve d.names d.table name) s = (key, s₁) ∧
      RemoveOutcome w d key s₁ (w.remove d name s) := by
  rcases hkey : w.holding (fun h => h.resolve d.names d.table name) s with ⟨key, s₁⟩
  refine ⟨key, s₁, rfl, ?_⟩
  rw [remove, hkey]
  dsimp only
  cases hold : ((w.holdings s₁).properties d.style).value? key with
  | none => exact .unset hold rfl
  | some v =>
    have hne : ((w.holdings s₁).properties d.style).value? key ≠ none := by simp [hold]
    rcases happend : w.append (command d.target ((w.holdings s₁).heap.text key) "") s₁ with
      ⟨result, s₃⟩
    cases result with
    | error fault => exact .refused hne happend
    | ok u =>
      -- the property is looked up again, as the sink may have removed it meanwhile
      rcases hremove : w.holding (fun h => (h.letGo key).unassign d.style key) s₃ with ⟨old, s₄⟩
      dsimp only
      rw [hremove]
      cases old with
      | some value => exact .made hne happend hremove
      | none => exact .gone hne happend hremove rfl

/-! ### Edits that need a command -/

/-- Setting the property needs a command: another value is set, or none. -/
def SetNeeds (name value : String) (s : σ) : Prop :=
  let named := w.holding (fun h => h.resolve d.names d.table name) s
  let valued := w.holding (fun h => h.take d.table value) named.2
  ((w.holdings valued.2).properties d.style).value? named.1 ≠ some valued.1

/-- Removing the property needs a command: it is set. -/
def RemoveNeeds (name : String) (s : σ) : Prop :=
  let named := w.holding (fun h => h.resolve d.names d.table name) s
  ((w.holdings named.2).properties d.style).value? named.1 ≠ none

end ScriptHost.Style.Desk

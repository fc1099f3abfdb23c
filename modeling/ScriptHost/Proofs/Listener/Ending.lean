/-
How dispatches and invalid contexts go together.

A dispatch looks at its context when it begins and after each turn.  Two things follow for whatever
the listeners do: nobody is called while the context is invalid (`dispatch_calling`), and when a
dispatch ends and the context is invalid, nobody is registered (`handles_dispatch`).
-/
import ScriptHost.Proofs.Listener.Fanout

namespace ScriptHost.Surroundings

variable {σ L : Type} {w : Surroundings σ L}

/-- Logging changes neither the roster nor the context, and unlinking leaves nobody registered. -/
structure Tidy (w : Surroundings σ L) : Prop where
  roster_log (l : Log) (s : σ) : w.roster (w.log l s) = w.roster s
  isValid_log (l : Log) (s : σ) : w.isValid (w.log l s) = w.isValid s
  handles_unlink (s : σ) : (w.roster (w.unlink s)).handles = []

theorem dispatch_of_invalid {s : σ} (hs : w.isValid s = false) (module : String)
    (event extra : Option String) :
    w.dispatch module event extra s = (.error (.contextDisposed w.context), w.unlink s) := by
  rw [dispatch, if_pos (by simp [hs])]

/-! ### Who is called -/

/-- The same surroundings with other listeners. -/
def calling (w : Surroundings σ L) (call : L → ModuleEvent → σ → Option String × σ) :
    Surroundings σ L := { w with call }

section Calling

variable {call : L → ModuleEvent → σ → Option String × σ}
  (hcall : ∀ l e s, w.isValid s = true → call l e s = w.call l e s)
include hcall

theorem turn_calling {s : σ} (hs : w.isValid s = true) (e : ModuleEvent) (l : L) :
    (w.calling call).turn e l s = w.turn e l s := by
  have heq : (w.calling call).call l e s = w.call l e s := hcall l e s hs
  rw [turn, turn, heq]
  rfl

theorem turns_calling (e : ModuleEvent) (hs : List Handle) {s : σ} (hvalid : w.isValid s = true) :
    (w.calling call).turns e hs s = w.turns e hs s := by
  induction hs generalizing s with
  | nil => rfl
  | cons h rest ih =>
    -- every turn begins on a valid context, as the loop goes on only after looking at it
    rw [turns, turns]
    rw [show (w.calling call).roster s = w.roster s from rfl]
    cases (w.roster s).find? h with
    | none => exact ih hvalid
    | some l =>
      dsimp only
      rw [turn_calling hcall hvalid]
      show (if w.isValid (w.turn e l s).2 then _ else _) = _
      by_cases hafter : w.isValid (w.turn e l s).2 = true
      · rw [if_pos hafter, if_pos hafter, ih hafter]
      · rw [if_neg hafter, if_neg hafter]
        rfl

/-- What listeners would do on an invalid context makes no difference: they are not called. -/
theorem dispatch_calling (hw : w.Tidy) (module : String) (event extra : Option String) (s : σ) :
    (w.calling call).dispatch module event extra s = w.dispatch module event extra s := by
  by_cases hs : w.isValid s = true
  · have hread : w.isValid (w.readPayload extra s).2 = true :=
      (isValid_readPayload hw.isValid_log extra s).trans hs
    have hturns := turns_calling hcall ⟨module, event, Json.payload? extra⟩
      (w.roster (w.readPayload extra s).2).handles hread
    rw [dispatch_of_isValid hs, dispatch_of_isValid (w := w.calling call) hs]
    exact congrArg (fun p : List Delivery × σ =>
      let report := DispatchReport.ofDeliveries p.1
      (Except.ok report,
        w.log (.eventDispatched w.context module report.delivered report.failed) p.2)) hturns
  · have hs : w.isValid s = false := by simpa using hs
    rw [dispatch_of_invalid hs, dispatch_of_invalid (w := w.calling call) hs]
    rfl

end Calling

/-! ### Who stays registered -/

theorem handles_turns (hw : w.Tidy) (e : ModuleEvent) (hs : List Handle) {s : σ}
    (hvalid : w.isValid s = true) (hend : w.isValid (w.turns e hs s).2 = false) :
    (w.roster (w.turns e hs s).2).handles = [] := by
  induction hs generalizing s with
  | nil =>
    -- the loop has run out of handles on a valid context, which is not how it ended
    have hend : w.isValid s = false := hend
    simp [hvalid] at hend
  | cons h rest ih =>
    rw [turns] at hend ⊢
    cases hl : (w.roster s).find? h with
    | none =>
      rw [hl] at hend
      exact ih hvalid hend
    | some l =>
      rw [hl] at hend
      dsimp only at hend ⊢
      by_cases hafter : w.isValid (w.turn e l s).2 = true
      · rw [if_pos hafter] at hend ⊢
        exact ih hafter hend
      · rw [if_neg hafter]
        exact hw.handles_unlink _

/-- A dispatch that ends on an invalid context leaves nobody registered. -/
theorem handles_dispatch (hw : w.Tidy) (module : String) (event extra : Option String) {s : σ}
    (hend : w.isValid (w.dispatch module event extra s).2 = false) :
    (w.roster (w.dispatch module event extra s).2).handles = [] := by
  by_cases hs : w.isValid s = true
  · have hread : w.isValid (w.readPayload extra s).2 = true :=
      (isValid_readPayload hw.isValid_log extra s).trans hs
    rw [dispatch_of_isValid hs] at hend ⊢
    dsimp only at hend ⊢
    rw [hw.isValid_log] at hend
    rw [hw.roster_log]
    exact handles_turns hw _ _ hread hend
  · have hs : w.isValid s = false := by simpa using hs
    rw [dispatch_of_invalid hs]
    exact hw.handles_unlink s

end ScriptHost.Surroundings

/-
The registry of contexts.

A registry holds at most `max` contexts and names them `0`, `1`, `2`, … in the order of their
creation.  A name is never given twice, and a refused creation uses none up.
-/
import ScriptHost.Fault

namespace ScriptHost

structure Registry (C : Type) where
  max : Nat
  contexts : List (ContextId × C) := []
  nextId : Nat := 0
  deriving Inhabited

namespace Registry

variable {C : Type}

/-- The name of the next context; a full registry refuses. -/
def nextContext (r : Registry C) : Except Fault ContextId :=
  if r.max ≤ r.contexts.length then .error (.contextLimit r.max) else .ok r.nextId

/-- Enters the context that was created under the next name. -/
def enter (r : Registry C) (c : C) : Registry C :=
  { r with contexts := r.contexts ++ [((r.nextId : Int), c)], nextId := r.nextId + 1 }

def get? (r : Registry C) (id : ContextId) : Option C := r.contexts.lookup id

/-- Strikes a context out, and returns it. -/
def remove (r : Registry C) (id : ContextId) : Option C × Registry C :=
  (r.get? id, { r with contexts := r.contexts.filter (·.1 ≠ id) })

def size (r : Registry C) : Nat := r.contexts.length

def describe (r : Registry C) : String :=
  "ContextRegistry \x7b live: " ++ toString r.size ++ ", max_contexts: " ++ toString r.max ++
    " \x7d"

theorem nextContext_eq_ok_iff {r : Registry C} {id : ContextId} :
    r.nextContext = .ok id ↔ r.size < r.max ∧ id = r.nextId := by
  unfold nextContext size
  split <;> rename_i h
  · simp [Nat.not_lt.2 h]
  · simp [Nat.lt_of_not_le h, eq_comm]

theorem size_enter (r : Registry C) (c : C) : (r.enter c).size = r.size + 1 := by
  simp [size, enter]

end Registry
end ScriptHost

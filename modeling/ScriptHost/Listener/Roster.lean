/-
The roster of module listeners: who is registered, in the order of registration, under which
handle.  Handles count upward from one and are never given twice, also after `clear`.
-/

namespace ScriptHost

/-- Names a registered listener. -/
abbrev Handle := Nat

structure Roster (L : Type) where
  listeners : List (Handle × L) := []
  nextHandle : Handle := 1
  deriving Inhabited

namespace Roster

variable {L : Type}

/-- Adds a listener at the end. -/
def register (r : Roster L) (l : L) : Handle × Roster L :=
  (r.nextHandle,
    { listeners := r.listeners ++ [(r.nextHandle, l)], nextHandle := r.nextHandle + 1 })

def find? (r : Roster L) (h : Handle) : Option L := r.listeners.lookup h

def handles (r : Roster L) : List Handle := r.listeners.map (·.1)

/-- Removes a listener; says whether it was registered. -/
def unregister (r : Roster L) (h : Handle) : Bool × Roster L :=
  ((r.find? h).isSome, { r with listeners := r.listeners.filter (·.1 ≠ h) })

/-- Removes every listener. -/
def clear (r : Roster L) : Roster L := { r with listeners := [] }

def size (r : Roster L) : Nat := r.listeners.length

theorem handles_register (r : Roster L) (l : L) :
    (r.register l).2.handles = r.handles ++ [r.nextHandle] := by
  simp [register, handles]

theorem handles_unregister (r : Roster L) (h : Handle) :
    (r.unregister h).2.handles = r.handles.filter (· ≠ h) := by
  simp only [unregister, handles, List.filter_map]
  rfl

theorem handles_clear (r : Roster L) : r.clear.handles = [] := rfl

theorem find?_eq_none_iff {r : Roster L} {h : Handle} : r.find? h = none ↔ h ∉ r.handles := by
  rw [find?, handles, List.lookup_eq_none_iff]
  simp only [List.mem_map, not_exists, not_and, bne_iff_ne, ne_eq]
  exact ⟨fun hn p hp e => hn p hp e.symm, fun hn p hp e => hn p hp e.symm⟩

end Roster
end ScriptHost

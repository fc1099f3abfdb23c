/-
Inline style declarations: the properties of one render target, in the order in which they were
first set.  Names and values are atoms, and a property is found by the identity of its name.
-/
import ScriptHost.Atom.Heap

namespace ScriptHost.Style

/-- Properties, each name once. -/
abbrev Properties := List (Atom × Atom)

namespace Properties

def value? (ps : Properties) (name : Atom) : Option Atom := ps.lookup name

/-- Replaces the value in its place, or adds the property at the end. -/
def put (name value : Atom) : Properties → Properties
  | [] => [(name, value)]
  | (n, v) :: rest => if n = name then (n, value) :: rest else (n, v) :: put name value rest

def erase (name : Atom) : Properties → Properties
  | [] => []
  | (n, v) :: rest => if n = name then rest else (n, v) :: erase name rest

/-- Every atom that the properties hold, once per occurrence. -/
def atoms (ps : Properties) : List Atom := ps.flatMap fun (n, v) => [n, v]

/-- The properties as `name: value;` one after the other. -/
def css (h : Atom.Heap) (ps : Properties) : String :=
  String.join (ps.map fun (n, v) => h.text n ++ ": " ++ h.text v ++ ";")

theorem value?_put_self (name value : Atom) (ps : Properties) :
    (ps.put name value).value? name = some value := by
  induction ps with
  | nil => simp [put, value?]
  | cons p rest ih =>
    obtain ⟨n, v⟩ := p
    by_cases h : n = name
    · simp [put, value?, h]
    · have hne : (name == n) = false := by simpa using Ne.symm h
      simpa [put, value?, h, hne, List.lookup_cons] using ih

theorem value?_put_of_ne {name other : Atom} (h : other ≠ name) (value : Atom) (ps : Properties) :
    (ps.put name value).value? other = ps.value? other := by
  induction ps with
  | nil =>
    have hne : (other == name) = false := by simpa using h
    simp [put, value?, List.lookup_cons, hne]
  | cons p rest ih =>
    obtain ⟨n, v⟩ := p
    by_cases hn : n = name
    · have hne : (other == n) = false := by simpa [hn] using h
      rw [put, if_pos hn, value?, value?, List.lookup_cons, List.lookup_cons, hne]
    · rw [put, if_neg hn, value?, value?, List.lookup_cons, List.lookup_cons]
      cases other == n
      · exact ih
      · rfl

theorem value?_erase_of_ne {name other : Atom} (h : other ≠ name) (ps : Properties) :
    (ps.erase name).value? other = ps.value? other := by
  induction ps with
  | nil => rfl
  | cons p rest ih =>
    obtain ⟨n, v⟩ := p
    by_cases hn : n = name
    · have hne : (other == n) = false := by simpa [hn] using h
      rw [erase, if_pos hn, value?, value?, List.lookup_cons, hne]
    · rw [erase, if_neg hn, value?, value?, List.lookup_cons, List.lookup_cons]
      cases other == n
      · exact ih
      · rfl

end Properties

end ScriptHost.Style

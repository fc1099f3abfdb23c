/-
Interned texts, counted.

A `Heap` holds cells: a text, the table that it was interned in, and the number of its holders.
An `Atom` is the place of a cell, so two atoms are the same atom exactly when they name the same
cell.  A cell without holders is dead: it stays where it is and is never used again, and the next
`intern` of its text makes a new cell.  At most one cell of a table and a text is live.
-/

namespace ScriptHost

/-- An interned text, by the place of its cell. -/
structure Atom where
  place : Nat
  deriving DecidableEq, Inhabited, Repr

/-- Names an atom table. -/
abbrev TableId := Nat

namespace Atom

structure Cell where
  table : TableId
  text : String
  holders : Nat
  deriving DecidableEq, Inhabited

namespace Cell

def isLive (c : Cell) : Bool := c.holders ≠ 0

/-- The live cell of that table and text. -/
def isFor (table : TableId) (text : String) (c : Cell) : Bool :=
  c.table = table ∧ c.isLive ∧ c.text = text

end Cell

structure Heap where
  cells : Array Cell := #[]
  deriving Inhabited

namespace Heap

/-- The live atom of a text, if there is one. -/
def find? (h : Heap) (table : TableId) (text : String) : Option Atom :=
  (h.cells.findIdx? (Cell.isFor table text)).map Atom.mk

/-- One more holder. -/
def retain (h : Heap) (a : Atom) : Heap :=
  ⟨h.cells.modify a.place fun c => { c with holders := c.holders + 1 }⟩

/-- One holder less. -/
def release (h : Heap) (a : Atom) : Heap :=
  ⟨h.cells.modify a.place fun c => { c with holders := c.holders - 1 }⟩

def releaseAll (h : Heap) (atoms : List Atom) : Heap := atoms.foldl release h

/-- The atom of a text, with one more holder: the live one, or a new one. -/
def intern (h : Heap) (table : TableId) (text : String) : Atom × Heap :=
  match h.find? table text with
  | some a => (a, h.retain a)
  | none => (⟨h.cells.size⟩, ⟨h.cells.push ⟨table, text, 1⟩⟩)

/-- The text of an atom. -/
def text (h : Heap) (a : Atom) : String := (h.cells[a.place]?.map Cell.text).getD ""

/-- The number of holders of an atom. -/
def holders (h : Heap) (a : Atom) : Nat := (h.cells[a.place]?.map Cell.holders).getD 0

/-- The text has a live atom in the table. -/
def contains (h : Heap) (table : TableId) (text : String) : Bool := (h.find? table text).isSome

/-- The number of live atoms of a table. -/
def live (h : Heap) (table : TableId) : Nat :=
  h.cells.countP fun c => c.table = table ∧ c.isLive

theorem text_retain (h : Heap) (a b : Atom) : (h.retain a).text b = h.text b := by
  simp only [text, retain, Array.getElem?_modify]
  split
  · cases h.cells[b.place]? <;> rfl
  · rfl

theorem text_release (h : Heap) (a b : Atom) : (h.release a).text b = h.text b := by
  simp only [text, release, Array.getElem?_modify]
  split
  · cases h.cells[b.place]? <;> rfl
  · rfl

theorem holders_retain_of_ne {a b : Atom} (hne : a ≠ b) (h : Heap) :
    (h.retain a).holders b = h.holders b := by
  have hp : a.place ≠ b.place := fun e => hne (by cases a; cases b; simp_all)
  simp only [holders, retain, Array.getElem?_modify, if_neg hp]

theorem holders_release_of_ne {a b : Atom} (hne : a ≠ b) (h : Heap) :
    (h.release a).holders b = h.holders b := by
  have hp : a.place ≠ b.place := fun e => hne (by cases a; cases b; simp_all)
  simp only [holders, release, Array.getElem?_modify, if_neg hp]

theorem holders_release (h : Heap) (a : Atom) : (h.release a).holders a = h.holders a - 1 := by
  simp only [holders, release, Array.getElem?_modify]
  cases h.cells[a.place]? <;> rfl

end Heap
end Atom
end ScriptHost

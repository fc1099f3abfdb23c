/-
Atom tables and the caches of property names.

A table holds its empty atom and one atom for every occurrence of a pinned name.  A cache
remembers, by spelling, the atom of the camel-case form of a property name.
-/
import ScriptHost.Atom.Heap
import ScriptHost.Text.CamelCase

namespace ScriptHost.Atom

/-- Style properties pinned in every table. -/
def commonStyles : List String :=
  ["display", "position", "width", "height", "margin", "padding", "border", "background",
    "backgroundColor", "color", "fontSize", "fontFamily", "fontWeight", "flex", "flexDirection",
    "opacity", "zIndex", "overflow", "transform", "transition", "top", "left", "right", "bottom"]

/-- Attributes pinned in every table. -/
def commonAttributes : List String :=
  ["id", "class", "style", "src", "href", "alt", "title", "type", "name", "value", "disabled",
    "checked"]

/-- The atoms that a table holds. -/
structure Table where
  empty : Atom
  pinned : List Atom
  deriving Inhabited

/-- Interns texts one after the other. -/
def Heap.internAll (h : Heap) (table : TableId) : List String → List Atom × Heap
  | [] => ([], h)
  | s :: rest =>
    let (a, h) := h.intern table s
    let (atoms, h) := h.internAll table rest
    (a :: atoms, h)

/-- A new table of that name, with the common names and some more pinned. -/
def Table.make (h : Heap) (id : TableId) (extra : List String) : Table × Heap :=
  let (empty, h) := h.intern id ""
  let (pinned, h) := h.internAll id (commonStyles ++ commonAttributes ++ extra)
  (⟨empty, pinned⟩, h)

/-- Everything a table holds. -/
def Table.atoms (t : Table) : List Atom := t.empty :: t.pinned

/-- Property names met so far, by spelling. -/
abbrev NameCache := List (String × Atom)

/-- Looks a name up by its spelling; a new one is brought into camel case, interned in the table
and remembered.  The atom returned has one more holder. -/
def NameCache.resolve (cache : NameCache) (h : Heap) (table : TableId) (name : String) :
    Atom × NameCache × Heap :=
  match cache.lookup name with
  | some a => (a, cache, h.retain a)
  | none =>
    let (a, h) := h.intern table (Text.camelCase name)
    (a, (name, a) :: cache, h.retain a)

end ScriptHost.Atom

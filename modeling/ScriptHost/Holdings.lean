/-
Who holds which atom.

`Holdings` puts the heap of atoms together with everything that holds atoms: atom tables, name
caches, style declarations, named handles, and the hand of the operations under way.  An operation
takes the atoms that it works with into the hand and lets each of them go, or leaves it with a new
holder; so the count of a cell is always the number of places that hold it.

Dropping a table, a cache or a declaration releases what it held and leaves its place empty.
-/
import ScriptHost.Atom.Table
import ScriptHost.Style.Declaration

namespace ScriptHost

open Atom (Heap Table NameCache)

/-- Names a name cache. -/
abbrev CacheId := Nat
/-- Names a style declaration. -/
abbrev StyleId := Nat

structure Holdings where
  heap : Heap := {}
  tables : Array (Option Table) := #[]
  caches : Array (Option NameCache) := #[]
  styles : Array (Option Style.Properties) := #[]
  /-- Handles that are kept by name. -/
  handles : List (String × Atom) := []
  /-- Atoms that operations under way hold. -/
  hand : List Atom := []
  deriving Inhabited

namespace Holdings

/-! ### The hand -/

/-- Takes one more hold of an atom. -/
def grab (s : Holdings) (a : Atom) : Holdings :=
  { s with heap := s.heap.retain a, hand := a :: s.hand }

/-- Gives up one hold of the hand. -/
def letGo (s : Holdings) (a : Atom) : Holdings :=
  { s with heap := s.heap.release a, hand := s.hand.erase a }

/-- Interns a text into the hand. -/
def take (s : Holdings) (t : TableId) (text : String) : Atom × Holdings :=
  let (a, heap) := s.heap.intern t text
  (a, { s with heap, hand := a :: s.hand })

/-- Takes the empty atom of a table. -/
def takeEmpty (s : Holdings) (t : TableId) : Atom × Holdings :=
  match s.tables[t]?.join with
  | some table => (table.empty, s.grab table.empty)
  | none => s.take t ""

/-! ### Tables and caches -/

/-- A new table, with the common names and some more pinned. -/
def newTable (s : Holdings) (extra : List String) : TableId × Holdings :=
  let id := s.tables.size
  let (table, heap) := Table.make s.heap id extra
  (id, { s with heap, tables := s.tables.push (some table) })

def newCache (s : Holdings) : CacheId × Holdings :=
  (s.caches.size, { s with caches := s.caches.push (some []) })

def cache (s : Holdings) (c : CacheId) : NameCache := (s.caches[c]?.join).getD []

/-- Takes the atom of the camel-case form of a name, by way of a cache. -/
def resolve (s : Holdings) (c : CacheId) (t : TableId) (name : String) : Atom × Holdings :=
  let (a, cache, heap) := (s.cache c).resolve s.heap t name
  (a, { s with heap, caches := s.caches.setIfInBounds c (some cache), hand := a :: s.hand })

def dropTable (s : Holdings) (t : TableId) : Holdings :=
  match s.tables[t]?.join with
  | some table =>
    { s with heap := s.heap.releaseAll table.atoms, tables := s.tables.setIfInBounds t none }
  | none => s

def dropCache (s : Holdings) (c : CacheId) : Holdings :=
  { s with
    heap := s.heap.releaseAll ((s.cache c).map (·.2)), caches := s.caches.setIfInBounds c none }

/-! ### Handles -/

def handle? (s : Holdings) (name : String) : Option Atom := s.handles.lookup name

/-- Drops a handle. -/
def dropHandle (s : Holdings) (name : String) : Holdings :=
  match s.handle? name with
  | some a =>
    { s with heap := s.heap.release a, handles := s.handles.filter (·.1 ≠ name) }
  | none => s

/-- Keeps an atom of the hand under a name; an older handle of that name is dropped. -/
def keep (s : Holdings) (name : String) (a : Atom) : Holdings :=
  let s := s.dropHandle name
  { s with hand := s.hand.erase a, handles := (name, a) :: s.handles }

/-! ### Style declarations -/

def newStyle (s : Holdings) : StyleId × Holdings :=
  (s.styles.size, { s with styles := s.styles.push (some []) })

def properties (s : Holdings) (i : StyleId) : Style.Properties := (s.styles[i]?.join).getD []

def setProperties (s : Holdings) (i : StyleId) (ps : Style.Properties) : Holdings :=
  { s with styles := s.styles.setIfInBounds i (some ps) }

/-- Takes the value of a property, or the empty atom of the table. -/
def takeValue (s : Holdings) (i : StyleId) (name : Atom) (t : TableId) : Atom × Holdings :=
  match (s.properties i).value? name with
  | some v => (v, s.grab v)
  | none => s.takeEmpty t

/-- Leaves name and value, out of the hand, with a declaration. -/
def assign (s : Holdings) (i : StyleId) (name value : Atom) : Holdings :=
  let ps := s.properties i
  let old := ps.value? name
  let s := s.setProperties i (ps.put name value)
  let s := { s with hand := (s.hand.erase name).erase value }
  match old with
  | some v => { s with heap := (s.heap.release name).release v }
  | none => s

/-- Removes a property; its value passes into the hand. -/
def unassign (s : Holdings) (i : StyleId) (name : Atom) : Option Atom × Holdings :=
  let ps := s.properties i
  match ps.value? name with
  | some v =>
    let s := s.setProperties i (ps.erase name)
    (some v, { s with heap := s.heap.release name, hand := v :: s.hand })
  | none => (none, s)

/-- Gives one property of another declaration to this one. -/
def copyProperty (s : Holdings) (i : StyleId) (name value : Atom) : Holdings :=
  let ps := s.properties i
  let s' := s.setProperties i (ps.put name value)
  match ps.value? name with
  | some old => { s' with heap := (s.heap.retain value).release old }
  | none => { s' with heap := (s.heap.retain name).retain value }

/-- Gives every property of `source` to `i`, in order. -/
def copyStyle (s : Holdings) (i source : StyleId) : Holdings :=
  (s.properties source).foldl (fun s (n, v) => s.copyProperty i n v) s

def dropStyle (s : Holdings) (i : StyleId) : Holdings :=
  { s with
    heap := s.heap.releaseAll (s.properties i).atoms, styles := s.styles.setIfInBounds i none }

end Holdings
end ScriptHost

/-
Editing a style declaration.

A declaration belongs to a render target of a context.  `set` and `remove` bring the name into
camel case by way of the context's name cache and tell the renderer of every change by a command;
a change that the queue refuses is not made, and a value that is already set is no change.
Reading a property and copying a declaration send no command.

As the queue may signal, and whoever is told may do anything, the operations act on a state that
holds the atoms among other things; `Desk` says what they need of it.
-/
import ScriptHost.Holdings
import ScriptHost.Command.Queue

namespace ScriptHost.Style

/-- What editing needs of a state `σ` in which atoms are held. -/
structure Desk (σ : Type) where
  holdings : σ → Holdings
  setHoldings : Holdings → σ → σ
  /-- Appends a command to the queue of the context. -/
  append : Command → σ → Except Fault Unit × σ

/-- A declaration: its properties, the target that it styles, and the table and the name cache of
its context. -/
structure Declaration where
  style : StyleId
  target : Int
  table : TableId
  names : CacheId

/-- The command that sets a property of a target; an empty value unsets it. -/
def command (target : Int) (name value : String) : Command :=
  .make target .setStyle (some name) (some value) none

namespace Desk

variable {σ : Type} (w : Desk σ)

/-- Runs an operation on the holdings. -/
def holding {α : Type} (f : Holdings → α × Holdings) (s : σ) : α × σ :=
  let (a, h) := f (w.holdings s)
  (a, w.setHoldings h s)

def change (f : Holdings → Holdings) (s : σ) : σ := w.setHoldings (f (w.holdings s)) s

/-- Takes the value of a property into the hand; the empty atom if it is not set. -/
def get (d : Declaration) (name : String) (s : σ) : Atom × σ :=
  w.holding (fun h =>
    let (key, h) := h.resolve d.names d.table name
    let (value, h) := h.takeValue d.style key d.table
    (value, h.letGo key)) s

/-- Sets a property. -/
def set (d : Declaration) (name value : String) (s : σ) : Except Fault Unit × σ :=
  let (key, s) := w.holding (fun h => h.resolve d.names d.table name) s
  let (value, s) := w.holding (fun h => h.take d.table value) s
  let h := w.holdings s
  if (h.properties d.style).value? key = some value then
    (.ok (), w.change (fun h => (h.letGo key).letGo value) s)
  else
    match w.append (command d.target (h.heap.text key) (h.heap.text value)) s with
    | (.ok (), s) => (.ok (), w.change (fun h => h.assign d.style key value) s)
    | (.error fault, s) => (.error fault, w.change (fun h => (h.letGo key).letGo value) s)

/-- Removes a property; its value passes into the hand, the empty atom if it was not set. -/
def remove (d : Declaration) (name : String) (s : σ) : Except Fault Atom × σ :=
  let (key, s) := w.holding (fun h => h.resolve d.names d.table name) s
  let h := w.holdings s
  match (h.properties d.style).value? key with
  | none =>
    let (value, s) := w.holding (fun h => (h.letGo key).takeEmpty d.table) s
    (.ok value, s)
  | some _ =>
    match w.append (command d.target (h.heap.text key) "") s with
    | (.error fault, s) => (.error fault, w.change (fun h => h.letGo key) s)
    | (.ok (), s) =>
      let (old, s) := w.holding (fun h => (h.letGo key).unassign d.style key) s
      match old with
      | some value => (.ok value, s)
      | none =>
        let (value, s) := w.holding (fun h => h.takeEmpty d.table) s
        (.ok value, s)

end Desk
end ScriptHost.Style

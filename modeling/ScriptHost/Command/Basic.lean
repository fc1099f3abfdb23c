/-
Commands: the changes that a script makes to what is rendered, as the renderer receives them.
-/
import ScriptHost.Text.Units

namespace ScriptHost

/-- What a command does, in the order of the renderer's numbers. -/
inductive CommandKind where
  | createElement
  | createTextNode
  | createComment
  | disposeEventTarget
  | addEvent
  | removeNode
  | insertAdjacentNode
  | setStyle
  | setAttribute
  | removeAttribute
  | cloneNode
  | removeEvent
  | createDocumentFragment
  deriving DecidableEq, Inhabited, Repr

namespace CommandKind

def all : List CommandKind :=
  [createElement, createTextNode, createComment, disposeEventTarget, addEvent, removeNode,
    insertAdjacentNode, setStyle, setAttribute, removeAttribute, cloneNode, removeEvent,
    createDocumentFragment]

def name : CommandKind → String
  | createElement => "CreateElement"
  | createTextNode => "CreateTextNode"
  | createComment => "CreateComment"
  | disposeEventTarget => "DisposeEventTarget"
  | addEvent => "AddEvent"
  | removeNode => "RemoveNode"
  | insertAdjacentNode => "InsertAdjacentNode"
  | setStyle => "SetStyle"
  | setAttribute => "SetAttribute"
  | removeAttribute => "RemoveAttribute"
  | cloneNode => "CloneNode"
  | removeEvent => "RemoveEvent"
  | createDocumentFragment => "CreateDocumentFragment"

def ofName? (s : String) : Option CommandKind := all.find? (·.name = s)

/-- The renderer's number of a kind. -/
def number (k : CommandKind) : Nat := all.idxOf k

end CommandKind

/-- One command.  An absent payload is not an empty one. -/
structure Command where
  target : Int
  kind : CommandKind
  first : Option Text.Units := none
  second : Option Text.Units := none
  /-- The address of a host object, which only the renderer understands. -/
  native : Option Nat := none
  deriving DecidableEq, Inhabited

namespace Command

/-- A command with copies of its payload texts. -/
def make (target : Int) (kind : CommandKind) (first second : Option String)
    (native : Option Nat) : Command :=
  { target, kind, first := first.map .ofString, second := second.map .ofString, native }

end Command
end ScriptHost

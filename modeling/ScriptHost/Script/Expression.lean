/-
The value of an expression.

An expression only puts values together: no function is called, and nothing is thrown.  A name
under which nothing has been kept stands for the undefined value.
-/
import ScriptHost.Script.Value

namespace ScriptHost.Script

/-- What operations have kept under names. -/
abbrev Variables := List (String × Value)

/-- A function property. -/
def method (name : String) (f : Callable) : String × Value := (name, .function f)

/-- Sets a property if there is a value for it. -/
def setProperty (key : String) (value : Option Value) (props : List (String × Value)) :
    List (String × Value) :=
  match value with
  | some v => defineProperty key v props
  | none => props

namespace Expr

mutual

def value (vars : Variables) : Expr → Value
  | undefined => .undefined
  | null => .null
  | bool b => .bool b
  | number x => .number x
  | text s => .text s
  | bigint i => .bigint i
  | symbol s => .symbol s
  | array items => .array (values vars items)
  | object members => .object .plain (memberValues vars members)
  | kept name => (vars.lookup name).getD .undefined
  | function result => .function (.returns result)
  | textual result => .object .plain [method "toString" (.returns result)]
  | jsonic result => .object .plain [method "toJSON" (.returns result)]
  | throwing e => .object .plain [method "toString" (.throws e), method "toJSON" (.throws e)]
  | effectful body result => .object .plain [method "toString" (.runs body result)]
  | cyclic => .cyclic
  | error cls message name =>
    let props := setProperty "message" (value? vars message) []
    .object (.error cls) (setProperty "name" (value? vars name) props)

def value? (vars : Variables) : Option Expr → Option Value
  | none => none
  | some e => some (value vars e)

def values (vars : Variables) : List Expr → List Value
  | [] => []
  | e :: rest => value vars e :: values vars rest

def memberValues (vars : Variables) : List (String × Expr) → List (String × Value)
  | [] => []
  | (key, e) :: rest => (key, value vars e) :: memberValues vars rest

end

end Expr
end ScriptHost.Script

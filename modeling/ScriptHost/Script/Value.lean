/-
Values of scripts.

Functions are kept as what they do when they are called.  An object has a class and its own
properties in the order of their definition; the only object that contains itself is a value of
its own.
-/
import ScriptHost.Script.Program
import ScriptHost.Json.Basic
import ScriptHost.Text.Clipped

namespace ScriptHost.Script

/-- Functions that the host installs. -/
inductive Binding where
  | now
  | toJSON
  | mark
  | measure
  | clearMarks
  | clearMeasures
  | getEntries
  | getEntriesByName
  | getEntriesByType
  | summary
  | addModuleListener
  | removeModuleListener
  | invokeModule
  | setStyle
  | setAttribute
  | removeAttribute
  | flushUICommand
  deriving DecidableEq, Inhabited, Repr

/-- The name of a binding. -/
def Binding.name : Binding → String
  | now => "now"
  | toJSON => "toJSON"
  | mark => "mark"
  | measure => "measure"
  | clearMarks => "clearMarks"
  | clearMeasures => "clearMeasures"
  | getEntries => "getEntries"
  | getEntriesByName => "getEntriesByName"
  | getEntriesByType => "getEntriesByType"
  | summary => "summary"
  | addModuleListener => "addModuleListener"
  | removeModuleListener => "removeModuleListener"
  | invokeModule => "invokeModule"
  | setStyle => "setStyle"
  | setAttribute => "setAttribute"
  | removeAttribute => "removeAttribute"
  | flushUICommand => "flushUICommand"

inductive ObjectClass where
  | plain
  /-- An instance of an error class. -/
  | error (name : String)
  | promise

mutual

/-- What a function does when it is called. -/
inductive Callable where
  | returns (result : Expr)
  | throws (thrown : Expr)
  /-- Runs a body, then returns. -/
  | runs (body : List Stmt) (result : Expr)
  /-- Records its arguments under a label, then runs a body. -/
  | hears (label : String) (body : List Stmt)
  | binding (b : Binding)
  /-- A method that values of some kinds inherit, with the number of its parameters. -/
  | method (name : String) (arity : Nat)
  /-- A function with its receiver and its first arguments given beforehand. -/
  | bound (f : Callable) (receiver : Value) (args : List Value)

inductive Value where
  | undefined
  | null
  | bool (b : Bool)
  | number (x : Binary64)
  | text (s : String)
  | bigint (i : Int)
  | symbol (text : String)
  | array (items : List Value)
  /-- An array of that length without any item. -/
  | vacant (length : Nat)
  /-- The place of an absent item among the items of an array. -/
  | hole
  | object (cls : ObjectClass) (props : List (String × Value))
  | function (f : Callable)
  | cyclic

end

instance : Inhabited Value := ⟨.undefined⟩

/-- The name of a function; those of the host and of scripts have none. -/
def Callable.name : Callable → String
  | .method name _ => name
  | .bound f _ _ => "bound " ++ f.name
  | _ => ""

/-- The number of parameters of a function. -/
def Callable.arity : Callable → Nat
  | .method _ arity => arity
  | .bound f _ args => f.arity - args.length
  | _ => 0

namespace Value

def isObject : Value → Bool
  | array _ | vacant _ | object .. | function _ | cyclic => true
  | _ => false

/-- Absent, null and undefined arguments count the same. -/
def isNullish : Value → Bool
  | undefined | null => true
  | _ => false

def callable? : Value → Option Callable
  | function f => some f
  | _ => none

/-- A number counts as a number only if it is of that type. -/
def number? : Value → Option Binary64
  | number x => some x
  | _ => none

def ofNat (n : Nat) : Value := number (Binary64.ofNat n)

/-- A new error of a class with a message. -/
def error (cls message : String) : Value := object (.error cls) [("message", text message)]

def typeError (message : String) : Value := error "TypeError" message

/-- A global is not there. -/
def referenceError (name : String) : Value :=
  error "ReferenceError" (Text.clip (Text.clipName name ++ " is not defined"))

/-- A member is read of one of the two values that have none. -/
def unreadable (key owner : String) : Value :=
  typeError (Text.clip ("cannot read property '" ++ Text.clipName key ++ "' of " ++ owner))

/-- The items of an array; an absent one is undefined. -/
def items? : Value → Option (List Value)
  | array items => some (items.map fun v => match v with | hole => undefined | v => v)
  | vacant n => some (List.replicate n undefined)
  | _ => none

/-- Whether a value counts as true in a condition. -/
def truth : Value → Bool
  | undefined | null | hole => false
  | bool b => b
  | number x => ¬ x.isZero ∧ ¬ x.isNaN
  | text s => s ≠ ""
  | bigint i => i ≠ 0
  | _ => true

/-- What `typeof` says of a value. -/
def typeName : Value → String
  | undefined | hole => "undefined"
  | bool _ => "boolean"
  | number _ => "number"
  | text _ => "string"
  | bigint _ => "bigint"
  | symbol _ => "symbol"
  | function _ => "function"
  | null | array _ | vacant _ | object .. | cyclic => "object"

mutual

/-- A value read from JSON; every number becomes a double. -/
def ofJson : Json → Value
  | .null => null
  | .bool b => bool b
  | .int i => number (Binary64.ofInt i)
  | .real x => number x
  | .text s => text s
  | .array items => array (ofItems items)
  | .object members => object .plain (ofMembers members)

def ofItems : List Json → List Value
  | [] => []
  | j :: rest => ofJson j :: ofItems rest

def ofMembers : List (String × Json) → List (String × Value)
  | [] => []
  | (k, j) :: rest => (k, ofJson j) :: ofMembers rest

end

/-- The number of an array index: decimal digits without a leading zero, below `2 ^ 32 - 1`. -/
def arrayIndex? (key : String) : Option Nat :=
  let digits := key.toList
  if digits = [] ∨ ¬ digits.all Char.isDigit then none
  else if digits.head? = some '0' ∧ 1 < digits.length then none
  else
    let n := digits.foldl (fun n c => n * 10 + (c.toNat - 48)) 0
    if n < Nat.pow 2 32 - 1 then some n else none

/-- The properties of an object in the order in which they are enumerated: array indices first,
ascending, then all others as defined. -/
def enumerated (props : List (String × Value)) : List (String × Value) :=
  let indexed := props.filterMap fun (k, v) => (arrayIndex? k).map fun n => (n, k, v)
  let others := props.filter fun (k, _) => (arrayIndex? k).isNone
  (indexed.mergeSort fun a b => a.1 ≤ b.1).map (fun (_, k, v) => (k, v)) ++ others

end Value

/-- Defines a property, in place of an older one of that name. -/
def defineProperty (key : String) (value : Value) :
    List (String × Value) → List (String × Value)
  | [] => [(key, value)]
  | (k, v) :: rest =>
    if k = key then (k, value) :: rest else (k, v) :: defineProperty key value rest

/-- The length of an array that a number asks for: a natural number below `2 ^ 32`. -/
def arrayLength? (x : Binary64) : Option Nat :=
  match x.integer? with
  | some (.ofNat n) => if n < Nat.pow 2 32 then some n else none
  | _ => none

/-- How a script failed, as the host is told. -/
inductive ErrorClass where
  | runtime
  | syntaxError
  | typeError
  | reference
  | range
  | internal
  deriving DecidableEq

structure ScriptError where
  cls : ErrorClass
  text : String
  deriving DecidableEq

namespace ScriptError

def word : ErrorClass → String
  | .runtime => "JavaScript error: "
  | .syntaxError => "Syntax error: "
  | .typeError => "Type error: "
  | .reference => "Reference error: "
  | .range => "Range error: "
  | .internal => "Internal error: "

/-- The text of an error with its class in front. -/
def message (e : ScriptError) : String := word e.cls ++ e.text

/-- The error that an error object of that name and message stands for. -/
def ofNamed (name message : String) : ScriptError :=
  if name = "SyntaxError" then ⟨.syntaxError, message⟩
  else if name = "TypeError" then ⟨.typeError, message⟩
  else if name = "ReferenceError" then ⟨.reference, message⟩
  else if name = "RangeError" then ⟨.range, message⟩
  else if name = "InternalError" then ⟨.internal, message⟩
  else if name = "" then ⟨.runtime, message⟩
  else ⟨.runtime, name ++ ": " ++ message⟩

end ScriptError
end ScriptHost.Script

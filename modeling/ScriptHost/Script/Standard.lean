/-
The standard globals of the script language, as far as they can be seen from outside: which names
there are, and the functions among them with the number of their parameters.
-/
import ScriptHost.Script.Value

namespace ScriptHost.Script

/-- Names of functions, each with the number of its parameters. -/
abbrev Methods := List (String × Nat)

def standardClasses : Methods := [
  ("Object", 1), ("Function", 1), ("Array", 1), ("String", 1), ("Number", 1), ("Boolean", 1),
  ("Symbol", 0), ("BigInt", 1), ("Date", 7), ("RegExp", 2), ("Proxy", 2), ("Promise", 1),
  ("Map", 0), ("Set", 0), ("WeakMap", 0), ("WeakSet", 0), ("WeakRef", 1),
  ("FinalizationRegistry", 1), ("Iterator", 0), ("ArrayBuffer", 1), ("SharedArrayBuffer", 1),
  ("DataView", 1), ("Int8Array", 3), ("Uint8Array", 3), ("Uint8ClampedArray", 3),
  ("Int16Array", 3), ("Uint16Array", 3), ("Int32Array", 3), ("Uint32Array", 3),
  ("BigInt64Array", 3), ("BigUint64Array", 3), ("Float32Array", 3), ("Float64Array", 3)]

def errorClasses : Methods := [
  ("Error", 1), ("EvalError", 1), ("RangeError", 1), ("ReferenceError", 1), ("SyntaxError", 1),
  ("TypeError", 1), ("URIError", 1), ("InternalError", 1), ("AggregateError", 2)]

def standardFunctions : Methods := [
  ("parseInt", 2), ("parseFloat", 1), ("isNaN", 1), ("isFinite", 1), ("decodeURI", 1),
  ("decodeURIComponent", 1), ("encodeURI", 1), ("encodeURIComponent", 1), ("escape", 1),
  ("unescape", 1), ("eval", 1), ("queueMicrotask", 1)]

/-- The standard function of that name makes new instances. -/
def isConstructor (name : String) : Bool :=
  name ≠ "Symbol" ∧ name ≠ "BigInt" ∧ ((standardClasses ++ errorClasses).lookup name).isSome

/-- Objects that only gather functions under a name; none of these is enumerated. -/
def namespaces : List String := ["Math", "JSON", "Reflect", "Atomics"]

/-- Globals that are values, and words that stand for one. -/
def standardValues : List (String × Value) := [
  ("undefined", .undefined), ("null", .null), ("true", .bool true), ("false", .bool false),
  ("NaN", .number .nan), ("Infinity", .number .infinity)]

/-- The standard global of a name. -/
def standardGlobal? (name : String) : Option Value :=
  match standardValues.lookup name with
  | some v => some v
  | none =>
    if namespaces.contains name then some (.object .plain [])
    else
      ((standardClasses ++ errorClasses ++ standardFunctions).lookup name).map fun arity =>
        .function (.method name arity)

end ScriptHost.Script

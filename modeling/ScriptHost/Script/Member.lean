/-
Members of values.

A value has members of its own, such as the properties of an object or the length of an array, and
inherits others by its kind.  A member that is not there is undefined; `undefined` and `null` have
no members, and reading one of them throws.
-/
import ScriptHost.Script.Standard
import ScriptHost.Text.Units

namespace ScriptHost.Script

/-- The methods of every value. -/
def commonMethods : Methods := [
  ("toString", 0), ("toLocaleString", 0), ("valueOf", 0),
  ("hasOwnProperty", 1), ("isPrototypeOf", 1), ("propertyIsEnumerable", 1),
  ("__defineGetter__", 2), ("__defineSetter__", 2), ("__lookupGetter__", 1),
  ("__lookupSetter__", 1)]

def functionMethods : Methods := [("call", 1), ("apply", 2), ("bind", 1)]

def numberMethods : Methods := [
  ("toString", 1), ("toExponential", 1), ("toFixed", 1), ("toPrecision", 1)]

def textMethods : Methods := [
  ("at", 1), ("charAt", 1), ("charCodeAt", 1), ("codePointAt", 1), ("concat", 1), ("endsWith", 1),
  ("includes", 1), ("indexOf", 1), ("isWellFormed", 0), ("lastIndexOf", 1), ("localeCompare", 1),
  ("match", 1), ("matchAll", 1), ("normalize", 0), ("padEnd", 1), ("padStart", 1), ("repeat", 1),
  ("replace", 2), ("replaceAll", 2), ("search", 1), ("slice", 2), ("split", 2),
  ("startsWith", 1), ("substr", 2), ("substring", 2), ("toLocaleLowerCase", 0),
  ("toLocaleUpperCase", 0), ("toLowerCase", 0), ("toUpperCase", 0), ("toWellFormed", 0),
  ("trim", 0), ("trimEnd", 0), ("trimStart", 0)]

def arrayMethods : Methods := [
  ("at", 1), ("concat", 1), ("copyWithin", 2), ("entries", 0), ("every", 1), ("fill", 1),
  ("filter", 1), ("find", 1), ("findIndex", 1), ("findLast", 1), ("findLastIndex", 1),
  ("flat", 0), ("flatMap", 1), ("forEach", 1), ("includes", 1), ("indexOf", 1), ("join", 1),
  ("keys", 0), ("lastIndexOf", 1), ("map", 1), ("pop", 0), ("push", 1), ("reduce", 1),
  ("reduceRight", 1), ("reverse", 0), ("shift", 0), ("slice", 2), ("some", 1), ("sort", 1),
  ("splice", 2), ("toReversed", 0), ("toSorted", 1), ("toSpliced", 2), ("unshift", 1),
  ("values", 0), ("with", 2)]

namespace Value

/-- The methods that a value inherits. -/
def methods : Value → Methods
  | function _ => functionMethods ++ commonMethods
  | number _ => numberMethods ++ commonMethods
  | text _ => textMethods ++ commonMethods
  | array _ | vacant _ => arrayMethods ++ commonMethods
  | _ => commonMethods

/-- An item of an array that is not absent. -/
def present? : Value → Option Value
  | hole => none
  | v => some v

/-- A member that a value has itself. -/
def own? (v : Value) (key : String) : Option Value :=
  match v with
  | object _ props => props.lookup key
  | array items =>
    if key = "length" then some (ofNat items.length)
    else (arrayIndex? key).bind fun i => (items[i]?).bind present?
  | vacant n => if key = "length" then some (ofNat n) else none
  | text s =>
    let units := (Text.Units.ofString s).units
    if key = "length" then some (ofNat units.length)
    else (arrayIndex? key).bind fun i =>
      (units[i]?).map fun u => text (String.ofList (Text.decode [u]))
  | function f =>
    if key = "name" then some (text f.name)
    else if key = "length" then some (ofNat f.arity)
    else none
  | _ => none

/-- The class of a value, which its constructor has for a name. -/
def className : Value → String
  | undefined | null | hole => ""
  | bool _ => "Boolean"
  | number _ => "Number"
  | text _ => "String"
  | bigint _ => "BigInt"
  | symbol _ => "Symbol"
  | array _ | vacant _ => "Array"
  | object .plain _ | cyclic => "Object"
  | object (.error cls) _ => cls
  | object .promise _ => "Promise"
  | function _ => "Function"

/-- What a value inherits under a key: its constructor, its prototype and its methods, and an error
the name of its class and an empty message. -/
def inherited (v : Value) (key : String) : Value :=
  match v, key with
  | object (.error cls) _, "name" => text cls
  | object (.error _) _, "message" => text ""
  | function _, "__proto__" => function (.method "" 0)
  | _, "__proto__" => object .plain []
  | v, "constructor" => (standardGlobal? v.className).getD undefined
  | v, key =>
    match v.methods.lookup key with
    | some arity => function (.method key arity)
    | none => undefined

/-- A member of a value. -/
def member (v : Value) (key : String) : Except Value Value :=
  match v with
  | undefined => .error (unreadable key "undefined")
  | null => .error (unreadable key "null")
  | v => .ok ((v.own? key).getD (v.inherited key))

/-- Refuses a value that has no members, whatever the key is.  A computed key becomes a text only
after this. -/
def refuseItems (v : Value) : Except Value Unit :=
  match v with
  | undefined => .error (typeError "cannot read property of undefined")
  | null => .error (typeError "cannot read property of null")
  | _ => .ok ()

/-- The names of the members that a value enumerates, in their order. -/
def keys (v : Value) : Except Value (List String) :=
  match v with
  | undefined | null => .error (typeError "Cannot convert undefined or null to object")
  | object _ props => .ok ((enumerated props).map (·.1))
  | array items =>
    .ok ((items.zipIdx.filter fun (v, _) => (present? v).isSome).map fun (_, i) => toString i)
  | text s => .ok ((List.range (Text.Units.ofString s).length).map toString)
  | _ => .ok []

end Value
end ScriptHost.Script

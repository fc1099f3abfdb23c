/-
Values as text.

`toText` is the text of a value as a string argument, `stringify` its JSON text.  Both may call
functions that the script has put into an object, and such a call may do anything and throw; so
they run in a monad `m` with thrown values on top and get the way to call a function as a
parameter.

`ScriptError.ofThrown` tells the host what was thrown: an error by its name and message, anything
else by its text.
-/
import ScriptHost.Script.Value

namespace ScriptHost.Script

/-- A way to call functions. -/
abbrev Invoke (m : Type → Type) := Callable → List Value → ExceptT Value m Value

variable {m : Type → Type} [Monad m]

/-- A result that is there already. -/
def settled {α : Type} (r : Except Value α) : ExceptT Value m α := ExceptT.mk (pure r)

/-! ### Text -/

/-- The text of a value that is not an object. -/
def primitiveText : Value → Except Value String
  | .undefined => .ok "undefined"
  | .null => .ok "null"
  | .bool b => .ok (if b then "true" else "false")
  | .number x => .ok (Binary64.scriptLayout.write x)
  | .text s => .ok s
  | .bigint i => .ok (toString i)
  | .symbol _ => .error (.typeError "cannot convert symbol to string")
  | _ => .error (.typeError "toPrimitive")

/-- What an object's own method of that name makes of it: nothing if it has none, or if the method
returns an object. -/
def ownPrimitive (call : Invoke m) (props : List (String × Value)) (method : String) :
    ExceptT Value m (Option Value) := do
  match (props.lookup method).bind Value.callable? with
  | none => return none
  | some f =>
    let v ← call f []
    return if v.isObject then none else some v

/-- The text of an object by its own method of that name. -/
def ownText (call : Invoke m) (props : List (String × Value)) (method : String) :
    ExceptT Value m (Option String) := do
  match ← ownPrimitive call props method with
  | none => return none
  | some v => return some (← settled (primitiveText v))

/-- The name and the message of an error joined by a colon, or the one that is not empty. -/
def joinError (name message : String) : String :=
  if name = "" then message else if message = "" then name else name ++ ": " ++ message

mutual

/-- The text of a value. -/
def toText (call : Invoke m) : Value → ExceptT Value m String
  | .array items => do return ",".intercalate (← itemTexts call items)
  | .vacant n => return String.ofList (List.replicate (n - 1) ',')
  | .function f => return "function " ++ f.name ++ "() \x7b\n    [native code]\n\x7d"
  | .cyclic => return "[object Object]"
  | .object cls props => do
    let own ← ownText call props "toString"
    match own with
    | some text => return text
    | none =>
      if (props.lookup "toString").isSome then
        match ← ownText call props "valueOf" with
        | some text => return text
        | none => throw (.typeError "toPrimitive")
      else
        match cls with
        | .plain => return "[object Object]"
        | .promise => return "[object Promise]"
        | .error cls =>
          let name ← memberText call "name" "Error" props
          let message ← memberText call "message" "" props
          return joinError (name.getD cls) (message.getD "")
  | v => settled (primitiveText v)

/-- The texts of the items of an array; absent ones are empty. -/
def itemTexts (call : Invoke m) : List Value → ExceptT Value m (List String)
  | [] => return []
  | .undefined :: rest | .null :: rest | .hole :: rest => do
    return "" :: (← itemTexts call rest)
  | v :: rest => do
    let text ← toText call v
    return text :: (← itemTexts call rest)

/-- The text of a member, if there is one; of an undefined one it is `blank`. -/
def memberText (call : Invoke m) (key blank : String) :
    List (String × Value) → ExceptT Value m (Option String)
  | [] => return none
  | (k, v) :: rest =>
    if k = key then
      match v with
      | .undefined => return some blank
      | v => do return some (← toText call v)
    else memberText call key blank rest

end

/-- The text by which a value is displayed: also a symbol has one. -/
def display (call : Invoke m) : Value → ExceptT Value m String
  | .symbol text => return "Symbol(" ++ text ++ ")"
  | v => toText call v

/-! ### Numbers -/

/-- The characters that may stand around the number of a text. -/
def isSpace (c : Char) : Bool :=
  let n := c.toNat
  (9 ≤ n ∧ n ≤ 13) ∨ n = 0x20 ∨ n = 0xA0 ∨ n = 0x1680 ∨ (0x2000 ≤ n ∧ n ≤ 0x200A) ∨
    n = 0x2028 ∨ n = 0x2029 ∨ n = 0x202F ∨ n = 0x205F ∨ n = 0x3000 ∨ n = 0xFEFF

/-- The number that some characters are in whole, without a sign. -/
def unsignedNumber (cs : List Char) : Binary64 :=
  let begins : Bool :=
    match cs with
    | '.' :: c :: _ => c.isDigit
    | c :: _ => c.isDigit
    | [] => false
  if cs = "Infinity".toList then .infinity
  else if ¬ begins ∨ '_' ∈ cs then .nan
  else
    match Term.spanNumber cs with
    | (.number x, []) => x
    | _ => .nan

/-- The number of a text; a blank text is zero. -/
def numberOfText (s : String) : Binary64 :=
  let cs := ((s.toList.dropWhile isSpace).reverse.dropWhile isSpace).reverse
  match cs with
  | [] => .zero
  | '-' :: rest => (unsignedNumber rest).neg
  | '+' :: rest => unsignedNumber rest
  | cs => unsignedNumber cs

/-- The number of a value that is not an object. -/
def primitiveNumber : Value → Except Value Binary64
  | .number x => .ok x
  | .null => .ok .zero
  | .bool b => .ok (if b then .ofNat 1 else .zero)
  | .text s => .ok (numberOfText s)
  | .bigint _ => .error (.typeError "cannot convert bigint to number")
  | .symbol _ => .error (.typeError "cannot convert symbol to number")
  | _ => .ok .nan

/-- The number of a value; that of an object is the one of its primitive form or text. -/
def toNumber (call : Invoke m) (v : Value) : ExceptT Value m Binary64 := do
  match v with
  | .object _ props =>
    match ← ownPrimitive call props "valueOf" with
    | some v => settled (primitiveNumber v)
    | none => return numberOfText (← toText call v)
  | v => if v.isObject then return numberOfText (← toText call v) else settled (primitiveNumber v)

/-! ### JSON -/

/-- Functions call each other too deep. -/
def stackOverflow : Value := .error "InternalError" "stack overflow"

/-- The value that stands for another one in JSON: what its method `toJSON` returns. -/
def jsonForm (call : Invoke m) (key : String) (v : Value) : ExceptT Value m Value :=
  match v with
  | .object _ props =>
    match (props.lookup "toJSON").bind Value.callable? with
    | some f => call f [.text key]
    | none => return v
  | _ => return v

/-- The JSON text of a value under a key, if it has one; `depth` bounds the nesting. -/
def stringify (call : Invoke m) : Nat → String → Value → ExceptT Value m (Option String)
  | 0, _, _ => throw stackOverflow
  | depth + 1, key, v => do
    match ← jsonForm call key v with
    | .undefined | .hole | .function _ | .symbol _ => return none
    | .null => return some "null"
    | .bool b => return some (if b then "true" else "false")
    | .number x => return some (if x.isFinite then Binary64.scriptLayout.write x else "null")
    | .text s => return some (Json.quote s)
    | .bigint _ => throw (.typeError "BigInt are forbidden in JSON.stringify")
    | .cyclic => throw (.typeError "circular reference")
    | .array items =>
      let texts ← items.zipIdx.mapM fun (v, i) => stringify call depth (toString i) v
      return some ("[" ++ ",".intercalate (texts.map fun t => t.getD "null") ++ "]")
    | .vacant n => return some ("[" ++ ",".intercalate (List.replicate n "null") ++ "]")
    | .object _ props =>
      let texts ← (Value.enumerated props).mapM fun (k, v) => do
        return (← stringify call depth k v).map fun text => Json.quote k ++ ":" ++ text
      return some ("\x7b" ++ ",".intercalate (texts.filterMap id) ++ "\x7d")

/-! ### Thrown values -/

/-- The text of a value; empty if there is none to be had. -/
def textOrEmpty (call : Invoke m) (v : Value) : m String := do
  match ← (toText call v).run with
  | .ok text => return text
  | .error _ => return ""

/-- The name of an error object: only a text counts, and by default it is that of its class. -/
def errorName (cls : String) (props : List (String × Value)) : String :=
  match props.lookup "name" with
  | none => cls
  | some (.text name) => name
  | some _ => ""

/-- What the host is told of a thrown value. -/
def ScriptError.ofThrown (call : Invoke m) (thrown : Value) : m ScriptError := do
  match thrown with
  | .object (.error cls) props =>
    let message ←
      match props.lookup "message" with
      | none | some .undefined | some .null => pure ""
      | some v => textOrEmpty call v
    return ScriptError.ofNamed (errorName cls props) message
  | v => return ⟨.runtime, ← textOrEmpty call v⟩

end ScriptHost.Script

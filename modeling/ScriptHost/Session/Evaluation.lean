/-
Evaluation of scripts.

Statements run one after the other until one throws.  An operation that is not raw catches what it
throws; either way what came of it is recorded.  Functions run with one level less to spend on
further calls than their callers, so evaluation ends for every program.
-/
import ScriptHost.Session.Bindings
import ScriptHost.Script.Expression
import ScriptHost.Script.Member

namespace ScriptHost.Session

open Script (Value Binding Invoke Callable Term Expr Operation Stmt)

/-! ### What scripts record -/

mutual

/-- A value as it is recorded. -/
def shownValue : Value → Json
  | .undefined => .object [("js", .text "undefined")]
  | .null => .null
  | .bool b => .bool b
  | .number x => shownReal x
  | .text s => .text s
  | .bigint _ => .object [("js", .text "bigint")]
  | .symbol _ => .object [("js", .text "symbol")]
  | .array items => .array (shownValues items)
  | .vacant n => .array (List.replicate n .null)
  | .hole => .null
  | .object _ props => Json.ofMembers (shownProperties props)
  | .function _ => .object [("js", .text "function")]
  | .cyclic => .object [("js", .text "object")]

def shownValues : List Value → List Json
  | [] => []
  | v :: rest => shownValue v :: shownValues rest

def shownProperties : List (String × Value) → List (String × Json)
  | [] => []
  | (key, v) :: rest => (key, shownValue v) :: shownProperties rest

end

/-- What a listener heard, as it is recorded. -/
def shownHeard (label : String) (args : List Value) : Json :=
  .object [("args", .array (shownValues args)), ("heard", .text label)]

def record (runtime : Nat) (j : Json) : SessionM Unit :=
  modifyRuntime runtime fun r => { r with recorded := j :: r.recorded }

/-- The class of value that an evaluation ended with. -/
def shownCompletion : Value → Json
  | .undefined | .hole => .text "Undefined"
  | .null => .text "Null"
  | .bool b => .object [("Bool", .bool b)]
  | .number x => .object [("Number", shownReal x)]
  | .text s => .object [("String", .text s)]
  | .array _ | .vacant _ => .text "Array"
  | .function _ => .text "Function"
  | .bigint _ | .symbol _ | .object .. | .cyclic => .text "Object"

namespace Realm

variable (r : Realm)

/-! ### Expressions -/

def scope : SessionM Script.Variables := do
  return ((← get).runtimes[r.runtime]?.getD default).kept

def keepVariable (name : String) (v : Value) : SessionM Unit :=
  modifyRuntime r.runtime fun r => { r with kept := (name, v) :: r.kept }

def valueOf (e : Expr) : ScriptM Value := do
  return e.value (← r.scope)

def valuesOf (es : List Expr) : ScriptM (List Value) := do
  return Expr.values (← r.scope) es

/-! ### Calls -/

/-- Calls a value with some arguments. -/
def callValue (v : Value) (args : List Value) : ScriptM Value :=
  match v.callable? with
  | some f => r.call f args
  | none => throw (.typeError "not a function")

/-- Calls a value on a receiver. -/
def callOn (v receiver : Value) (args : List Value) : ScriptM Value :=
  match v.callable? with
  | some f => r.call (.bound f receiver []) args
  | none => throw (.typeError "not a function")

/-- The key that an argument stands for. -/
def keyOf (args : List Value) : ScriptM String :=
  Script.toText r.call (args.head?.getD .undefined)

/-- A new array: of some absent items if it is made of a number, else of the items. -/
def newArray (args : List Value) : ScriptM Value :=
  match args with
  | [.number x] =>
    match Script.arrayLength? x with
    | some n => return .vacant n
    | none => throw (.error "RangeError" "invalid array length")
  | items => return .array items

/-- Calls a standard function, or an inherited method on a value.  The methods that look at a value
or call it do so; all others leave it alone and return nothing. -/
def callMethod (name : String) (receiver : Value) (args : List Value) : ScriptM Value :=
  match name with
  | "toString" | "toLocaleString" => do return .text (← Script.toText r.call receiver)
  | "valueOf" => return receiver
  | "hasOwnProperty" => do return .bool (receiver.own? (← r.keyOf args)).isSome
  | "propertyIsEnumerable" => do
    let key ← r.keyOf args
    return .bool ((← Script.settled receiver.keys).contains key)
  | "isPrototypeOf" => return .bool false
  | "Array" => newArray args
  | "call" => r.callOn receiver (args.head?.getD .undefined) args.tail
  | "apply" =>
    let items := (args[1]?.bind Value.items?).getD []
    r.callOn receiver (args.head?.getD .undefined) items
  | "bind" =>
    match receiver.callable? with
    | some f => return .function (.bound f (args.head?.getD .undefined) args.tail)
    | none => throw (.typeError "not a function")
  | _ => return .undefined

/-- Calls a value that was found as a member of a receiver. -/
def invoke (receiver v : Value) (args : List Value) : ScriptM Value :=
  match v with
  | .function (.method name _) => r.callMethod name receiver args
  | v => r.callValue v args

/-- A new instance of what a constructor makes. -/
def instantiate (constructor : Value) (args : List Value) : ScriptM Value :=
  match constructor with
  | .function (.method "Array" _) => newArray args
  | .function (.method name _) =>
    if Script.isConstructor name then return .object .plain []
    else throw (.typeError "not a constructor")
  | _ => throw (.typeError "not a constructor")

/-! ### Terms -/

mutual

/-- The place of a term: its value and, in front of it, the value in which it was found. -/
def placeOf : Term → ScriptM (Value × Value)
  | .name name => do
    match ← r.global? name with
    | some v => return (.undefined, v)
    | none => throw (.referenceError name)
  | .number x => return (.undefined, .number x)
  | .bigint i => return (.undefined, .bigint i)
  | .text s => return (.undefined, .text s)
  | .array items => do return (.undefined, .array (← termValues items))
  | .object members => do
    let members ← memberValues members
    return (.undefined, .object .plain
      (members.foldl (fun props (key, v) => Script.defineProperty key v props) []))
  | .hole => return (.undefined, .hole)
  | .typeOf (.name name) => do
    return (.undefined, .text ((← r.global? name).getD .undefined).typeName)
  | .typeOf t => do return (.undefined, .text (← placeOf t).2.typeName)
  | .minus t => do
    match (← placeOf t).2 with
    | .bigint i => return (.undefined, .bigint (-i))
    | v => return (.undefined, .number (← Script.toNumber r.call v).neg)
  | .plus t => do return (.undefined, .number (← Script.toNumber r.call (← placeOf t).2))
  | .not t => do return (.undefined, .bool (¬ (← placeOf t).2.truth))
  | .void t => do
    let _ ← placeOf t
    return (.undefined, .undefined)
  | .member owner name => do
    let (_, owner) ← placeOf owner
    return (owner, ← Script.settled (owner.member name))
  | .item owner key => do
    let (_, owner) ← placeOf owner
    let (_, key) ← placeOf key
    Script.settled owner.refuseItems
    return (owner, ← Script.settled (owner.member (← Script.toText r.call key)))
  | .call callee args => do
    let (receiver, v) ← placeOf callee
    return (.undefined, ← r.invoke receiver v (← termValues args))
  | .construct constructor args => do
    let (_, constructor) ← placeOf constructor
    return (.undefined, ← instantiate constructor (← termValues args))

def termValues : List Term → ScriptM (List Value)
  | [] => return []
  | t :: rest => do
    let (_, v) ← placeOf t
    return v :: (← termValues rest)

def memberValues : List (String × Term) → ScriptM (List (String × Value))
  | [] => return []
  | (key, t) :: rest => do
    let (_, v) ← placeOf t
    return (key, v) :: (← memberValues rest)

end

def valueOfTerm (t : Term) : ScriptM Value := do return (← r.placeOf t).2

/-! ### Statements -/

def operate (op : Operation) : ScriptM Value :=
  match op with
  | .call callee args => do
    let (receiver, v) ← r.placeOf callee
    r.invoke receiver v (← r.valuesOf args)
  | .get t => r.valueOfTerm t
  | .typeOf t => r.valueOfTerm (.typeOf t)
  | .keys t => do
    return .text (",".intercalate (← Script.settled (← r.valueOfTerm t).keys))
  | .listen label body => r.addModuleListener [.function (.hears label body)]

/-- Records the value of an operation, and keeps it if it has a name. -/
def recordValue (keep : Option String) (v : Value) : SessionM Unit := do
  record r.runtime (.object [("ok", shownValue v)])
  match keep with
  | some name => r.keepVariable name v
  | none => return

/-- Records a thrown value: an error by its name and its message.  To display these may throw in
turn. -/
def recordThrown (thrown : Value) : ScriptM Unit := do
  match thrown with
  | .object (.error _) _ =>
    let name ← Script.display r.call (← Script.settled (thrown.member "name"))
    let message ← Script.display r.call (← Script.settled (thrown.member "message"))
    record r.runtime (.object [("message", .text message), ("throw", .text name)])
  | v => record r.runtime (.object [("throw", shownValue v)])

/-- Performs an operation and records what came of it. -/
def performOperation (op : Operation) (keep : Option String) (raw : Bool) : ScriptM Value :=
  if raw then do
    let v ← r.operate op
    r.recordValue keep v
    return v
  else do
    match ← liftM (r.operate op).run with
    | .ok v => r.recordValue keep v
    | .error thrown => r.recordThrown thrown
    return .undefined

def enqueue (j : Job) : SessionM Unit :=
  modifyRuntime r.runtime fun r => { r with jobs := r.jobs ++ [j] }

/-- Runs one statement; the result is its completion value. -/
def statement (s : Stmt) : ScriptM Value :=
  match s with
  | .perform op keep raw => r.performOperation op keep raw
  | .throw e => do throw (← r.valueOf e)
  | .value e => r.valueOf e
  | .term t => r.valueOfTerm t
  | .broken => throw (.error "SyntaxError" "variable name expected")
  | .promise body => do
    r.enqueue (.run body true)
    return .object .promise []
  | .microtask body => do
    r.enqueue (.run body false)
    return .undefined
  | .await _ => return .undefined

/-- Runs statements; the result is the completion value of the last one. -/
def statements : List Stmt → Value → ScriptM Value
  | [], completion => return completion
  | s :: rest, _ => do statements rest (← r.statement s)

def run (code : List Stmt) : ScriptM Value := r.statements code .undefined

/-! ### Functions -/

/-- Does what a function does. -/
def callFunction (f : Callable) (args : List Value) : ScriptM Value :=
  match f with
  | .returns result => r.valueOf result
  | .throws thrown => do throw (← r.valueOf thrown)
  | .runs body result => do
    let _ ← r.run body
    r.valueOf result
  | .hears label body => do
    record r.runtime (shownHeard label args)
    let _ ← r.run body
    return .undefined
  | .binding b => r.apply b args
  | .method name _ => r.callMethod name .undefined args
  | .bound (.method name _) receiver before => r.callMethod name receiver (before ++ args)
  | .bound f _ before => r.call f (before ++ args)

/-- Calls a function from a depth that leaves so many levels of calls. -/
def callAt (perform : Performer) (runtime : Nat) (context : Context) : Nat → Invoke SessionM
  | 0, _, _ => throw Script.stackOverflow
  | depth + 1, f, args =>
    let inner : Realm :=
      { perform, runtime, context, call := callAt perform runtime context depth, depth }
    inner.callFunction f args

/-- The most levels of calls. -/
def greatestDepth : Nat := 10000

/-- The realm of a runtime in which a script begins. -/
def outermost (perform : Performer) (runtime : Nat) (context : Context) : Realm :=
  { perform, runtime, context, call := callAt perform runtime context greatestDepth,
    depth := greatestDepth }

end Realm
end ScriptHost.Session

/-
Programs of the script language.

A script is a list of statements.  Most statements perform an operation, such as a call of a
binding, and record what came of it; the values passed to bindings are written as expressions.
Texts of expressions and bodies of functions are programs again, so the two types are mutual.
-/
import ScriptHost.Binary64.Basic
import ScriptHost.Script.Term

namespace ScriptHost.Script

mutual

inductive Expr where
  | undefined
  | null
  | bool (b : Bool)
  | number (x : Binary64)
  | text (s : String)
  | bigint (i : Int)
  | symbol (text : String)
  | array (items : List Expr)
  | object (members : List (String × Expr))
  /-- The value that an operation kept under a name; undefined if none did. -/
  | kept (name : String)
  /-- A function with this result. -/
  | function (result : Expr)
  /-- An object with this result of `toString`. -/
  | textual (result : Expr)
  /-- An object with this result of `toJSON`. -/
  | jsonic (result : Expr)
  /-- An object whose `toString` and `toJSON` throw this value. -/
  | throwing (thrown : Expr)
  /-- An object whose `toString` runs a body before it returns its result. -/
  | effectful (body : List Stmt) (result : Expr)
  /-- An object that contains itself. -/
  | cyclic
  /-- A new error of a class, with some properties set afterwards. -/
  | error (cls : String) (message name : Option Expr)

/-- What a statement performs. -/
inductive Operation where
  | call (callee : Term) (args : List Expr)
  | get (t : Term)
  | typeOf (t : Term)
  /-- The property names of an object, joined by commas. -/
  | keys (t : Term)
  /-- Registers a module listener that records what it hears and then runs a body. -/
  | listen (label : String) (body : List Stmt)

inductive Stmt where
  /-- Performs an operation.  A raw one lets what is thrown pass and has the operation's value;
  any other records the value, kept under a name if one is given, or what was thrown. -/
  | perform (op : Operation) (keep : Option String) (raw : Bool)
  | throw (e : Expr)
  | value (e : Expr)
  | term (t : Term)
  /-- Text that cannot be parsed. -/
  | broken
  /-- Runs a body in a job of its own, as the reaction of a promise. -/
  | promise (body : List Stmt)
  /-- Runs a body in a job of its own. -/
  | microtask (body : List Stmt)
  /-- Waits for one job, or for ever. -/
  | await (forever : Bool)

end

instance : Inhabited Expr := ⟨.undefined⟩
instance : Inhabited Stmt := ⟨.broken⟩

mutual

/-- The text of an expression cannot be parsed. -/
def Expr.isBroken : Expr → Bool
  | .array items => Expr.anyBroken items
  | .object members => Expr.anyMemberBroken members
  | .function e | .textual e | .jsonic e | .throwing e => e.isBroken
  | .effectful body e => Stmt.anyBroken body || e.isBroken
  | .error _ message name => Expr.someBroken message || Expr.someBroken name
  | _ => false

def Expr.someBroken : Option Expr → Bool
  | none => false
  | some e => e.isBroken

def Expr.anyBroken : List Expr → Bool
  | [] => false
  | e :: rest => e.isBroken || Expr.anyBroken rest

def Expr.anyMemberBroken : List (String × Expr) → Bool
  | [] => false
  | (_, e) :: rest => e.isBroken || Expr.anyMemberBroken rest

def Operation.isBroken : Operation → Bool
  | .call _ args => Expr.anyBroken args
  | .listen _ body => Stmt.anyBroken body
  | _ => false

def Stmt.isBroken : Stmt → Bool
  | .broken => true
  | .perform op _ _ => op.isBroken
  | .throw e | .value e => e.isBroken
  | .promise body | .microtask body => Stmt.anyBroken body
  | _ => false

/-- The text of a program cannot be parsed. -/
def Stmt.anyBroken : List Stmt → Bool
  | [] => false
  | s :: rest => s.isBroken || Stmt.anyBroken rest

end

/-- A module with such a statement at its top level is evaluated asynchronously. -/
def Stmt.isAwait : Stmt → Bool
  | .await _ => true
  | _ => false

end ScriptHost.Script

/-
Configuration of a context, and how it is read from JSON.

`Config.read` takes an object with the named fields, or an array with the fields in their
declared order.  Missing fields keep their defaults and unknown ones are passed over.  A field of
the wrong type, a size out of range and a field given twice are unsuitable; the first fault of
the text counts.
-/
import ScriptHost.Json.Reader
import ScriptHost.Fault

namespace ScriptHost

structure Config where
  /-- Asks the host's timing source, records start-up marks and offers the summary. -/
  profile : Bool := false
  /-- Whether the command queue starts out batching. -/
  batchUpdates : Bool := false
  /-- The most contexts that live at a time. -/
  maxContexts : Nat := 16
  /-- The memory of the script engine in bytes; zero is no limit. -/
  memoryLimit : Nat := 64 * 1024 * 1024
  /-- Names pinned in the atom table besides the common ones. -/
  preintern : List String := []
  deriving DecidableEq, Inhabited

namespace Config

open Json

inductive Field where
  | profile
  | batchUpdates
  | maxContexts
  | memoryLimit
  | preintern
  deriving DecidableEq

namespace Field

/-- The fields in their declared order. -/
def all : List Field := [profile, batchUpdates, maxContexts, memoryLimit, preintern]

def name : Field → String
  | profile => "profile"
  | batchUpdates => "batch_updates"
  | maxContexts => "max_contexts"
  | memoryLimit => "memory_limit"
  | preintern => "preintern"

def ofName? (s : String) : Option Field := all.find? (·.name = s)

end Field

/-- Refuses the value at the front of a text: it is malformed if it cannot even be read, else
unsuitable. -/
def refuse (cs : List Char) : ReadError :=
  let outcome : Except ReadError Unit :=
    match cs with
    | [] => .error .ended
    | 'n' :: rest => (readWord ['u', 'l', 'l'] rest).map fun _ => ()
    | 't' :: rest => (readWord ['r', 'u', 'e'] rest).map fun _ => ()
    | 'f' :: rest => (readWord ['a', 'l', 's', 'e'] rest).map fun _ => ()
    | '-' :: rest => (readNumber true rest).map fun _ => ()
    | '"' :: rest => (readText rest).map fun _ => ()
    | '[' :: _ | '{' :: _ => .ok ()
    | c :: rest =>
      if c.isDigit then (readNumber false (c :: rest)).map fun _ => () else .error .malformed
  match outcome with
  | .ok () => .unsuitable
  | .error e => e

def readBool (cs : List Char) : Except ReadError (Bool × List Char) :=
  match skipBlank cs with
  | 't' :: rest => do return (true, ← readWord ['r', 'u', 'e'] rest)
  | 'f' :: rest => do return (false, ← readWord ['a', 'l', 's', 'e'] rest)
  | cs => .error (refuse cs)

/-- A size is a natural number below `2 ^ 64`. -/
def readSize (cs : List Char) : Except ReadError (Nat × List Char) :=
  match skipBlank cs with
  | [] => .error .ended
  | c :: rest =>
    if c.isDigit then
      match readNumber false (c :: rest) with
      | .ok (.int i, rest) => .ok (i.toNat, rest)
      | .ok _ => .error .unsuitable
      | .error e => .error e
    else .error (refuse (c :: rest))

/-- Reads the texts of an array up to its end. -/
def readNames : Nat → Bool → List Char → Except ReadError (List String × List Char)
  | 0, _, _ => .error .malformed
  | fuel + 1, first, cs => do
    match ← nextItem first cs with
    | (false, rest) => return ([], rest)
    | (true, '"' :: rest) =>
      let (name, rest) ← readText rest
      let (names, rest) ← readNames fuel false rest
      return (name :: names, rest)
    | (true, rest) => .error (refuse rest)

/-- Reads the value of a field into a configuration. -/
def readField (config : Config) (cs : List Char) : Field → Except ReadError (Config × List Char)
  | .profile => do
    let (b, rest) ← readBool cs
    return ({ config with profile := b }, rest)
  | .batchUpdates => do
    let (b, rest) ← readBool cs
    return ({ config with batchUpdates := b }, rest)
  | .maxContexts => do
    let (n, rest) ← readSize cs
    return ({ config with maxContexts := n }, rest)
  | .memoryLimit => do
    let (n, rest) ← readSize cs
    return ({ config with memoryLimit := n }, rest)
  | .preintern =>
    match skipBlank cs with
    | '[' :: rest => do
      let (names, rest) ← readNames (rest.length + 1) true rest
      return ({ config with preintern := names }, rest)
    | cs => .error (refuse cs)

/-- Reads the fields of an object up to its end; `seen` holds those already read. -/
def readObject : Nat → Bool → List Field → Config → List Char →
    Except ReadError (Config × List Char)
  | 0, _, _, _, _ => .error .malformed
  | fuel + 1, first, seen, config, cs => do
    match ← nextKey first cs with
    | (false, rest) => return (config, rest)
    | (true, rest) =>
      let (key, rest) ← readText rest
      match Field.ofName? key with
      | none =>
        let rest ← readColon rest
        readObject fuel false seen config (← skipValue (fuelFor rest) rest)
      | some field =>
        if field ∈ seen then .error .unsuitable
        else
          let rest ← readColon rest
          let (config, rest) ← readField config rest field
          readObject fuel false (field :: seen) config rest

/-- Reads the fields of an array, in their declared order, up to its end. -/
def readArray (first : Bool) (config : Config) (cs : List Char) :
    List Field → Except ReadError (Config × List Char)
  | [] =>
    match skipBlank cs with
    | [] => .error .ended
    | ']' :: rest => .ok (config, rest)
    | _ => .error .malformed
  | field :: fields => do
    match ← nextItem first cs with
    | (false, rest) => return (config, rest)
    | (true, rest) =>
      let (config, rest) ← readField config rest field
      readArray false config rest fields

def readConfig (text : String) : Except ReadError Config := do
  let cs := skipBlank text.toList
  let (config, rest) ←
    match cs with
    | '[' :: rest => readArray true {} rest Field.all
    | '{' :: rest => readObject (rest.length + 1) true [] {} rest
    | cs => .error (refuse cs)
  readEnd rest
  return config

/-- Reads a configuration from its JSON text. -/
def read (text : String) : Except Fault Config := (readConfig text).mapError .config

end Config
end ScriptHost

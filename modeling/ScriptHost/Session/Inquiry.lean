/-
Questions that need no session.

Each asks one part of the library directly: the camel-case form of a name, the units of a text, a
configuration, a payload, an entry type, a fault, the constants, and what a registry does when it
is filled and emptied.
-/
import ScriptHost.Session.Contexts

namespace ScriptHost.Session

inductive Inquiry where
  | camelCase (name : String)
  | units (text other : String)
  | quotedUnits (text : String)
  | config (text : String)
  | payload (text : Option String)
  | entryType (name : String)
  | fault (f : Fault)
  /-- The message of an exception that a listener raised. -/
  | exception (message : String)
  | constants
  | registryLimit

/-- The version of the library. -/
def version : String := "0.1.0"

def shownUnitsOf (text other : String) : Json :=
  let s := Text.Units.ofString text
  Json.ofMembers [("units", .array (s.units.map fun u => .int u.toNat)), ("len", .int s.length),
    ("empty", .bool s.isEmpty), ("text", .text s.toText),
    ("same", .bool (s = Text.Units.ofString other))]

def shownConstants : Json :=
  Json.ofMembers [("version", .text version),
    ("kinds", .array (CommandKind.all.map fun k => .array [.text k.name, .int k.number])),
    ("services", .array (Service.all.map fun s => .text s.name)),
    ("config", shownConfig {}), ("reply", shownReply .void),
    ("marks", .array (Phase.marks.map .text))]

/-! ### A registry at its limit -/

/-- Creates contexts until the registry refuses, at most `most` of them. -/
def fillRegistry (registry : Nat) : Nat → SessionM (List Nat × Json)
  | 0 => return ([], .null)
  | most + 1 => do
    match ← createContext registry {} with
    | .error f => return ([], Json.ofMembers (shownFault f))
    | .ok c =>
      let (cs, refusal) ← fillRegistry registry most
      return (c :: cs, refusal)

/-- Disposes of contexts by way of their registry. -/
def emptyRegistry (registry : Nat) : List ContextId → SessionM (List Bool)
  | [] => return []
  | id :: rest => do
    let gone ← strikeContext registry id
    return gone :: (← emptyRegistry registry rest)

/-- Fills a registry with default limits, and empties it again. -/
def tryRegistry : SessionM Json := do
  let gate ← addGate
  let limit := ({} : Config).maxContexts
  let registry ← addRegistry gate limit none
  let before ← registryAt registry
  let (places, refusal) ← fillRegistry registry (limit + 1)
  let full ← registryAt registry
  let created ← places.mapM contextAt
  let gone ← emptyRegistry registry (created.map (·.id))
  let after ← registryAt registry
  let disposed ← places.mapM contextAt
  return Json.ofMembers [("before", .int before.registry.size), ("full", .int full.registry.size),
    ("after", .int after.registry.size), ("ids", .array (created.map fun c => .int c.id)),
    ("limit", refusal), ("gone", .array (gone.map .bool)),
    ("live", .bool (← services gate).isLive), ("one_gate", .bool (created.all (·.gate = gate))),
    ("same", .bool (created.map (fun c => full.registry.get? c.id) = places.map some)),
    ("valid", .bool (disposed.any (·.valid)))]

/-! ### Answers -/

/-- The answer to a question: a result or a fault. -/
def Inquiry.answer : Inquiry → Except Failure Json
  | .camelCase name => .ok (.text (Text.camelCase name))
  | .units text other => .ok (shownUnitsOf text other)
  | .quotedUnits text =>
    .ok (.text ("NativeString(" ++ Text.quote (Text.Units.ofString text).toText ++ ")"))
  | .config text => ((Config.read text).map shownConfig).mapError .fault
  | .payload text =>
    .ok (((Json.payload? text).map fun j => .object [("value", shownPayload j)]).getD .null)
  | .entryType name =>
    .ok (((EntryType.ofName? name).map fun t =>
      .array (List.replicate 3 (.text t.name))).getD .null)
  | .fault f => .ok (Json.ofMembers (shownFault f))
  | .exception message => .ok (.text message)
  | .constants => .ok shownConstants
  | .registryLimit => .ok (tryRegistry {}).1

/-- What is shown of an answer. -/
def Inquiry.shown (q : Inquiry) : Json := Json.ofMembers (shownResult q.answer)

end ScriptHost.Session

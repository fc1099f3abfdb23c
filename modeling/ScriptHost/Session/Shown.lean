/-
The form in which a session shows what came of its steps.

Everything is shown as JSON.  An integral double below `2 ^ 53` is shown as an integer, any other
one by its bits, so that nothing is lost between the zeros and among very large numbers.
-/
import ScriptHost.Session.State

namespace ScriptHost.Session

/-- A double by its bits. -/
def shownBits (x : Binary64) : Json :=
  .object [("f64", .text (if x.isNaN then "nan" else x.hex))]

def shownReal (x : Binary64) : Json :=
  match x.integer? with
  | some i => if i.natAbs < Nat.pow 2 53 ∧ x ≠ .negativeZero then .int i else shownBits x
  | none => shownBits x

def shownText? (s : Option String) : Json := (s.map Json.text).getD .null

def shownReal? (x : Option Binary64) : Json := (x.map shownReal).getD .null

/-- The size of something, and whether it is empty. -/
def shownSize (n : Nat) : List Json := [.int n, .bool (n = 0)]

mutual

/-- A payload; every number that is not an integer is shown by its bits. -/
def shownPayload : Json → Json
  | .real x => shownBits x
  | .array items => .array (shownItems items)
  | .object members => .object (shownMembers members)
  | j => j

def shownItems : List Json → List Json
  | [] => []
  | j :: rest => shownPayload j :: shownItems rest

def shownMembers : List (String × Json) → List (String × Json)
  | [] => []
  | (k, j) :: rest => (k, shownPayload j) :: shownMembers rest

end

def shownArg : Arg → Json
  | .int i => .object [("int", .int i)]
  | .float x => .object [("float", shownReal x)]
  | .text s => .object [("str", .text s)]

def shownReply : Reply → Json
  | .void => .text "void"
  | .int i => shownArg (.int i)
  | .float x => shownArg (.float x)
  | .text s => shownArg (.text s)

def shownEntry (e : Entry) : Json :=
  Json.ofMembers [("name", .text e.name), ("entryType", .text e.type.name),
    ("startTime", shownReal e.start), ("duration", shownReal e.duration)]

def shownEntries (es : List Entry) : Json := .array (es.map shownEntry)

def shownUnits : Option Text.Units → Json
  | none => .null
  | some s => .array [.text s.toText, .int s.length]

def shownCommand (c : Command) : Json :=
  .array [.int c.target, .text c.kind.name, shownUnits c.first, shownUnits c.second,
    shownText? (c.native.map toString)]

def shownConfig (c : Config) : Json :=
  Json.ofMembers [("profile", .bool c.profile), ("batch_updates", .bool c.batchUpdates),
    ("max_contexts", .int c.maxContexts), ("memory_limit", .int c.memoryLimit),
    ("preintern", .array (c.preintern.map .text))]

/-! ### Faults -/

def faultLabel : Fault → String
  | .markNotFound .. => "MarkNotFound"
  | .typeFault _ => "TypeError"
  | .rangeFault _ => "RangeError"
  | .contextDisposed _ => "ContextDisposed"
  | .contextLimit _ => "ContextLimit"
  | .registrationClosed _ => "RegistrationClosed"
  | .alreadyCaptured => "AlreadyCaptured"
  | .config _ => "Config"

def kindLabel : FaultKind → String
  | .reference => "Reference"
  | .type => "Type"
  | .range => "Range"
  | .internal => "Internal"

def readErrorLabel : Json.ReadError → String
  | .ended => "eof"
  | .malformed => "syntax"
  | .unsuitable => "data"

/-- What is shown of a fault besides its label and kind. -/
def faultDetail : Fault → String × Json
  | .config reason => ("category", .text (readErrorLabel reason))
  | f => ("message", .text f.message)

def shownFault (f : Fault) : List (String × Json) :=
  [("error", .text (faultLabel f)), ("kind", .text (kindLabel f.kind)), faultDetail f]

def scriptErrorLabel : Script.ErrorClass → String
  | .runtime => "Runtime"
  | .syntaxError => "Syntax"
  | .typeError => "TypeError"
  | .reference => "Reference"
  | .range => "Range"
  | .internal => "Internal"

def shownFailure : Failure → List (String × Json)
  | .fault f => shownFault f
  | .viaBindings f => shownFault f ++ [("via", .text "Bridge")]
  | .script e => [("error", .text (scriptErrorLabel e.cls)), ("message", .text e.message)]
  | .unknown => [("error", .text "Unknown")]
  | .tooDeep => [("error", .text "TooDeep")]

/-! ### Answers -/

/-- The members that show a result. -/
def shownResult : Except Failure Json → List (String × Json)
  | .ok j => [("r", j)]
  | .error e => shownFailure e

/-- A list, if there is something in it. -/
def shownList (key : String) : List Json → List (String × Json)
  | [] => []
  | items => [(key, .array items)]

def shownAnswer (a : Answer) : List (String × Json) :=
  shownResult a.result ++ shownList "out" a.recorded

def shownEffect : Effect → Json
  | .host s c args =>
    Json.ofMembers [("host", .text s.name), ("ctx", .int c), ("args", .array (args.map shownArg))]
  | .sink c => .object [("sink", .int c)]
  | .fetch c => .object [("fetch", .int c)]
  | .parse markup => .object [("parse", .text markup)]
  | .heard label e =>
    Json.ofMembers [("heard", .text label),
      ("args", .array [.text e.module, shownText? e.event,
        (e.payload.map shownPayload).getD .null])]
  | .did word a => Json.ofMembers (("did", .text word) :: shownAnswer a)
  | .log l =>
    Json.ofMembers ([("log", .text l.level.name), ("message", .text l.message)] ++
      l.fields.map fun (k, v) => (k, .text v))

def isLog : Effect → Bool
  | .log _ => true
  | _ => false

/-- A step's answer, together with the effects it had. -/
def shownStep (logs : Bool) (a : Answer) (effects : List Effect) : Json :=
  let visible := effects.filter fun e => logs || ¬ isLog e
  Json.ofMembers (shownAnswer a ++ shownList "ev" (visible.map shownEffect))

end ScriptHost.Session

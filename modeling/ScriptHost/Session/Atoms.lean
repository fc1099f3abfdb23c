/-
Atom tables, handles and name caches in the steps of a session.

A handle that is kept under the name of an older one replaces it; the older one is dropped only
after the new one was made.
-/
import ScriptHost.Session.Timelines
import ScriptHost.Text.Quoted

namespace ScriptHost.Session

/-- An atom by the name of its handle. -/
def handle? (s : Session) (name : String) : Option Atom := s.holdings.handle? name

/-- Keeps an atom of the hand under a name, or lets it go. -/
def keepOrLetGo (keep : Option String) (a : Atom) : SessionM Unit :=
  changeHoldings fun h =>
    match keep with
    | some name => h.keep name a
    | none => h.letGo a

def textOf (a : Atom) : SessionM String := do return (← get).holdings.heap.text a

/-- Shows an atom of the hand with the number of its holders, then keeps it or lets it go. -/
def answerAtom (keep : Option String) (a : Atom) : SessionM Answer := do
  let heap := (← get).holdings.heap
  keepOrLetGo keep a
  return .of (.array [.text (heap.text a), .int (heap.holders a)])

/-- Shows the text of an atom of the hand, then lets it go. -/
def answerText (a : Atom) : SessionM Answer := do
  let text ← textOf a
  changeHoldings fun h => h.letGo a
  return .text text

def shownAtom (h : Atom.Heap) (a : Atom) : Json :=
  let text := h.text a
  Json.ofMembers [("text", .text text), ("len", .int text.utf8ByteSize),
    ("empty", .bool text.isEmpty), ("refs", .int (h.holders a))]

def describeAtom (h : Atom.Heap) (a : Atom) : String := "Atom(" ++ Text.quote (h.text a) ++ ")"

def performAtoms (a : AtomAction) : SessionM Answer :=
  match a with
  | .newTable id pinned => do
    bind id (.table (← holding fun h => h.newTable (pinned.getD [])))
    return .done
  | .intern on text keep => withObject table? on fun t => do
    let a ← holding fun h =>
      match text with
      | some text => h.take t text
      | none => h.takeEmpty t
    answerAtom keep a
  | .takeEmpty on keep => withObject table? on fun t => do
    let a ← holding fun h => h.takeEmpty t
    keepOrLetGo (some keep) a
    return .done
  | .contains on text => withObject table? on fun t => do
    return .flag ((← get).holdings.heap.contains t text)
  | .size on => withObject table? on fun t => do
    return .of (.array (shownSize ((← get).holdings.heap.live t)))
  | .clone atom keep => withObject handle? atom fun a => do
    changeHoldings fun h => (h.grab a).keep keep a
    return .done
  | .drop atom => withObject handle? atom fun _ => do
    changeHoldings fun h => h.dropHandle atom
    return .done
  | .inspect atom => withObject handle? atom fun a => do
    return .of (shownAtom (← get).holdings.heap a)
  | .describe atom => withObject handle? atom fun a => do
    return .text (describeAtom (← get).holdings.heap a)
  | .equal a b => withObject handle? a fun a => withObject handle? b fun b =>
    return .flag (a = b)
  | .distinct atoms => do
    return .nat (atoms.filterMap (handle? (← get))).eraseDups.length
  | .newCache id => do
    bind id (.cache (← holding Holdings.newCache))
    return .done
  | .resolve on table name keep =>
    withObject cache? on fun c => withObject table? table fun t => do
      let a ← holding fun h => h.resolve c t name
      let text ← textOf a
      keepOrLetGo keep a
      return .text text
  | .cacheSize on => withObject cache? on fun c => do
    return .of (.array (shownSize ((← get).holdings.cache c).length))

end ScriptHost.Session

/-
Style declarations in the steps of a session.
-/
import ScriptHost.Session.Contexts
import ScriptHost.Style.Edit

namespace ScriptHost.Session

/-- The desk at which the declarations of a context are edited. -/
def desk (perform : Performer) (c : Context) : Style.Desk Session where
  holdings := Session.holdings
  setHoldings holdings s := { s with holdings }
  append command := appendCommand perform c.queue command

/-- A declaration of a context. -/
def declaration (c : Context) (style : StyleId) (target : Int) : Style.Declaration :=
  { style, target, table := c.table, names := c.names }

def setProperty (perform : Performer) (c : Context) (d : Style.Declaration) (name value : String) :
    SessionM (Except Fault Unit) :=
  (desk perform c).set d name value

def removeProperty (perform : Performer) (c : Context) (d : Style.Declaration) (name : String) :
    SessionM (Except Fault Atom) :=
  (desk perform c).remove d name

/-- Goes on with a named declaration and its context. -/
def withStyle (name : String) (act : Context → Style.Declaration → SessionM Answer) :
    SessionM Answer :=
  withObject style? name fun o => do
    let c ← contextAt o.context
    act c (declaration c o.style o.target)

def propertiesOf (d : Style.Declaration) : SessionM Style.Properties := do
  return (← get).holdings.properties d.style

def performStyle (perform : Performer) (a : StyleAction) : SessionM Answer :=
  match a with
  | .new id context target => withObject context? context fun context => do
    let style ← holding Holdings.newStyle
    bind id (.style { style, context, target })
    return .done
  | .set on name value => withStyle on fun c d => do
    match ← setProperty perform c d name value with
    | .ok () => return .done
    | .error fault => return .fault fault
  | .get on name => withStyle on fun c d => do
    answerText (← (desk perform c).get d name)
  | .remove on name => withStyle on fun c d => do
    match ← removeProperty perform c d name with
    | .ok old => answerText old
    | .error fault => return .fault fault
  | .css on => withStyle on fun _ d => do
    return .text (Style.Properties.css (← get).holdings.heap (← propertiesOf d))
  | .copy on source => withStyle on fun _ d => withObject style? source fun source => do
    changeHoldings fun h => h.copyStyle d.style source.style
    return .nat (← propertiesOf d).length
  | .size on => withStyle on fun _ d => do
    return .of (.array (shownSize (← propertiesOf d).length ++ [.int d.target]))

end ScriptHost.Session

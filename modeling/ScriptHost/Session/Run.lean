/-
Running a session.

`perform` performs a step; the reactions of entry points, sinks and listeners perform steps in
turn, one level deeper.  `run` performs the steps of a session from an empty state and shows the
answer to each together with its effects.
-/
import ScriptHost.Session.Described
import ScriptHost.Session.Scripts

namespace ScriptHost.Session

/-- Performs an action, with a way to perform the steps of reactions. -/
def performAction (perform : Performer) (a : Action Step) : SessionM Answer :=
  match a with
  | .advance micros => do
    modify fun s => { s with micros := s.micros + micros }
    return .done
  | .drop on => do return .flag (← dropName on)
  | .describe on => performDescribe on
  | .atoms a => performAtoms a
  | .queue a => performQueue perform a
  | .timeline a => performTimeline a
  | .gate a => performGate a
  | .services a => performServices perform a
  | .context a => performContext perform a
  | .registry a => performRegistry a
  | .style a => performStyle perform a
  | .listeners a => performListeners perform a
  | .script a => performScript perform a

/-- Performs a step from a depth that leaves so many levels of reactions. -/
def perform : Nat → Performer
  | 0, _ => return ⟨.error .tooDeep, []⟩
  | depth + 1, step =>
    workingOn step.action.subject? (performAction (perform depth) step.action)

/-- The most levels of reactions. -/
def greatestDepth : Nat := 1000000

/-- Performs a step and shows its answer with its effects. -/
def showStep (logs : Bool) (step : Step) : SessionM Json := do
  modify fun s => { s with effects := #[] }
  let answer ← perform greatestDepth step
  return shownStep logs answer (← get).effects.toList

/-- Performs steps one after the other. -/
def showSteps (logs : Bool) : List Step → SessionM (List Json)
  | [] => return []
  | step :: rest => do
    let shown ← showStep logs step
    return shown :: (← showSteps logs rest)

/-- Runs a session from an empty state. -/
def run (logs : Bool) (steps : List Step) : List Json := (showSteps logs steps {}).1

end ScriptHost.Session

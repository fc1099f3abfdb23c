/-
Phases of the start-up, and the summary that measures them.

A phase is measured between two marks.  The summary tries the phases one after the other and
leaves out those of which a mark is missing; it reads the clock anew for each of them.
-/
import ScriptHost.Timeline.Basic

namespace ScriptHost

/-- The name of a measure, and the marks between which it is taken. -/
structure Phase where
  measure : String
  start : String
  finish : String

namespace Phase

def contextStart : String := "js_context_start"
def contextEnd : String := "js_context_end"
def bindingsStart : String := "init_native_method_start"
def bindingsEnd : String := "init_native_method_end"

/-- The phases, in the order of the summary. -/
def all : List Phase :=
  [⟨"bridge_init_cost", "bridge_init_start", "bridge_init_end"⟩,
    ⟨"bridge_register_host_method_cost", "bridge_register_host_method_start",
      "bridge_register_host_method_end"⟩,
    ⟨"widget_creation_cost", "controller_init_start", "controller_init_end"⟩,
    ⟨"controller_properties_init_cost", "controller_init_start", "controller_properties_init"⟩,
    ⟨"create_viewport_cost", "create_viewport_start", "create_viewport_end"⟩,
    ⟨"js_context_init_cost", contextStart, contextEnd⟩,
    ⟨"native_method_init_cost", bindingsStart, bindingsEnd⟩,
    ⟨"polyfill_init_cost", "init_js_polyfill_start", "init_js_polyfill_end"⟩]

/-- The names of all marks of the phases, each once. -/
def marks : List String := (all.flatMap fun p => [p.start, p.finish]).eraseDups

/-- The phases in the order of the summary, each with what the clock reads when its turn comes. -/
def timed (readings : Nat → Binary64) : List (Phase × Binary64) :=
  all.zipIdx.map fun (p, n) => (p, readings n)

end Phase

namespace Timeline

/-- Measures one phase; the fault, if a mark is missing, comes with the unchanged timeline. -/
def measurePhase (t : Timeline) (now : Binary64) (host : List Entry) (p : Phase) :
    Option Fault × Timeline :=
  match t.measure now host p.measure (some p.start) (some p.finish) with
  | .ok (_, t) => (none, t)
  | .error fault => (some fault, t)

/-- Measures some phases one after the other, at the times given; says for each what was
missing. -/
def measurePhases (host : List Entry) :
    List (Phase × Binary64) → Timeline → List (Phase × Option Fault) × Timeline
  | [], t => ([], t)
  | (p, now) :: rest, t =>
    let (fault, t) := t.measurePhase now host p
    let (outcomes, t) := measurePhases host rest t
    ((p, fault) :: outcomes, t)

/-- Measures every phase of which both marks are there, by a clock that may move meanwhile. -/
def summaryBy (t : Timeline) (readings : Nat → Binary64) (host : List Entry) :
    List (Phase × Option Fault) × Timeline :=
  measurePhases host (Phase.timed readings) t

/-- The summary by a clock that stands still. -/
def summary (t : Timeline) (now : Binary64) (host : List Entry) :
    List (Phase × Option Fault) × Timeline :=
  t.summaryBy (fun _ => now) host

/-- The number of phases that were measured. -/
def recorded (outcomes : List (Phase × Option Fault)) : Nat :=
  outcomes.countP fun (_, fault) => fault.isNone

end Timeline
end ScriptHost

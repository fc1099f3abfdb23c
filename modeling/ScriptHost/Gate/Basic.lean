/-
The host gate.

Entry points are registered before the thread of the host is captured.  Capturing happens once:
it freezes the table of entry points, and from then on the services are live on the captured
thread and empty on every other one.
-/
import ScriptHost.Fault

namespace ScriptHost

/-- Names a thread. -/
abbrev ThreadId := Nat

/-- Entry points by service, each service once. -/
abbrev ServiceTable (F : Type) := List (Service × F)

namespace ServiceTable

variable {F : Type}

def entry? (table : ServiceTable F) (s : Service) : Option F := table.lookup s

/-- Registers an entry point, in place of an older one. -/
def put (s : Service) (f : F) : ServiceTable F → ServiceTable F
  | [] => [(s, f)]
  | (t, g) :: rest => if t = s then (t, f) :: rest else (t, g) :: put s f rest

end ServiceTable

/-- The services as seen from a thread. -/
inductive ServiceSet (F : Type) where
  /-- The entry points of the host. -/
  | live (table : ServiceTable F)
  /-- No service does anything. -/
  | empty
  deriving Inhabited

namespace ServiceSet

variable {F : Type}

def isLive : ServiceSet F → Bool
  | live _ => true
  | empty => false

/-- The entry point that a call of the service would reach. -/
def entry? : ServiceSet F → Service → Option F
  | live table, s => table.entry? s
  | empty, _ => none

/-- What a call of a service does. -/
inductive Reach (F : Type) where
  /-- It enters the host. -/
  | host (f : F)
  /-- The host has no such service. -/
  | missing
  /-- Services are out of reach, so nothing happens. -/
  | nowhere

def reach : ServiceSet F → Service → Reach F
  | live table, s =>
    match table.entry? s with
    | some f => .host f
    | none => .missing
  | empty, _ => .nowhere

/-- The services that would reach the host, in their declared order. -/
def reachable (set : ServiceSet F) : List Service :=
  Service.all.filter fun s => (set.entry? s).isSome

def describe : ServiceSet F → String
  | empty => "Empty"
  | live [] => "Live(\x7b\x7d)"
  | live [(s, _)] => "Live(\x7b" ++ s.label ++ "\x7d)"
  | live _ => "Live"

end ServiceSet

structure Gate (F : Type) where
  /-- Registrations before the capture. -/
  pending : ServiceTable F := []
  /-- The captured thread and the frozen table. -/
  captured : Option (ThreadId × ServiceTable F) := none
  deriving Inhabited

namespace Gate

variable {F : Type}

/-- Registers an entry point; says whether it took the place of another. -/
def register (g : Gate F) (s : Service) (f : F) : Except Fault (Bool × Gate F) :=
  if g.captured.isSome then .error (.registrationClosed s)
  else .ok ((g.pending.entry? s).isSome, { g with pending := g.pending.put s f })

/-- Captures a thread and freezes the table. -/
def capture (g : Gate F) (t : ThreadId) : Except Fault (Gate F) :=
  if g.captured.isSome then .error .alreadyCaptured
  else .ok { pending := [], captured := some (t, g.pending) }

/-- The services as seen from a thread. -/
def servicesFor (g : Gate F) (t : ThreadId) : ServiceSet F :=
  match g.captured with
  | some (owner, table) => if owner = t then .live table else .empty
  | none => .empty

def describe (g : Gate F) : String :=
  let thread : String :=
    match g.captured with
    | none => "None"
    | some (t, _) => "Some(ThreadId(" ++ toString t ++ "))"
  "HostCallGate \x7b captured: " ++ thread ++ " \x7d"

theorem register_eq_ok_iff {g g' : Gate F} {s : Service} {f : F} {replaced : Bool} :
    g.register s f = .ok (replaced, g') ↔
      g.captured = none ∧ replaced = (g.pending.entry? s).isSome ∧
        g' = { g with pending := g.pending.put s f } := by
  unfold register
  cases h : g.captured <;> simp [eq_comm]

theorem capture_eq_ok_iff {g g' : Gate F} {t : ThreadId} :
    g.capture t = .ok g' ↔ g.captured = none ∧ g' = ⟨[], some (t, g.pending)⟩ := by
  unfold capture
  cases h : g.captured <;> simp [eq_comm]

theorem servicesFor_of_capture {g g' : Gate F} {t : ThreadId} (h : g.capture t = .ok g')
    (u : ThreadId) : g'.servicesFor u = if t = u then .live g.pending else .empty := by
  obtain ⟨-, rfl⟩ := capture_eq_ok_iff.1 h
  rfl

end Gate
end ScriptHost

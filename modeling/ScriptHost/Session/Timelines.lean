/-
Timelines, clocks and timing sources of a session.

The system clock counts from the moment in which a timeline is made; a manual clock stands where
it was set, in microseconds modulo `2 ^ 64`.  Asking a timing source is an effect: every query of
the merged entries asks once, a measure asks only if it has marks to look up, and the summary asks
once for each phase.
-/
import ScriptHost.Session.Shown

namespace ScriptHost.Session

/-- The wall-clock time at which the process starts, in microseconds since the epoch. -/
def processStart : Nat := 1700000000 * 1000000

def readClock (s : Session) : Clock → Nat
  | .system since => s.micros - since
  | .manual i => s.clocks[i]?.getD 0

/-- The present time of a timeline. -/
def nowOf (i : Nat) : SessionM Binary64 := do
  let s ← get
  return Timeline.milliseconds (s.readClock (s.timelines[i]?.getD default).clock)

def timelineAt (i : Nat) : SessionM Timeline := do
  return ((← get).timelines[i]?.getD default).timeline

/-- Asks the timing source of a timeline for its entries. -/
def fetchEntries (i : Nat) : SessionM (List Entry) := do
  let s ← get
  let o := s.timelines[i]?.getD default
  match o.source with
  | none => return []
  | some source =>
    emit (.fetch o.timeline.context)
    return s.sources[source]?.getD []

/-- Makes a timeline whose origin is now. -/
def addTimeline (context : ContextId) (clock : Option Nat) (source : Option Nat) :
    SessionM Nat := do
  let s ← get
  let origin := Timeline.milliseconds (processStart + s.micros)
  let clock : Clock :=
    match clock with
    | some i => .manual i
    | none => .system s.micros
  set { s with timelines := s.timelines.push { timeline := { context, origin }, clock, source } }
  return s.timelines.size

/-- Records a mark, by default at the present time. -/
def markTimeline (i : Nat) (name : String) (start : Option Binary64) : SessionM Entry := do
  let now ← nowOf i
  let (entry, t) := (← timelineAt i).mark name (start.getD now)
  modifyTimeline i fun _ => t
  return entry

def measureTimeline (i : Nat) (name : String) (start finish : Option String) :
    SessionM (Except Fault Entry) := do
  let now ← nowOf i
  let host ← if Timeline.looksUp start finish then fetchEntries i else pure []
  match (← timelineAt i).measure now host name start finish with
  | .ok (entry, t) =>
    modifyTimeline i fun _ => t
    return .ok entry
  | .error fault => return .error fault

def clearTimeline (i : Nat) (type : EntryType) (name : Option String) : SessionM Unit :=
  modifyTimeline i fun t => t.clear type name

/-- Own entries together with those of the timing source. -/
def mergedEntries (i : Nat) : SessionM (List Entry) := do
  let host ← fetchEntries i
  return (← timelineAt i).merged host

/-- What becomes visible of the phases of a summary. -/
def tellPhases (i : Nat) : List (Phase × Option Fault) → SessionM Unit
  | [] => return
  | (phase, fault) :: rest => do
    let _ ← fetchEntries i
    match fault with
    | some fault => log (.summarySkipped phase.measure fault)
    | none => pure ()
    tellPhases i rest

/-- Measures the phases of the start-up; the result is how many were measured. -/
def summarize (i : Nat) : SessionM Nat := do
  let s ← get
  let o := s.timelines[i]?.getD default
  let host := (o.source.bind fun source => s.sources[source]?).getD []
  let (outcomes, t) := o.timeline.summary (← nowOf i) host
  tellPhases i outcomes
  modifyTimeline i fun _ => t
  return Timeline.recorded outcomes

/-! ### Steps -/

/-- Goes on with what a name refers to. -/
def withObject {α : Type} (find? : Session → String → Option α) (name : String)
    (act : α → SessionM Answer) : SessionM Answer := do
  match find? (← get) name with
  | some a => act a
  | none => return .unknown

/-- A name that may be absent. -/
def optional {α : Type} (find? : Session → String → Option α) (name : Option String) :
    SessionM (Option α) := do
  let s ← get
  return name.bind (find? s)

def addClock : SessionM Nat := do
  let s ← get
  set { s with clocks := s.clocks.push 0 }
  return s.clocks.size

def addSource (entries : List Entry) : SessionM Nat := do
  let s ← get
  set { s with sources := s.sources.push entries }
  return s.sources.size

def performTimeline (a : TimelineAction) : SessionM Answer :=
  match a with
  | .newClock id => do
    bind id (.clock (← addClock))
    return .done
  | .setClock on micros => withObject clock? on fun i => do
    modify fun s => { s with clocks := s.clocks.setIfInBounds i (micros % Nat.pow 2 64) }
    return .done
  | .advanceClock on micros => withObject clock? on fun i => do
    modify fun s => { s with clocks := s.clocks.modify i fun n => (n + micros) % Nat.pow 2 64 }
    return .done
  | .newSource id entries => do
    bind id (.source (← addSource entries))
    return .done
  | .setSource on entries => withObject source? on fun i => do
    modify fun s => { s with sources := s.sources.setIfInBounds i entries }
    return .done
  | .new id context clock source => do
    let clock ← optional clock? clock
    let source ← optional source? source
    bind id (.timeline (← addTimeline context clock source))
    return .done
  | .now on => withObject timeline? on fun i => do
    return .of (shownReal (← nowOf i))
  | .origin on => withObject timeline? on fun i => do
    return .of (shownReal (← timelineAt i).origin)
  | .snapshot on => withObject timeline? on fun i => do
    return .of (.array [.array [.text "now", .text "timeOrigin"], shownReal (← nowOf i),
      shownReal (← timelineAt i).origin])
  | .mark on name start => withObject timeline? on fun i => do
    return .of (shownEntry (← markTimeline i name start))
  | .measure on name start finish => withObject timeline? on fun i => do
    match ← measureTimeline i name start finish with
    | .ok entry => return .of (shownEntry entry)
    | .error fault => return .fault fault
  | .clear on type name => withObject timeline? on fun i => do
    clearTimeline i type name
    return .of (shownEntries (← timelineAt i).entries)
  | .entries on => withObject timeline? on fun i => do
    return .of (shownEntries (← mergedEntries i))
  | .own on => withObject timeline? on fun i => do
    return .of (shownEntries (← timelineAt i).entries)
  | .named on name => withObject timeline? on fun i => do
    return .of (shownEntries (Timeline.named name (← mergedEntries i)))
  | .typed on type => withObject timeline? on fun i => do
    match EntryType.ofName? type with
    | some type => return .of (shownEntries (Timeline.typed type (← mergedEntries i)))
    | none => return .text "unknown type"
  | .summary on => withObject timeline? on fun i => do
    return .nat (← summarize i)

end ScriptHost.Session

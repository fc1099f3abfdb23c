/-
The timeline of a context.

A timeline records marks and measures in the order in which they were made.  The host may have
entries of its own: `merged` puts them together, sorted by start time in the IEEE total order,
host entries before own ones of the same time; while the host has none, the own entries stay in
the order of recording.

A measure runs from a start mark to an end mark.  Without an end mark it ends now, without a start
mark it begins at the origin, and an empty mark name counts as absent.
-/
import ScriptHost.Binary64.Nearest
import ScriptHost.Timeline.Entry
import ScriptHost.Fault

namespace ScriptHost

structure Timeline where
  context : ContextId
  /-- The wall-clock time of the origin, in whole milliseconds since the epoch. -/
  origin : Binary64
  entries : List Entry := []
  deriving Inhabited

namespace Timeline

/-- A reading of a clock in microseconds, as whole milliseconds. -/
def milliseconds (micros : Nat) : Binary64 := Binary64.ofNat (micros / 1000)

/-- Own entries together with those of the host. -/
def merge (host own : List Entry) : List Entry :=
  if host = [] then own else (host ++ own).mergeSort fun a b => a.start.totalLe b.start

def merged (t : Timeline) (host : List Entry) : List Entry := merge host t.entries

def named (name : String) (entries : List Entry) : List Entry := entries.filter (·.name = name)

def typed (type : EntryType) (entries : List Entry) : List Entry := entries.filter (·.type = type)

/-- Records an entry. -/
def push (t : Timeline) (e : Entry) : Timeline := { t with entries := t.entries ++ [e] }

/-- Records a mark. -/
def mark (t : Timeline) (name : String) (start : Binary64) : Entry × Timeline :=
  let e := Entry.mark name start
  (e, t.push e)

/-- An empty mark name counts as absent. -/
def givenMark (name : Option String) : Option String := name.filter (· ≠ "")

/-- A measure between these marks has to look them up. -/
def looksUp (start finish : Option String) : Bool :=
  (givenMark start).isSome ∨ (givenMark finish).isSome

/-- The time of a mark: the start of the first entry of that name. -/
def timeOf (entries : List Entry) (name : String) : Except Fault Binary64 :=
  match entries.find? (·.name = name) with
  | some e => .ok e.start
  | none => .error (.markNotFound "measure" name)

/-- How long it is from one mark to the other; the start is looked up first. -/
def span (now : Binary64) (entries : List Entry) (start finish : Option String) :
    Except Fault Binary64 := do
  let start ← (givenMark start).mapM (timeOf entries)
  let finish ← (givenMark finish).mapM (timeOf entries)
  match start, finish with
  | some s, some f => return f.sub s
  | some s, none => return now.sub s
  | none, some f => return f
  | none, none => return now

/-- Records a measure that is stamped with the present time. -/
def measure (t : Timeline) (now : Binary64) (host : List Entry) (name : String)
    (start finish : Option String) : Except Fault (Entry × Timeline) := do
  let duration ← span now (t.merged host) start finish
  let e := Entry.measure name now duration
  return (e, t.push e)

/-- Removes own entries of a type: all of them, or those of a name. -/
def clear (t : Timeline) (type : EntryType) (name : Option String) : Timeline :=
  { t with entries := t.entries.filter fun e => e.type ≠ type ∨ name.any (e.name ≠ ·) }

theorem merge_nil (own : List Entry) : merge [] own = own := rfl

theorem entries_mark (t : Timeline) (name : String) (start : Binary64) :
    (t.mark name start).2.entries = t.entries ++ [.mark name start] := rfl

theorem mem_entries_clear {t : Timeline} {type : EntryType} {name : Option String} {e : Entry} :
    e ∈ (t.clear type name).entries ↔
      e ∈ t.entries ∧ (e.type ≠ type ∨ ∃ n, name = some n ∧ e.name ≠ n) := by
  cases name <;> simp [clear]

end Timeline
end ScriptHost

/-
Entries of a timeline: marks and measures, with their times in milliseconds from the origin.
-/
import ScriptHost.Json.Basic

namespace ScriptHost

inductive EntryType where
  | mark
  | measure
  deriving DecidableEq, Inhabited, Repr

namespace EntryType

def name : EntryType → String
  | mark => "mark"
  | measure => "measure"

def ofName? (s : String) : Option EntryType :=
  if s = "mark" then some mark else if s = "measure" then some measure else none

end EntryType

structure Entry where
  name : String
  type : EntryType
  start : Binary64
  duration : Binary64
  deriving DecidableEq, Inhabited

namespace Entry

def mark (name : String) (start : Binary64) : Entry := ⟨name, .mark, start, .zero⟩

def measure (name : String) (start duration : Binary64) : Entry :=
  ⟨name, .measure, start, duration⟩

/-- The members of an entry as it is handed to scripts, in their order there. -/
def members (e : Entry) : List (String × Json) :=
  [("name", .text e.name), ("entryType", .text e.type.name), ("startTime", .ofReal e.start),
    ("duration", .ofReal e.duration)]

end Entry
end ScriptHost

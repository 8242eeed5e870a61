/-!
# Journal records

What the library has to say while it works.  Every operation that says something has
a function beside it that lists its records in order; a reader picks the records that
are severe enough.
-/

namespace Criteria
namespace Journal

/-- How much a record matters, the most severe level first. -/
inductive Level where
  | warn
  | debug
  | trace
deriving DecidableEq

namespace Level

def all : List Level :=
  [warn, debug, trace]

def name : Level → String
  | warn => "WARN"
  | debug => "DEBUG"
  | trace => "TRACE"

/-- The level with a given name, in capitals. -/
def ofName? (s : String) : Option Level :=
  all.find? (·.name = s)

def rank : Level → Nat
  | warn => 0
  | debug => 1
  | trace => 2

/-- Whether a reader of level `l` sees the records of level `m`. -/
def covers (l m : Level) : Bool :=
  m.rank ≤ l.rank

end Level

/-- One line of a journal. -/
structure Entry where
  level : Level
  text : String
deriving DecidableEq

namespace Entry

def render (e : Entry) : String :=
  s!"{e.level.name} {e.text}"

end Entry

/-- The lines that a reader of a level sees. -/
def linesFor (l : Level) (entries : List Entry) : List String :=
  (entries.filter fun e => l.covers e.level).map Entry.render

end Journal
end Criteria

import EdgeCaller.Text.Blank
import EdgeCaller.Text.Fold
/-!
# Log levels

A line has one of four levels, and a threshold decides which levels are printed. The threshold is
named by a setting; where that names none it follows from the kind of run. Errors are printed under
every threshold.
-/

namespace EdgeCaller

/-- The level of a line. -/
inductive Level where
  | debug
  | info
  | warn
  | error
  deriving DecidableEq, Repr

namespace Level

/-- The levels by weight. -/
def rank : Level → Nat
  | debug => 10
  | info => 20
  | warn => 30
  | error => 40

/-- The name of a level. -/
def name : Level → String
  | debug => "debug"
  | info => "info"
  | warn => "warn"
  | error => "error"

/-- The name of a level in a line, five characters wide. -/
def label : Level → String
  | debug => "DEBUG"
  | info => "INFO "
  | warn => "WARN "
  | error => "ERROR"

/-- Where the lines of a level are printed. -/
def sink : Level → String
  | debug => "debug"
  | info => "log"
  | warn => "warn"
  | error => "error"

/-- All levels, by weight. -/
def all : List Level := [debug, info, warn, error]

/-- The level of a name. -/
def ofName? (s : String) : Option Level := all.find? (·.name = s)

end Level

/-- Which levels are printed. -/
inductive Threshold where
  /-- All of them. -/
  | everything
  /-- A level and those above it. -/
  | from (lowest : Level)
  deriving DecidableEq, Repr

namespace Threshold

/-- Whether lines of a level are printed. -/
def admits : Threshold → Level → Bool
  | everything, _ => true
  | .from lowest, level => lowest.rank ≤ level.rank

/-- Errors are always printed. -/
@[simp] theorem admits_error (t : Threshold) : t.admits .error = true := by
  rcases t with _ | l
  · rfl
  · cases l <;> rfl

/-- The names that stand in every record of names, whatever was put into it. They count as levels
too, and as such hold no line back. -/
def builtinNames : List String := ["constructor", "__proto__"]

/-- The threshold that a name stands for. -/
def ofName? (s : String) : Option Threshold :=
  if builtinNames.contains s then some everything else (Level.ofName? s).map .from

/-- The threshold where none is named: only errors in a test run. -/
def standard (mode : Option String) : Threshold :=
  .from (if mode = some "test" then .error else .info)

/-- The threshold for a requested level, blanks and letter case aside, and the kind of run. -/
def ofSettings (requested mode : Option String) : Threshold :=
  ((requested.bind fun s => ofName? (String.ofList (Text.lower (Text.trim s.toList))))).getD
    (standard mode)

end Threshold

end EdgeCaller

import EdgeCaller.Calendar
import EdgeCaller.Event
import EdgeCaller.Json.Printer
import EdgeCaller.Value.Plain
import EdgeCaller.Value.Text
/-!
# The journal of a run

A journal holds the clock, the console and everything that has happened, newest first. An `Act`
writes to it, and may end early with a value: a log line can fail, because what it is to show
cannot be written, because the clock shows no date, or because the console itself fails.
-/

namespace EdgeCaller

/-- A console that fails at one of its lines, after printing it. -/
structure Fault where
  line : Nat
  error : Value

/-- The console: what it lets through, when it fails, and how many lines it has printed. -/
structure Console where
  threshold : Threshold
  fault : Option Fault := none
  lines : Nat := 0

/-- How the console does after printing its `n`-th line. -/
def Console.afterLine (c : Console) (n : Nat) : Except Value Unit :=
  match c.fault with
  | some f => if f.line = n then .error f.error else .ok ()
  | none => .ok ()

/-- An event and the time at which it happened. -/
structure Entry where
  time : Nat
  event : Event

/-- What has happened so far. -/
structure Journal where
  console : Console
  /-- The moment at which the run started. -/
  epoch : Int
  /-- Milliseconds since then. -/
  now : Nat
  /-- The events, newest first. -/
  entries : List Entry

/-- A step of a run, which may end early with a value. -/
abbrev Act := ExceptT Value (StateM Journal)

namespace Journal

/-- A journal in which nothing has happened. -/
def start (console : Console) (epoch : Int) : Journal := ⟨console, epoch, 0, []⟩

/-- Adds an event. -/
def add (j : Journal) (e : Event) : Journal := { j with entries := ⟨j.now, e⟩ :: j.entries }

@[simp] theorem entries_add (j : Journal) (e : Event) :
    (j.add e).entries = ⟨j.now, e⟩ :: j.entries := rfl

/-- The events so far, oldest first. -/
def events (j : Journal) : List Entry := j.entries.reverse

/-- What a line says after its message: the details over several lines, if there are any. -/
def suffix : Option Value → Except Value String
  | none => .ok ""
  | some details =>
    if details.memberCount = 0 then .ok ""
    else
      match details.plain with
      | .ok (some value) => .ok (" " ++ value.indented)
      | .ok none => .ok " undefined"
      | .error e => .error e.failure

/-- The text of a line. -/
def lineText (stamp : String) (level : Level) (message suffix : String) : String :=
  "[" ++ stamp ++ "] " ++ level.label ++ " " ++ message ++ suffix

/-- The journal after a line was printed. -/
def printed (level : Level) (text : String) (j : Journal) : Journal :=
  { j with console := { j.console with lines := j.console.lines + 1 } }.add (.line level text)

/-- Prints a line. The console may fail after it. -/
def print (level : Level) (text : String) (j : Journal) : Except Value Unit × Journal :=
  (j.console.afterLine (j.console.lines + 1), printed level text j)

/-- Writes a line if its level is printed. -/
def write (level : Level) (message : String) (details : Option Value) (j : Journal) :
    Except Value Unit × Journal :=
  if j.console.threshold.admits level then
    match suffix details with
    | .error e => (.error e, j)
    | .ok s =>
      match Calendar.stamp? (j.epoch + j.now) with
      | none => (.error (Value.rangeFailure "Invalid time value"), j)
      | some stamp => print level (lineText stamp level message s) j
  else (.ok (), j)

/-- A line whose level is not printed changes nothing. -/
theorem write_of_not_admits {j : Journal} {level : Level}
    (h : j.console.threshold.admits level = false) (message : String) (details : Option Value) :
    write level message details j = (.ok (), j) := by
  simp [write, h]

/-- Printing adds one line, whether or not the console then fails. -/
theorem entries_print (level : Level) (text : String) (j : Journal) :
    (print level text j).2.entries = ⟨j.now, .line level text⟩ :: j.entries := rfl

/-- Writing leaves the journal as it is or adds one line of its level. -/
theorem entries_write (level : Level) (message : String) (details : Option Value) (j : Journal) :
    (write level message details j).2.entries = j.entries ∨
      ∃ text, (write level message details j).2.entries =
        ⟨j.now, .line level text⟩ :: j.entries := by
  unfold write
  split
  · split
    · exact .inl rfl
    · split
      · exact .inl rfl
      · exact .inr ⟨_, entries_print _ _ _⟩
  · exact .inl rfl

/-- Writing takes no time. -/
@[simp] theorem now_write (level : Level) (message : String) (details : Option Value)
    (j : Journal) : (write level message details j).2.now = j.now := by
  unfold write
  split
  · split
    · rfl
    · split <;> rfl
  · rfl

end Journal

namespace Act

variable {α β : Type}

/-- Performs an act on a journal: what it gives, or the value that ended it early, and the journal
after it. -/
def exec (act : Act α) (j : Journal) : Except Value α × Journal := act.run.run j

@[simp] theorem exec_pure (a : α) (j : Journal) : exec (pure a : Act α) j = (.ok a, j) := rfl

@[simp] theorem exec_throw (e : Value) (j : Journal) :
    exec (throw e : Act α) j = (.error e, j) := rfl

/-- An act after another: it is performed on the journal that the first leaves, unless the first
ends early. -/
theorem exec_bind (act : Act α) (f : α → Act β) (j : Journal) :
    exec (act >>= f) j = match exec act j with
      | (.ok a, k) => exec (f a) k
      | (.error e, k) => (.error e, k) := by
  simp only [exec, ExceptT.run, StateT.run, bind, ExceptT.bind, ExceptT.mk, StateT.bind]
  rcases act j with ⟨a | e, k⟩ <;> rfl

theorem exec_bind_of_ok {act : Act α} {f : α → Act β} {j k : Journal} {a : α}
    (h : exec act j = (.ok a, k)) : exec (act >>= f) j = exec (f a) k := by
  rw [exec_bind, h]

theorem exec_bind_of_error {act : Act α} {f : α → Act β} {j k : Journal} {e : Value}
    (h : exec act j = (.error e, k)) : exec (act >>= f) j = (.error e, k) := by
  rw [exec_bind, h]

/-- Adds an event to the journal. -/
def emit (e : Event) : Act Unit := modify fun j : Journal => j.add e

@[simp] theorem exec_emit (e : Event) (j : Journal) : exec (emit e) j = (.ok (), j.add e) := rfl

/-- Writes a log line. -/
def log (level : Level) (message : String) (details : Option Value) : Act Unit :=
  ExceptT.mk fun j => Journal.write level message details j

@[simp] theorem exec_log (level : Level) (message : String) (details : Option Value)
    (j : Journal) : exec (log level message details) j = Journal.write level message details j :=
  rfl

/-- Gives what was made of the text of a value, or ends early because it has none. -/
def ofText : Except Unconvertible α → Act α
  | .ok s => pure s
  | .error e => throw e.failure

/-- Writes a log line without details. -/
def say (level : Level) (message : String) : Act Unit := log level message none

/-- Writes a log line with named details. -/
def tell (level : Level) (message : String) (details : List (String × Value)) : Act Unit :=
  log level message (some (.record details))

end Act

end EdgeCaller

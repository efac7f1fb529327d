import EdgeCaller.Value.Plain
import EdgeCaller.Value.Text
import EdgeCaller.Json.Printer
/-!
# Reports

What a log line says about a failure: the message of a failure, a text as it is, and of any other
value what it is written as, or its text where it cannot be written. Only a value that has neither
has no report; the attempt then ends with a failure of its own. A record that is modelled on a
failure counts as one.
-/

namespace EdgeCaller.Value

/-- A value written on one line, if it has a plain form. -/
def written? (v : Value) : Except Unwritable (Option String) :=
  v.plain.map fun j? => j?.map Json.compact

/-- What a report says of a value: a text, but for the message that a record modelled on a failure
has itself, which may be any value. -/
def report (v : Value) : Except Unconvertible Value :=
  match v.failure?, v with
  | some (_, message), _ => .ok message
  | none, text s => .ok (text s)
  | none, v =>
    match v.written? with
    | .ok (some s) => .ok (text s)
    | .ok none | .error _ => v.text?.map text

@[simp] theorem report_failure (name message : String) :
    report (failure name message) = .ok (text message) := rfl

@[simp] theorem report_openFailure (message transport : String) (cause : Value) :
    report (openFailure message transport cause) = .ok (text message) := rfl

@[simp] theorem report_text (s : String) : report (text s) = .ok (text s) := rfl

/-- The message of a failure, or the text of any other value. -/
def brief (v : Value) : Except Unconvertible Value :=
  match v.failure? with
  | some (_, message) => .ok message
  | none => v.text?.map text

end EdgeCaller.Value

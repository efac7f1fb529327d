import EdgeCaller.Environment
import EdgeCaller.FileTree
import EdgeCaller.Json.Reader
import EdgeCaller.TimeSpan
import EdgeCaller.Transport
/-!
# Settings

The configuration of a sender comes from four settings. They are taken from an environment, below
which a settings file lies: a flat JSON object whose values count as text. What stands in the
environment wins, even where it is empty. `Problem` says what can be wrong, `Problem.message` in
which words.
-/

namespace EdgeCaller

/-- The configuration of a sender. -/
structure Config where
  /-- Milliseconds between two attempts. -/
  interval : Number
  target : Target
  transport : Transport
  deriving DecidableEq, Repr

namespace Settings

/-- The settings by name. -/
abbrev Layer := List (String × String)

def delayName : String := "DMDelay"
def moduleName : String := "TargetModuleId"
def deviceName : String := "IOTEDGE_DEVICEID"
def transportName : String := "ClientTransportType"

/-- The path of the settings file. -/
def fileName : String := "config/appsettings.json"

/-- A setting that is wrong by itself. -/
inductive FieldProblem where
  | emptyModule
  | missingDevice
  | emptyDevice
  deriving DecidableEq, Repr

/-- What can be wrong with settings. -/
inductive Problem where
  /-- The settings file cannot be read as JSON. -/
  | unreadable
  /-- The settings file is not a flat object. -/
  | notFlat
  /-- Some settings are wrong by themselves. -/
  | fields (problems : List FieldProblem)
  /-- The delay is no time span, or none above zero. -/
  | delay (text : String)
  /-- No transport has this name. -/
  | transport (text : String)
  deriving DecidableEq, Repr

namespace FieldProblem

/-- The setting that is wrong. -/
def field : FieldProblem → String
  | emptyModule => moduleName
  | missingDevice | emptyDevice => deviceName

/-- What is wrong with it. -/
def message : FieldProblem → String
  | emptyModule => "TargetModuleId must not be empty"
  | missingDevice => "IOTEDGE_DEVICEID is required for the direct method sender"
  | emptyDevice => "String must contain at least 1 character(s)"

end FieldProblem

/-- The names of the transports, listed. -/
def transportNames : String := ", ".intercalate (Transport.all.map Transport.name)

/-- The words for a problem. -/
def Problem.message : Problem → String
  | unreadable => "Invalid " ++ fileName ++ ": <unreadable>"
  | notFlat => "Invalid " ++ fileName ++ ": expected a flat object of scalar values"
  | fields problems =>
    "Invalid direct method sender configuration: " ++
      (Json.object (problems.map fun p => (p.field, .array [.text p.message]))).compact
  | delay text => "DMDelay must be a positive time span such as 00:00:05, got \"" ++ text ++ "\""
  | transport text =>
    "ClientTransportType must be one of " ++ transportNames ++ ", got \"" ++ text ++ "\""

/-- A problem as a failure. -/
def Problem.failure (p : Problem) : Value := Value.plainFailure p.message

/-- The text of a scalar; none for the null value. Anything else is no scalar. -/
def scalarText? : Json → Option (Option String)
  | .null => some none
  | .bool b => some (some (if b then "true" else "false"))
  | .number x => some (some x.toText)
  | .text s => some (some s)
  | .array _ | .object _ => none

/-- The texts of the members of a flat object, without those that are null. -/
def flatTexts? : List (String × Json) → Option Layer
  | [] => some []
  | (name, value) :: members => do
    let s ← scalarText? value
    let rest ← flatTexts? members
    match s with
    | some s => some ((name, s) :: rest)
    | none => some rest

/-- The settings that the text of a settings file gives. -/
def ofFile (text : String) : Except Problem Layer :=
  match Json.read? text with
  | none => .error .unreadable
  | some (.object members) =>
    match flatTexts? members with
    | some layer => .ok layer
    | none => .error .notFlat
  | some _ => .error .notFlat

/-- The settings of the settings file below a place. Where there is no file there are none, and a
directory in its place cannot be read. -/
def ofTree (tree : FileTree) (place : List String) : Except Problem Layer :=
  match tree.node? (FileTree.resolve place fileName) with
  | none => .ok []
  | some .directory => .error .unreadable
  | some (.file text) => ofFile text

/-- Lays settings over others. -/
def overlay (lower upper : Layer) : Layer :=
  upper.foldl (fun acc (name, value) => Members.set name value acc) lower

/-- What is wrong with the settings by themselves, in the order of the settings. -/
def fieldProblems (layer : Layer) : List FieldProblem :=
  (if Members.get? moduleName layer = some "" then [.emptyModule] else []) ++
    match Members.get? deviceName layer with
    | none => [.missingDevice]
    | some s => if s = "" then [.emptyDevice] else []

/-- The delay where none is set. -/
def standardDelay : String := "00:00:05"

/-- The module where none is set. -/
def standardModule : String := "DirectMethodReceiver"

/-- The length of a delay, which must be a time span above zero. -/
def delay (text : String) : Except Problem Number :=
  match TimeSpan.read? text with
  | some ms => if ms.isPositive then .ok ms else .error (.delay text)
  | none => .error (.delay text)

/-- The transport of this name; the standard one where the name is empty or missing. -/
def transport (text : Option String) : Except Problem Transport :=
  match text with
  | none => .ok .standard
  | some s =>
    if s = "" then .ok .standard
    else
      match Transport.parse? s with
      | some t => .ok t
      | none => .error (.transport s)

/-- The configuration that settings give. -/
def configure (layer : Layer) : Except Problem Config :=
  match fieldProblems layer with
  | [] => do
    let interval ← delay ((Members.get? delayName layer).getD standardDelay)
    let transport ← transport (Members.get? transportName layer)
    .ok {
      interval
      target := ⟨(Members.get? deviceName layer).getD "",
        (Members.get? moduleName layer).getD standardModule⟩
      transport }
  | problems => .error (.fields problems)

/-- The configuration from the settings file below a place and an environment over it. -/
def load (tree : FileTree) (place : List String) (env : Environment) :
    Except Problem Config := do
  let lower ← ofTree tree place
  configure (overlay lower env.defined)

end Settings

end EdgeCaller

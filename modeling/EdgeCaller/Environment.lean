import EdgeCaller.Journal
import EdgeCaller.Redaction
/-!
# Environments

An environment is a list of variables. A name can stand in it without a value. Eight of the
variables configure the module client; they are shown when a sender starts, the connection string
without its keys.
-/

namespace EdgeCaller

/-- The variables of an environment. -/
abbrev Environment := List (String × Option String)

namespace Environment

/-- The environment with these variables. The reserved name is never set. -/
def ofList (entries : List (String × Option String)) : Environment :=
  entries.filter (·.1 ≠ Members.reservedName)

/-- The value of a variable. -/
def value? (env : Environment) (name : String) : Option String := (Members.get? name env).join

/-- Whether a name stands in an environment, with a value or without. -/
def has (env : Environment) (name : String) : Bool := (Members.get? name env).isSome

/-- The variables that have a value. -/
def defined (env : Environment) : List (String × String) :=
  env.filterMap fun (name, value?) => value?.map (name, ·)

/-- The variable that holds the connection string. -/
def connectionString : String := "EdgeHubConnectionString"

/-- The variables that configure the module client. -/
def clientVariables : List String :=
  [connectionString, "IOTEDGE_WORKLOADURI", "IOTEDGE_DEVICEID", "IOTEDGE_MODULEID",
    "IOTEDGE_IOTHUBHOSTNAME", "IOTEDGE_AUTHSCHEME", "IOTEDGE_MODULEGENERATIONID",
    "IOTEDGE_GATEWAYHOSTNAME"]

/-- What is shown of a variable. -/
def shown (env : Environment) (name : String) : Option String :=
  if name = connectionString then (env.value? name).map Redaction.redact else env.value? name

/-- The configuration of the module client, as it is shown. -/
def clientConfiguration (env : Environment) : List (String × Option String) :=
  clientVariables.map fun name => (name, env.shown name)

/-- A variable that may lack a value, as a log line shows it. -/
def shownValue : Option String → Value
  | some s => .text s
  | none => .null

/-- Logs the configuration of the module client. -/
def dump (configuration : List (String × Option String)) : Act Unit :=
  .tell .info "[Configuration for module client]"
    [("configuration", .record (configuration.map fun (name, v) => (name, shownValue v)))]

end Environment

end EdgeCaller

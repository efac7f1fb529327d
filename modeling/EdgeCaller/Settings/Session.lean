import EdgeCaller.Settings.Basic
import EdgeCaller.EnvFile.Basic
import EdgeCaller.Text.Units
/-!
# Loading in a session

A program loads its configuration from its own environment, which an environment file may add to.
The file is read once: the first load that is not given an environment of its own adds the
variables that are not there yet, and every later one leaves the environment alone. A file that is
missing or cannot be read adds nothing, and counts as read all the same.
-/

namespace EdgeCaller.Settings

/-- The files a program sees, its environment, and whether the environment file has been read. -/
structure Session where
  files : FileTree
  env : Environment
  loaded : Bool := false

/-- What a load may be told: another directory, and an environment to use instead. -/
structure LoadOptions where
  directory : Option String := none
  env : Option Environment := none

namespace Session

/-- The variable that names the environment file. -/
def envFileVariable : String := "DIRECT_METHOD_SENDER_ENV_FILE"

/-- The name of the environment file. -/
def envFileName (env : Environment) : String := (env.value? envFileVariable).getD ".env"

/-- Adds the variables that are not there. -/
def supplement (env : Environment) (entries : Layer) : Environment :=
  entries.foldl
    (fun env (name, value) => if Environment.has env name then env else env ++ [(name, some value)])
    env

/-- The place that a load starts from. -/
def place (s : Session) (options : LoadOptions) : List String :=
  match options.directory with
  | some path => FileTree.resolve s.files.directory path
  | none => s.files.directory

/-- The variables of the environment file below a place. -/
def envFileEntries (s : Session) (place : List String) : Layer :=
  match s.files.text? (FileTree.resolve place (envFileName s.env)) with
  | some text => EnvFile.entries text
  | none => []

/-- Reads the environment file, unless it has been read. -/
def readEnvFile (s : Session) (place : List String) : Session :=
  if s.loaded then s
  else { s with env := supplement s.env (s.envFileEntries place), loaded := true }

/-- Loads the configuration. -/
def load (s : Session) (options : LoadOptions) : Except Problem Config × Session :=
  let place := s.place options
  match options.env with
  | some env => (Settings.load s.files place env, s)
  | none =>
    let s := s.readEnvFile place
    (Settings.load s.files place s.env, s)

/-- Forgets that the environment file has been read. -/
def reset (s : Session) : Session := { s with loaded := false }

/-- Sets a variable, or removes it. The reserved name is never set. -/
def setVariable (s : Session) (name : String) : Option String → Session
  | some value =>
    if name = Members.reservedName then s
    else { s with env := Members.set name (some value) s.env }
  | none => { s with env := s.env.filter (·.1 ≠ name) }

/-- Puts a file or a directory at a path. -/
def write (s : Session) (path : String) (node : Node) : Session :=
  { s with files := s.files.write path node }

/-- Removes what stands at a path. -/
def remove (s : Session) (path : String) : Session :=
  { s with files := s.files.delete path }

/-- What is done in a session. -/
inductive Command where
  | write (path : String) (node : Node)
  | remove (path : String)
  | setVariable (name : String) (value : Option String)
  | reset
  | load (options : LoadOptions)

/-- Obeys a command. A load leaves its result aside. -/
def obey (s : Session) : Command → Session
  | .write path node => s.write path node
  | .remove path => s.remove path
  | .setVariable name value => s.setVariable name value
  | .reset => s.reset
  | .load options => (s.load options).2

/-- The variables of the environment, sorted by name. -/
def listing (s : Session) : Environment := s.env.mergeSort fun a b => Text.precedes a.1 b.1

end Session

end EdgeCaller.Settings

import EdgeCaller.Program
import EdgeCaller.Text.Utf8
import Std.Time.DateTime.Timestamp
/-!
# The command

Runs the program in the working directory, with its environment and files, until there is nothing
left to wait for. No module client is at hand here, so a configuration that is accepted leads to the
failure to create one. Lines go to the standard output, warnings and errors to the standard error.
-/

namespace EdgeCaller.Command

open Sender

/-- The variables that are looked up. -/
def lookedUp : List String :=
  Environment.clientVariables ++
    [Settings.delayName, Settings.moduleName, Settings.transportName, Program.levelVariable,
      Program.modeVariable, Settings.Session.envFileVariable]

/-- The variables that are set. -/
def environment : IO Environment :=
  lookedUp.filterMapM fun name => do
    return (← IO.getEnv name).map fun value =>
      (name, some (Text.keep value))

/-- The file at a path, if it can be read. -/
def readFile? (path : String) : IO (Option (String × Node)) := do
  try
    let bytes ← IO.FS.readBinFile path
    return some (path, .file (Text.Utf8.decode (bytes.toList.map UInt8.toNat)))
  catch _ => return none

/-- The files that the program may read. -/
def files (env : Environment) : IO FileTree := do
  let directory := FileTree.resolve [] (toString (← IO.currentDir))
  let found ← [Settings.fileName, Settings.Session.envFileName env].filterMapM readFile?
  return FileTree.ofList directory found

/-- The moment at which the program starts. -/
def now : IO Int := do
  let t ← Std.Time.Timestamp.now
  return t.toMillisecondsSinceUnixEpoch.toInt

/-- What stands in for a module client: there is none to be created. -/
def noClient : Script :=
  { creates := [{ course := .fails (Value.plainFailure "No module client is available") 0 }] }

/-- A text as it can be printed. -/
def shown (text : String) : String := String.ofList (Text.Utf8.writable text.toList)

/-- Prints the lines of a journal. -/
def print (entries : List Entry) : IO Unit :=
  entries.forM fun e =>
    match e.event with
    | .line .warn text | .line .error text => IO.eprintln (shown text)
    | .line _ text => IO.println (shown text)
    | _ => pure ()

end EdgeCaller.Command

open EdgeCaller in
/-- Runs the program and ends with its code. -/
def main : IO UInt32 := do
  let env ← Command.environment
  let r := (Program.start Command.noClient (← Command.files env) env (← Command.now) none).drain
  Command.print r.journal.events
  return UInt32.ofNat (r.exit.getD 0)

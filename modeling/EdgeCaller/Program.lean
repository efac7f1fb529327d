import EdgeCaller.Sender.Response
import EdgeCaller.Settings.Session
/-!
# The program

The program loads its configuration and runs a sender over a module client with it. A configuration
that cannot be loaded is logged, and the program ends with code 1. The log level is taken from the
environment as it is before the environment file is read.
-/

namespace EdgeCaller.Program

open Sender

/-- The variable that names the log level. -/
def levelVariable : String := "DIRECT_METHOD_SENDER_LOG_LEVEL"

/-- The variable that names the kind of run. -/
def modeVariable : String := "NODE_ENV"

/-- The threshold that an environment sets. -/
def threshold (env : Environment) : Threshold :=
  .ofSettings (env.value? levelVariable) (env.value? modeVariable)

/-- What the program runs with a configuration. -/
def plan (script : Script) (config : Config) (env : Environment) : Plan where
  scope := .program
  link := .client
  script := script
  target := config.target
  interval := config.interval
  transport := config.transport.name
  configuration := env.clientConfiguration
  name := "program"

/-- A program without a configuration: it logs the problem and ends. -/
def refuse (r : Run) (p : Settings.Problem) : Run :=
  r.perform
    (Act.tell .error "Failed to load direct method sender configuration"
      [("error", .text p.message)])
    Run.escape fun r _ => r.exitWith 1

/-- Starts the program in a directory with these files. -/
def start (script : Script) (files : FileTree) (env : Environment) (epoch : Int)
    (fault : Option Fault) : Run :=
  let journal := Journal.start { threshold := threshold env, fault } epoch
  let (result, session) := Settings.Session.load { files, env } {}
  match result with
  | .ok config => (Run.create (plan script config session.env) journal).begin
  | .error p =>
    let idle : Plan := { scope := .program, link := .client, script, target := ⟨"", ""⟩ }
    refuse (Run.create idle journal) p

end EdgeCaller.Program

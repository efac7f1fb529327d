import EdgeCaller.Client.Dial
import EdgeCaller.Sender.Plan
import EdgeCaller.Shutdown.Coordinator
import EdgeCaller.Timers
/-!
# A run

A run is always at one point: it awaits the answer to one call, or the end of the pause between
two attempts, or it has ended. An answer that has arrived is kept in `ready` until the run goes on
from it, which it does between steps of the world around it.

This module holds the state of a run and the ways in which it ends. A program that ends well exits
with code 0, and one that fails logs the failure and exits with code 1.
-/

namespace EdgeCaller.Sender

/-- Where a run is. -/
inductive Phase where
  /-- Not begun. -/
  | idle
  /-- Awaiting a scripted connection. -/
  | connecting
  /-- Awaiting a client call on the way to a connection. -/
  | dialing (dial : Dial)
  /-- Awaiting the answer to a call; the name of its method is shown afterwards. -/
  | invoking (methodName : Value)
  /-- Awaiting that the event is sent. -/
  | publishing
  /-- Between two attempts. -/
  | pausing
  /-- Awaiting that the connection is closed, after this failure of the loop. -/
  | closing (failure : Option Value)
  | ended (s : Settlement)

/-- What a timer is for. -/
inductive Alarm where
  | grace
  | pause
  /-- The answer to the call that is awaited. -/
  | answer (s : Settlement)

/-- A run and the world around it. -/
structure Run where
  plan : Plan
  journal : Journal
  timers : Timers Alarm := []
  tally : Tally := {}
  /-- How many pauses there have been. -/
  waits : Nat := 0
  /-- How often the error policy was asked. -/
  consults : Nat := 0
  /-- The coordinator, which has no listeners until it is armed. -/
  coordinator : Coordinator
  phase : Phase := .idle
  /-- The answer from which the run goes on. -/
  ready : Option Settlement := none
  /-- The code with which the program ended. -/
  exit : Option Nat := none
  /-- A value that escaped from a signal or a timer. -/
  escaped : Option Value := none

namespace Run

/-- A run that has not begun. -/
def create (plan : Plan) (journal : Journal) : Run :=
  { plan, journal,
    coordinator :=
      { id := plan.name, signals := Coordinator.standardSignals, gracePeriod := plan.gracePeriod,
        latch := { waiting := [.stopGrace 0] }, listening := false } }

/-- Adds an event. -/
def note (r : Run) (e : Event) : Run := { r with journal := r.journal.add e }

/-- Performs an act, and goes on with what it gives or with the value that ended it early. -/
def perform {α : Type} (r : Run) (act : Act α) (fail : Run → Value → Run)
    (next : Run → α → Run) : Run :=
  match act.exec r.journal with
  | (.ok a, journal) => next { r with journal } a
  | (.error e, journal) => fail { r with journal } e

/-- Keeps a value that escaped. -/
def escape (r : Run) (e : Value) : Run := { r with escaped := some (r.escaped.getD e) }

/-- Awaits an answer, which may never come. -/
def await (r : Run) : Option (Nat × Settlement) → Run
  | none => r
  | some (0, s) => { r with ready := some s }
  | some (after, s) =>
    { r with timers := r.timers.add (r.journal.now + after) (.answer s) }

/-- Ends the program. -/
def exitWith (r : Run) (code : Nat) : Run := { r with exit := some code }.note (.exit code)

/-- Logs the failure that ends the program. One that cannot be logged leaves the program as it
is. -/
def crash (r : Run) (e : Value) : Run :=
  r.perform (do Act.tell .error "Direct method sender crashed" (← crashDetails e))
    (fun r _ => r) (fun r _ => r.exitWith 1)

/-- Ends the run. -/
def finish (r : Run) (s : Settlement) : Run :=
  let r := { r with phase := .ended s }
  match r.plan.scope with
  | .attempt => r
  | .loop | .sender => r.note (.settled r.plan.name s)
  | .program =>
    match s with
    | .fulfilled _ => r.exitWith 0
    | .rejected e => r.crash e

/-- Ends the run with a failure. -/
def fail (r : Run) (e : Value) : Run := r.finish (.rejected e)

end Run

end EdgeCaller.Sender

import EdgeCaller.Sender.Progress
/-!
# Signals and time

What happens to a run from outside: signals, an abort, and time that passes. A request to shut down
starts the grace period, and when that ends before teardown is finished, the exit is forced. Time
passes from timer to timer.
-/

namespace EdgeCaller.Sender.Run

/-- A request to shut down. -/
def request (r : Run) (reason : String) : Run :=
  r.perform (r.coordinator.request reason) escape fun r (c, aborted) =>
    if aborted then
      let r := { r with coordinator := c }.endPause
      if c.latch.isSet then r
      else { r with timers := r.timers.start r.journal.now c.gracePeriod .grace }
    else r

/-- Whether anyone listens for a signal. Nobody does once the program has ended. -/
def hears (r : Run) (signal : String) : Bool :=
  r.exit.isNone && decide (0 < r.coordinator.listeners signal)

/-- Delivers a signal. -/
def deliver (r : Run) (signal : String) : Run := if r.hears signal then r.request signal else r

/-- Wakes what a timer was for. -/
def wake (r : Run) : Alarm → Run
  | .pause => { r with ready := some (.fulfilled .nothing) }
  | .answer s => { r with ready := some s }
  | .grace =>
    r.perform r.coordinator.graceEnded escape fun r forced =>
      if forced then
        match r.plan.scope with
        | .program => r.exitWith 1
        | .attempt | .loop | .sender => r.note (.forceExit r.coordinator.id)
      else r

/-- Moves the clock. -/
def moveTo (time : Nat) (r : Run) : Run := { r with journal := { r.journal with now := time } }

/-- Moves the clock to the next timer and fires it. -/
def fire (r : Run) : Run :=
  match r.timers.next? with
  | none => r
  | some (t, rest) => ({ r with timers := rest }.moveTo t.due).wake t.wake

/-- When the next timer is due. A program that has ended has none. -/
def nextDue (r : Run) : Option Nat := if r.exit.isSome then none else r.timers.nextDue

/-- The run as a machine that timers drive. With `flush` it goes on after each timer. -/
def clockwork (flush : Bool) : Clockwork Run where
  nextDue := nextDue
  fire r := if flush then r.fire.drain else r.fire
  moveTo := moveTo

/-- Advances the clock. Each timer starts at most one other, a millisecond later or more. -/
def advance (r : Run) (flush : Bool) (ms : Nat) : Run :=
  let r := if flush then r.drain else r
  (clockwork flush).advanceTo (r.journal.now + ms) ((r.timers.length + 1) * (ms + 1)) r

/-- What happens to a run from outside. -/
inductive Stimulus where
  | signal (name : String)
  | abort
  /-- Time passes. -/
  | pass (ms : Nat)
  deriving DecidableEq, Repr

/-- What a stimulus does at once. -/
def meet (r : Run) (flush : Bool) : Stimulus → Run
  | .signal name => r.deliver name
  | .abort => r.abort
  | .pass ms => r.advance flush ms

/-- Responds to a stimulus. With `flush` the run then goes on as far as it can. -/
def respond (r : Run) (flush : Bool) (stimulus : Stimulus) : Run :=
  let r := r.meet flush stimulus
  if flush then r.drain else r

/-- Fires timers, at most `fuel`, until the run has ended or none is left. -/
def runOut : Nat → Run → Run
  | 0, r => r
  | fuel + 1, r =>
    match r.phase with
    | .ended _ => r
    | _ => if r.timers.isEmpty then r else runOut fuel r.fire.drain

/-- Makes one attempt and lets time pass until it has ended or nothing is left to come. An attempt
awaits two answers at most. -/
def attempt (r : Run) : Run := runOut 2 { r with phase := .idle }.begin.drain

end EdgeCaller.Sender.Run

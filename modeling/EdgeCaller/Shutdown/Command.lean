import EdgeCaller.Shutdown.Switchboard
/-!
# Commands to a switchboard

A switchboard is worked by commands. What follows from a command is queued, and the queue is worked
off after it and after every timer, unless the command asks for that to wait.
-/

namespace EdgeCaller.Switchboard

/-- Works off one reaction. -/
def react (b : Switchboard) : Reaction → Switchboard
  | .stopGrace owner => b.stopGrace owner
  | .report name => { b with journal := b.journal.add (.settled name (.fulfilled .nothing)) }

/-- Works off the queue. Nothing that follows queues anything itself. -/
def drain (b : Switchboard) : Switchboard := b.queue.foldl react { b with queue := [] }

/-- Wakes what a timer was for. -/
def wake (b : Switchboard) : Alarm → Switchboard
  | .grace owner =>
    match b.stations[owner]? with
    | none => b
    | some s =>
      match b.perform s.coordinator.graceEnded with
      | (some true, b) => { b with journal := b.journal.add (.forceExit s.coordinator.id) }
      | (_, b) => b
  | .sleep owner sleeper =>
    let b := b.update owner fun s => { s with sleepers := s.sleepers.erase sleeper }
    b.enqueue [.report sleeper.name]

/-- Moves the clock. -/
def moveTo (time : Nat) (b : Switchboard) : Switchboard :=
  { b with journal := { b.journal with now := time } }

/-- Moves the clock to the next timer and fires it. -/
def fire (b : Switchboard) : Switchboard :=
  match b.timers.next? with
  | none => b
  | some (t, rest) => ({ b with timers := rest }.moveTo t.due).wake t.wake

/-- The switchboard as a machine that timers drive. With `flush` the queue is worked off after each
timer. -/
def clockwork (flush : Bool) : Clockwork Switchboard where
  nextDue b := b.timers.nextDue
  fire b := if flush then b.fire.drain else b.fire
  moveTo := moveTo

/-- Advances the clock. No timer starts another, so each fires at most once. -/
def advance (b : Switchboard) (flush : Bool) (ms : Nat) : Switchboard :=
  let b := if flush then b.drain else b
  (clockwork flush).advanceTo (b.journal.now + ms) b.timers.length b

/-- What is done to a switchboard. A coordinator is called by its name. -/
inductive Command where
  | arm (id : String) (source : Source) (signals : List String) (gracePeriod : Number)
  | signal (source : Source) (name : String)
  | request (id reason : String)
  | complete (id : String)
  | watch (id name : String)
  | sleep (id name : String) (ms : Number)
  | dispose (id : String)
  /-- Time passes. -/
  | pass (ms : Nat)

/-- Does something to the coordinator of a name, if there is one. -/
def withOwner (b : Switchboard) (id : String) (f : Switchboard → Nat → Switchboard) : Switchboard :=
  match b.owner? id with
  | some owner => f b owner
  | none => b

/-- Does what a command says, and nothing that follows from it. -/
def execute (b : Switchboard) (flush : Bool) : Command → Switchboard
  | .arm id source signals gracePeriod => b.arm id source signals gracePeriod
  | .signal source name => b.deliver source name
  | .request id reason => b.withOwner id fun b owner => b.request owner reason
  | .complete id => b.withOwner id complete
  | .watch id name => b.withOwner id fun b owner => b.watch owner name
  | .sleep id name ms => b.withOwner id fun b owner => b.sleep owner name ms
  | .dispose id => b.withOwner id dispose
  | .pass ms => b.advance flush ms

/-- Obeys a command. With `flush` the queue is worked off after it. -/
def obey (b : Switchboard) (flush : Bool) (command : Command) : Switchboard :=
  let b := b.execute flush command
  if flush then b.drain else b

end EdgeCaller.Switchboard

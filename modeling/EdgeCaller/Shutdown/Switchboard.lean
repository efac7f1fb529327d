import EdgeCaller.Shutdown.Coordinator
import EdgeCaller.Timers
/-!
# Coordinators side by side

Any number of coordinators may be armed, on a shared source of signals or on that of the process,
and any number of sleeps may wait for the abort of one. A sleep ends at its time or at the abort,
whichever comes first. What follows the setting of a latch or the end of a sleep does not happen at
once: it is queued, and the queue is worked off between steps.
-/

namespace EdgeCaller

/-- Where signals come from. -/
inductive Source where
  | shared
  | process
  deriving DecidableEq, Repr

/-- A sleep that has not ended. -/
structure Sleeper where
  ticket : Nat
  name : String
  deriving DecidableEq, Repr

/-- A coordinator, the source it listens to, and the sleeps that its abort ends, oldest first. -/
structure Station where
  coordinator : Coordinator
  source : Source
  sleepers : List Sleeper := []

/-- What a timer is for. -/
inductive Alarm where
  /-- The end of the grace period of a coordinator. -/
  | grace (owner : Nat)
  /-- The end of a sleep that the abort of a coordinator would end too. -/
  | sleep (owner : Nat) (sleeper : Sleeper)
  deriving DecidableEq, Repr

namespace Alarm

/-- Whether a timer is the grace timer of a coordinator. -/
def isGraceOf (owner : Nat) : Alarm → Bool
  | grace n => n == owner
  | sleep _ _ => false

/-- Whether a timer is that of one of some sleeps. -/
def isSleepOf (sleepers : List Sleeper) : Alarm → Bool
  | grace _ => false
  | sleep _ s => sleepers.any fun other => other.ticket == s.ticket

end Alarm

/-- Coordinators, their timers, and what is queued. -/
structure Switchboard where
  journal : Journal
  timers : Timers Alarm := []
  /-- All coordinators, in the order in which they were armed. -/
  stations : List Station := []
  /-- The coordinator that each name stands for now, in the order of first use. -/
  names : List (String × Nat) := []
  queue : List Reaction := []
  tickets : Nat := 0
  /-- A value that escaped from a signal or a timer. -/
  escaped : Option Value := none

namespace Switchboard

/-- Performs an act. A value that ends it early escapes, unless one has escaped before. -/
def perform {α : Type} (b : Switchboard) (act : Act α) : Option α × Switchboard :=
  match act.exec b.journal with
  | (.ok a, journal) => (some a, { b with journal })
  | (.error e, journal) => (none, { b with journal, escaped := some (b.escaped.getD e) })

/-- Changes one station. -/
def update (b : Switchboard) (owner : Nat) (f : Station → Station) : Switchboard :=
  { b with stations := b.stations.modify owner f }

/-- Queues what is to follow. -/
def enqueue (b : Switchboard) (reactions : List Reaction) : Switchboard :=
  { b with queue := b.queue ++ reactions }

/-- Arms a coordinator under a name. One that had the name before goes on without it. -/
def arm (b : Switchboard) (id : String) (source : Source) (signals : List String)
    (gracePeriod : Number) : Switchboard :=
  let owner := b.stations.length
  let c : Coordinator :=
    { id, signals, gracePeriod, latch := { waiting := [.stopGrace owner] } }
  { b with
    stations := b.stations ++ [{ coordinator := c, source }]
    names := Members.set id owner b.names
    journal := b.journal.add (.armed id) }

/-- Ends every sleep of a station, oldest first. -/
def wakeAll (b : Switchboard) (owner : Nat) (sleepers : List Sleeper) : Switchboard :=
  let b := b.update owner fun s => { s with sleepers := [] }
  { b with
    timers := b.timers.cancel (Alarm.isSleepOf sleepers)
    queue := b.queue ++ sleepers.map fun s => .report s.name }

/-- A request to a coordinator. -/
def request (b : Switchboard) (owner : Nat) (reason : String) : Switchboard :=
  match b.stations[owner]? with
  | none => b
  | some s =>
    match b.perform (s.coordinator.request reason) with
    | (some (c, true), b) =>
      let b := (b.update owner fun s => { s with coordinator := c }).wakeAll owner s.sleepers
      if c.latch.isSet then b
      else { b with timers := b.timers.start b.journal.now c.gracePeriod (.grace owner) }
    | (_, b) => b

/-- How many listeners a signal of a source has. -/
def listeners (b : Switchboard) (source : Source) (signal : String) : Nat :=
  ((b.stations.filter (·.source = source)).map (·.coordinator.listeners signal)).foldr (· + ·) 0

/-- The coordinators that hear a signal of a source, each as often as it listens. -/
def hearers (b : Switchboard) (source : Source) (signal : String) : List Nat :=
  b.stations.zipIdx.flatMap fun (s, owner) =>
    if s.source = source then List.replicate (s.coordinator.listeners signal) owner else []

/-- Delivers a signal. The first value that escapes ends the delivery. -/
def deliver (b : Switchboard) (source : Source) (signal : String) : Switchboard :=
  (b.hearers source signal).foldl
    (fun b owner => if b.escaped.isSome then b else b.request owner signal) b

/-- Sets the latch of a coordinator. -/
def complete (b : Switchboard) (owner : Nat) : Switchboard :=
  match b.stations[owner]? with
  | none => b
  | some s =>
    let (done, released, latch) := s.coordinator.latch.set
    let b := b.update owner fun s => { s with coordinator := { s.coordinator with latch } }
    let b := if done then { b with journal := b.journal.add (.completed s.coordinator.id) } else b
    b.enqueue released

/-- Watches the latch of a coordinator. -/
def watch (b : Switchboard) (owner : Nat) (name : String) : Switchboard :=
  match b.stations[owner]? with
  | none => b
  | some s =>
    let (released, latch) := s.coordinator.latch.wait (.report name)
    let b := b.update owner fun s => { s with coordinator := { s.coordinator with latch } }
    b.enqueue released

/-- Begins a sleep that the abort of a coordinator ends. After the abort it is over at once. -/
def sleep (b : Switchboard) (owner : Nat) (name : String) (ms : Number) : Switchboard :=
  match b.stations[owner]? with
  | none => b
  | some s =>
    if s.coordinator.isAborted then b.enqueue [.report name]
    else
      let sleeper : Sleeper := ⟨b.tickets, name⟩
      let b := b.update owner fun s => { s with sleepers := s.sleepers ++ [sleeper] }
      { b with
        tickets := b.tickets + 1
        timers := b.timers.start b.journal.now ms (.sleep owner sleeper) }

/-- Calls off the grace period of a coordinator. -/
def stopGrace (b : Switchboard) (owner : Nat) : Switchboard :=
  { b with timers := b.timers.cancel (Alarm.isGraceOf owner) }

/-- Takes the listeners of a coordinator away and calls off its grace period. -/
def dispose (b : Switchboard) (owner : Nat) : Switchboard :=
  match b.stations[owner]? with
  | none => b
  | some s =>
    let b := b.update owner fun s => { s with coordinator := s.coordinator.detach }
    { b with journal := b.journal.add (.detached s.coordinator.id) }.stopGrace owner

/-- The coordinator that a name stands for. -/
def owner? (b : Switchboard) (id : String) : Option Nat := Members.get? id b.names

/-- The coordinators that have a name, in the order of its first use. -/
def named (b : Switchboard) : List Coordinator :=
  b.names.filterMap fun (_, owner) => (b.stations[owner]?).map (·.coordinator)

end Switchboard

end EdgeCaller

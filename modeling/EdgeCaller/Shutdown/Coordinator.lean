import EdgeCaller.Journal
import EdgeCaller.Latch
/-!
# Shutdown coordinators

A coordinator listens for signals. The first request to shut down, from a signal or made directly,
aborts the work with a reason, and a grace period begins. If teardown is not finished when it ends,
the exit is forced. Later requests are only noted.
-/

namespace EdgeCaller

/-- What follows when a latch is set or a sleep is over. -/
inductive Reaction where
  /-- The grace period of a coordinator is called off. -/
  | stopGrace (owner : Nat)
  /-- The end of a watched wait or sleep is reported. -/
  | report (name : String)
  deriving DecidableEq, Repr

/-- A shutdown coordinator. -/
structure Coordinator where
  /-- The name it has in events. -/
  id : String
  /-- The signals it listens for. -/
  signals : List String
  /-- Milliseconds that teardown may take. -/
  gracePeriod : Number
  /-- Why the work was aborted, once it was. -/
  reason : Option String := none
  /-- Set when teardown is finished. -/
  latch : Latch Reaction := {}
  /-- Whether its listeners are attached. -/
  listening : Bool := true

namespace Coordinator

/-- The signals that a coordinator listens for where none are named. -/
def standardSignals : List String := ["SIGINT", "SIGTERM"]

/-- Whether the work was aborted. -/
def isAborted (c : Coordinator) : Bool := c.reason.isSome

/-- How many listeners a coordinator has for a signal. -/
def listeners (c : Coordinator) (signal : String) : Nat :=
  if c.listening then c.signals.count signal else 0

/-- The grace period as log lines show it. -/
def graceDetails (c : Coordinator) : List (String × Value) :=
  [("gracePeriodMs", .number c.gracePeriod)]

/-- A request to shut down: the coordinator after it, and whether the work is aborted by it. -/
def request (c : Coordinator) (reason : String) : Act (Coordinator × Bool) := do
  if c.isAborted then
    Act.say .info ("Received " ++ reason ++ ", shutdown already in progress")
    return (c, false)
  else
    Act.tell .info ("Received " ++ reason ++ ", shutting down...") c.graceDetails
    Act.emit (.abort c.id)
    return ({ c with reason := some reason }, true)

/-- The end of the grace period: whether the exit is to be forced. -/
def graceEnded (c : Coordinator) : Act Bool := do
  if c.latch.isSet then return false
  else
    Act.tell .error "Shutdown grace period elapsed before teardown completed" c.graceDetails
    return true

/-- Takes the listeners away. -/
def detach (c : Coordinator) : Coordinator := { c with listening := false }

end Coordinator

end EdgeCaller

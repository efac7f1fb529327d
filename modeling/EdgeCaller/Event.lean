import EdgeCaller.Level
import EdgeCaller.Message
import EdgeCaller.Transport
/-!
# Events

What can be seen of a sender from outside, and the points of a run that its laws speak of: the
answers to calls, the beginning and end of an attempt and the failure that the error policy is asked
about, and the stages of a shutdown.
-/

namespace EdgeCaller

/-- What an operation ends with when it succeeds. -/
inductive Answer where
  | nothing
  | connection
  | code (n : Nat)
  | response (status payload : Value)
  | outcome (o : Outcome)

/-- How an operation ended. -/
inductive Settlement where
  | fulfilled (answer : Answer)
  | rejected (error : Value)

/-- What is asked for by a call over a connection. -/
inductive Request where
  | invoke
  | publish
  | close
  deriving DecidableEq, Repr

/-- Which call over a connection it is: what it asks for, and its number among the calls that ask
for the same, counted from one. -/
structure CallId where
  request : Request
  number : Nat
  deriving DecidableEq, Repr

/-- One event of a run. -/
inductive Event where
  /-- A log line. -/
  | line (level : Level) (text : String)
  /-- The `n`-th calls over a connection. -/
  | invoke (n : Nat) (target : Target) (call : MethodCall)
  | publish (n : Nat) (event : Telemetry)
  | close (n : Nat)
  /-- A call over a connection was answered. -/
  | answered (request : Request) (settlement : Settlement)
  /-- A call over a connection ended, as its caller sees it. -/
  | ended (call : CallId) (settlement : Settlement)
  /-- A connection was asked for. -/
  | connect (transport : String)
  /-- The calls to a module client. -/
  | clientCreate (wire : Wire)
  | clientOpen
  | clientClose
  | clientInvoke (target : Target) (call : MethodCall)
  | clientSend (event : Telemetry)
  /-- The error policy was asked about a failure, and noted it. -/
  | consulted (stage : Stage) (error : Value)
  | policy (stage : Stage) (kind report : Value)
  /-- An attempt began, and ended. -/
  | attemptBegan
  | attemptEnded (outcome : Outcome)
  /-- The wait between two attempts. -/
  | wait (ms : Number)
  /-- The stages of a shutdown: listeners added, the abort, the forced exit, teardown finished,
  listeners removed. -/
  | armed (id : String)
  | abort (id : String)
  | forceExit (id : String)
  | completed (id : String)
  | detached (id : String)
  /-- An operation that is watched under a name ended. -/
  | settled (name : String) (settlement : Settlement)
  /-- The program ended. -/
  | exit (code : Nat)

end EdgeCaller

import EdgeCaller.Environment
import EdgeCaller.Report
import EdgeCaller.Script
/-!
# What a run is given

A run is an attempt, a loop of attempts, or a whole sender that opens a connection, loops and tears
down; as a program it also ends the process. It speaks over a connection that a script stands for,
or over a module client that one stands for.

An attempt that fails asks the error policy. A policy that returns lets the loop go on, whatever
the failure was; one that fails itself ends the loop.
-/

namespace EdgeCaller.Sender

/-- How much of a sender runs. -/
inductive Scope where
  | attempt
  | loop
  | sender
  | program
  deriving DecidableEq, Repr

/-- What a run speaks over. -/
inductive Link where
  /-- A scripted connection. -/
  | direct
  /-- A connection over a scripted module client. -/
  | client
  deriving DecidableEq, Repr

/-- How a loop waits between attempts. -/
inductive Pace where
  /-- By a timer, which an abort cuts short. -/
  | timed
  /-- Not at all; only the wait is noted. -/
  | immediate
  deriving DecidableEq, Repr

/-- What a policy does when it is asked: the lines it writes, and the value it then fails with, if
it fails. -/
structure Conduct where
  lines : List (Level × String × List (String × Value)) := []
  failure : Option Value := none

/-- What is done about a failed attempt. -/
inductive Policy where
  /-- The failure is logged. -/
  | logAndContinue
  /-- The failure is noted. When the policy is asked for the `n`-th time, counted from zero, it may
  fail with a value of its own. -/
  | noted (verdict : Nat → Stage → Value → Option Value)
  /-- Anything else that a policy may do when it is asked for the `n`-th time. -/
  | custom (conduct : Nat → Stage → Value → Conduct)

namespace Policy

/-- Every failure is noted and no more. -/
def record : Policy := noted fun _ _ _ => none

/-- A failure is noted, and passed on if it happened at one of these stages. -/
def passOn (stages : List Stage) : Policy :=
  noted fun _ stage e => if stages.contains stage then some e else none

end Policy

/-- Milliseconds that teardown may take where nothing else is said. -/
def standardGracePeriod : Number := 5000

/-- What a run is given. -/
structure Plan where
  scope : Scope
  link : Link
  script : Script
  target : Target
  /-- Milliseconds between two attempts. -/
  interval : Number := 0
  /-- The name of the transport. -/
  transport : String := ""
  /-- How a scripted connection is opened. -/
  opening : Reply := {}
  policy : Policy := .logAndContinue
  pace : Pace := .timed
  /-- The configuration of the module client that is shown at the start. -/
  configuration : List (String × Option String) := []
  /-- Milliseconds that teardown may take. -/
  gracePeriod : Number := standardGracePeriod
  /-- The name under which the end of the run is reported. -/
  name : String := ""
  /-- The calls, consultations of the policy and waits, counted from one, during which the work is
  aborted. -/
  abortOnInvoke : Option Nat := none
  abortOnPublish : Option Nat := none
  abortOnConsult : Option Nat := none
  abortOnWait : Option Nat := none

/-- The message about a failed attempt. -/
def failureMessage : Stage → String
  | .invoke => "Direct method call failed"
  | .publish => "Failed to send success event"

/-- Notes what the policy was asked about. -/
def notePolicy (stage : Stage) (e : Value) : Act Unit := do
  let words ← Act.ofText e.report
  Act.emit (.policy stage e.kind words)

/-- Writes lines, one after the other. -/
def tellAll : List (Level × String × List (String × Value)) → Act Unit
  | [] => pure ()
  | (level, message, details) :: lines => do
    Act.tell level message details
    tellAll lines

/-- Asks the error policy for the `n`-th time. -/
def Policy.consult (policy : Policy) (n : Nat) (stage : Stage) (e : Value) : Act Unit :=
  match policy with
  | logAndContinue => do
    let words ← Act.ofText e.report
    Act.tell .error (failureMessage stage) [("error", words)]
  | noted verdict => do
    notePolicy stage e
    match verdict n stage e with
    | some failure => throw failure
    | none => pure ()
  | custom conduct => do
    tellAll (conduct n stage e).lines
    match (conduct n stage e).failure with
    | some failure => throw failure
    | none => pure ()

/-- What a program logs of the failure that ends it. -/
def crashDetails (e : Value) : Act (List (String × Value)) := do
  let words ← Act.ofText e.report
  match e.openFailure? with
  | some f => do
    let causeWords ← Act.ofText f.cause.report
    return [("error", words), ("code", f.code), ("transport", f.transport), ("cause", causeWords)]
  | none => return [("error", words)]

end EdgeCaller.Sender

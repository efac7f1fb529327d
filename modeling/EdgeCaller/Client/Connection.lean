import EdgeCaller.Client.Dial
import EdgeCaller.Timers
/-!
# A connection under overlapping calls

Any number of operations may be under way on a connection over a module client. Each makes its
calls to the client, is answered by the script, and ends by itself. An answer that has arrived
waits its turn in a queue, but a call that throws is answered at once. An operation that has come to
its end waits for a turn before the end is seen, and where a client was discarded, for one more.
Once closing has begun, closing again does nothing.
-/

namespace EdgeCaller

/-- An operation that is under way. Method calls and events are told apart by their numbers, each
kind counted from one. -/
inductive Operation where
  | opening (transport : String) (dial : Dial)
  | invoking (number : Nat)
  | publishing (number : Nat)
  | closing

/-- What is seen of the end of an operation. -/
def Operation.ended : Operation → Settlement → Event
  | opening _ _, s => .settled "open" s
  | invoking number, s => .ended ⟨.invoke, number⟩ s
  | publishing number, s => .ended ⟨.publish, number⟩ s
  | closing, s => .settled "close" s

/-- An operation, and the answer to the call that it awaits. -/
structure Answered where
  operation : Operation
  settlement : Settlement

/-- What waits its turn. -/
inductive Turn where
  | answered (a : Answered)
  /-- The end of an operation, to be seen after this many more turns. -/
  | ending (turns : Nat) (operation : Operation) (s : Settlement)

/-- A connection over a scripted client. -/
structure Connection where
  journal : Journal
  script : Script
  tally : Tally := {}
  timers : Timers Answered := []
  /-- What waits its turn, oldest first. -/
  queue : List Turn := []
  /-- Whether the connection in use has begun to close. -/
  isClosed : Bool := false

namespace Connection

/-- Adds a turn to the queue. -/
def enqueue (c : Connection) (turn : Turn) : Connection := { c with queue := c.queue ++ [turn] }

/-- Awaits an answer, which may never come. -/
def await (c : Connection) (operation : Operation) : Option (Nat × Settlement) → Connection
  | none => c
  | some (0, s) => c.enqueue (.answered ⟨operation, s⟩)
  | some (after, s) =>
    { c with timers := c.timers.add (c.journal.now + after) ⟨operation, s⟩ }

/-- Adds an event. -/
def note (c : Connection) (e : Event) : Connection := { c with journal := c.journal.add e }

/-- Ends an operation. -/
def settle (c : Connection) (operation : Operation) (s : Settlement) : Connection :=
  let turns := match operation with
    | .opening _ (.discarding _) => 1
    | _ => 0
  c.enqueue (.ending turns operation s)

/-- Performs an act for an operation, which ends if the act ends early. -/
def perform {α : Type} (c : Connection) (operation : Operation) (act : Act α)
    (next : Connection → α → Connection) : Connection :=
  match act.exec c.journal with
  | (.ok a, journal) => next { c with journal } a
  | (.error e, journal) => { c with journal }.settle operation (.rejected e)

/-- Makes the call that opening has come to, and at most `calls` in all. A call that throws is
answered at once. -/
def dialOn : Nat → String → Dial → Connection → Connection
  | 0, _, _, c => c
  | calls + 1, transport, dial, c =>
    let operation := Operation.opening transport dial
    let (reply, tally) := dial.reply c.script c.tally
    match reply.course with
    | .throws e =>
      { c with tally }.perform operation (dial.answered transport (.rejected e)) fun c next =>
        match next with
        | some dial => dialOn calls transport dial c
        | none => c.settle operation (.fulfilled .connection)
    | _ => { c with tally }.await operation (reply.settlement? .nothing)

/-- Goes on with an operation whose call is answered. Opening makes two more calls at most. -/
def resume (c : Connection) (a : Answered) : Connection :=
  match a.operation with
  | .opening transport dial =>
    c.perform a.operation (dial.answered transport a.settlement) fun c next =>
      match next with
      | some dial => dialOn 2 transport dial c
      | none => c.settle a.operation (.fulfilled .connection)
  | .closing =>
    c.perform a.operation (Client.closeAnswered a.settlement) fun c _ =>
      c.settle a.operation (.fulfilled .nothing)
  | .invoking _ | .publishing _ => c.settle a.operation a.settlement

/-- Takes the reply to a call. A call that throws is answered at once. -/
def receive (c : Connection) (operation : Operation) (reply : Reply)
    (settlement? : Option (Nat × Settlement)) : Connection :=
  match reply.course with
  | .throws e => c.resume ⟨operation, .rejected e⟩
  | _ => c.await operation settlement?

/-- Begins to open a connection, which takes three calls at most. -/
def beginOpen (c : Connection) (transport : String) : Connection :=
  c.perform (.opening transport .creating) (Dial.begin transport) fun c dial =>
    dialOn 3 transport dial c

/-- Begins to call a method. -/
def beginInvoke (c : Connection) (target : Target) (call : MethodCall) : Connection :=
  let n := c.tally.invokes
  let reply := Reply.nth c.script.invokes n
  { c with tally := { c.tally with invokes := n + 1 } }.note (.clientInvoke target call)
    |>.receive (.invoking (n + 1)) reply reply.response?

/-- Begins to send an event. -/
def beginPublish (c : Connection) (event : Telemetry) : Connection :=
  let n := c.tally.publishes
  let reply := Reply.nth c.script.publishes n
  { c with tally := { c.tally with publishes := n + 1 } }.note (.clientSend event)
    |>.receive (.publishing (n + 1)) reply (reply.settlement? .nothing)

/-- Begins to close. -/
def beginClose (c : Connection) : Connection :=
  if c.isClosed then c.settle .closing (.fulfilled .nothing)
  else
    let reply := Reply.nth c.script.closes c.tally.closes
    { c with isClosed := true, tally := { c.tally with closes := c.tally.closes + 1 } }.note
      .clientClose |>.receive .closing reply (reply.settlement? .nothing)

/-- The end of an operation is seen. A connection that was opened is the one in use from now on. -/
def conclude (c : Connection) (operation : Operation) (s : Settlement) : Connection :=
  let c := match s with
    | .fulfilled .connection => { c with isClosed := false }
    | _ => c
  c.note (operation.ended s)

/-- Takes a turn. -/
def take (c : Connection) : Turn → Connection
  | .answered a => c.resume a
  | .ending 0 operation s => c.conclude operation s
  | .ending (turns + 1) operation s => c.enqueue (.ending turns operation s)

/-- Works off the queue, at most `fuel` turns of it. -/
def drainFor : Nat → Connection → Connection
  | 0, c => c
  | fuel + 1, c =>
    match c.queue with
    | [] => c
    | turn :: rest => drainFor fuel ({ c with queue := rest }.take turn)

/-- Works off the queue. A turn leads to at most four more: opening, discarding what would not
open, and the two turns until the end is seen. -/
def drain (c : Connection) : Connection := c.drainFor (5 * c.queue.length)

/-- Moves the clock. -/
def moveTo (time : Nat) (c : Connection) : Connection :=
  { c with journal := { c.journal with now := time } }

/-- Moves the clock to the next timer and fires it. -/
def fire (c : Connection) : Connection :=
  match c.timers.next? with
  | none => c
  | some (t, rest) =>
    ({ c with timers := rest }.moveTo t.due).enqueue (.answered t.wake)

/-- The connection as a machine that timers drive. -/
def clockwork (flush : Bool) : Clockwork Connection where
  nextDue c := c.timers.nextDue
  fire c := if flush then c.fire.drain else c.fire
  moveTo := moveTo

/-- Advances the clock. A timer starts at most two more, one after the other. -/
def advance (c : Connection) (flush : Bool) (ms : Nat) : Connection :=
  let c := if flush then c.drain else c
  (clockwork flush).advanceTo (c.journal.now + ms) (3 * c.timers.length) c

/-- What is done to a connection. -/
inductive Command where
  | openOver (transport : String)
  | invoke (target : Target) (call : MethodCall)
  | publish (event : Telemetry)
  | close
  /-- Time passes. -/
  | pass (ms : Nat)

/-- Does what a command says, and nothing that follows from it. -/
def execute (c : Connection) (flush : Bool) : Command → Connection
  | .openOver transport => c.beginOpen transport
  | .invoke target call => c.beginInvoke target call
  | .publish event => c.beginPublish event
  | .close => c.beginClose
  | .pass ms => c.advance flush ms

/-- Obeys a command. With `flush` the queue is worked off after it. -/
def obey (c : Connection) (flush : Bool) (command : Command) : Connection :=
  let c := c.execute flush command
  if flush then c.drain else c

end Connection

end EdgeCaller

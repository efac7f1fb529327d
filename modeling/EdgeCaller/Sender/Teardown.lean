import EdgeCaller.Sender.Run
/-!
# Teardown

A sender that leaves its loop closes the connection, then sets the latch, then takes its listeners
away, and only then ends. A loop that failed is torn down in the same way before its failure is
passed on. Where closing itself fails, the run ends with that failure at once, and what was to
follow does not happen.
-/

namespace EdgeCaller.Sender.Run

/-- Sets the latch, takes the listeners away and calls off the grace period. -/
def release (r : Run) : Run :=
  let (_, _, latch) := r.coordinator.latch.set
  let r := { r with coordinator := { r.coordinator with latch } }.note (.completed r.coordinator.id)
  { r with
    coordinator := r.coordinator.detach
    timers := r.timers.cancel fun
      | .grace => true
      | .pause | .answer _ => false }.note (.detached r.coordinator.id)

/-- Ends a sender whose connection is closed. -/
def closed (r : Run) (failure : Option Value) : Run :=
  let r := r.release
  match failure with
  | some e => r.fail e
  | none =>
    r.perform (Act.say .info "Direct method sender stopped") fail
      fun r _ => r.finish (.fulfilled (.code 0))

/-- Begins to close the connection. -/
def beginClose (r : Run) (failure : Option Value) : Run :=
  let n := r.tally.closes
  let reply := Reply.nth r.plan.script.closes n
  let r := { r with phase := .closing failure, tally := { r.tally with closes := n + 1 } }
  let r := r.note (match r.plan.link with
    | .direct => .close (n + 1)
    | .client => .clientClose)
  r.await (reply.settlement? .nothing)

/-- Leaves the loop: because the work was aborted, or because of a failure. -/
def leaveLoop (r : Run) (failure : Option Value) : Run :=
  match r.plan.scope, failure with
  | .sender, _ | .program, _ => r.beginClose failure
  | .attempt, some e | .loop, some e => r.fail e
  | .attempt, none | .loop, none => r.finish (.fulfilled .nothing)

/-- Leaves the loop with a failure. -/
def breakLoop (r : Run) (e : Value) : Run := r.leaveLoop (some e)

end EdgeCaller.Sender.Run

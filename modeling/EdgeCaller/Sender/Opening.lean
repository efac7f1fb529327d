import EdgeCaller.Sender.Attempt
/-!
# Opening

A sender says what it is configured with and asks for a connection. Once that is open the
coordinator is armed, and the loop begins.
-/

namespace EdgeCaller.Sender.Run

/-- The connection is open: arms the coordinator and begins the loop. -/
def opened (r : Run) : Run :=
  let r := { r with coordinator := { r.coordinator with listening := true } }
  (r.note (.armed r.coordinator.id)).perform
    (Act.tell .info ("Call direct method to target device [" ++ r.plan.target.deviceId ++
      "] and module [" ++ r.plan.target.moduleId ++ "].") [("intervalMs", .number r.plan.interval)])
    fail fun r _ => r.turn

/-- Awaits the call that opening has come to. -/
def awaitDial (r : Run) (dial : Dial) : Run :=
  let (reply, tally) := dial.reply r.plan.script r.tally
  { r with tally, phase := .dialing dial }.await (reply.settlement? .nothing)

/-- Asks for a connection. -/
def connect (r : Run) : Run :=
  match r.plan.link with
  | .direct =>
    ({ r with phase := .connecting }.note (.connect r.plan.transport)).await
      (r.plan.opening.settlement? .nothing)
  | .client => r.perform (Dial.begin r.plan.transport) fail awaitDial

/-- What a sender says first. -/
def greet (plan : Plan) : Act Unit := do
  Act.say .info "Main()"
  Environment.dump plan.configuration
  Act.say .info ("Using transport " ++ plan.transport)

/-- Begins a run. -/
def begin (r : Run) : Run :=
  match r.plan.scope with
  | .attempt => r.beginAttempt
  | .loop => r.turn
  | .sender | .program => r.perform (greet r.plan) fail fun r _ => r.connect

end EdgeCaller.Sender.Run

import EdgeCaller.Sender.Teardown
/-!
# Attempts

An attempt calls the method and, if the call was answered with the status of success, sends the
event. A failure of either is left to the policy. After an attempt comes a pause, and after the
pause the next attempt, unless the work was aborted: an abort cuts the pause short, and lets an
attempt that is under way come to its end.
-/

namespace EdgeCaller.Sender.Run

/-- Cuts the pause short, if the run is in one. -/
def endPause (r : Run) : Run :=
  match r.phase, r.ready with
  | .pausing, none =>
    { r with
      ready := some (.fulfilled .nothing)
      timers := r.timers.cancel fun
        | .pause => true
        | .grace | .answer _ => false }
  | _, _ => r

/-- Aborts the work without a word. Once it is aborted this changes nothing. -/
def abort (r : Run) : Run :=
  if r.coordinator.isAborted then r
  else
    ({ r with coordinator := { r.coordinator with reason := some "abort" } }.note
      (.abort r.coordinator.id)).endPause

/-- Aborts the work if this is the `n`-th time of something, and the work is to be aborted then. -/
def abortAt (r : Run) (due : Option Nat) (n : Nat) : Run := if due = some n then r.abort else r

/-- Begins the pause after an attempt. Once the work is aborted there is none. -/
def pause (r : Run) : Run :=
  let r := { r with phase := .pausing, waits := r.waits + 1 }
  match r.plan.pace with
  | .timed =>
    if r.coordinator.isAborted then { r with ready := some (.fulfilled .nothing) }
    else { r with timers := r.timers.start r.journal.now r.plan.interval .pause }
  | .immediate =>
    ({ r with ready := some (.fulfilled .nothing) }.note (.wait r.plan.interval)).abortAt
      r.plan.abortOnWait r.waits

/-- Ends an attempt. -/
def endAttempt (r : Run) (outcome : Outcome) : Run :=
  let r := r.note (.attemptEnded outcome)
  match r.plan.scope with
  | .attempt => r.finish (.fulfilled (.outcome outcome))
  | .loop | .sender | .program => r.pause

/-- An attempt has failed, which is for the policy to deal with. -/
def failAttempt (r : Run) (stage : Stage) (e : Value) : Run :=
  let n := r.consults
  let r := ({ r with consults := n + 1 }.note (.consulted stage e)).abortAt
    r.plan.abortOnConsult (n + 1)
  r.perform (r.plan.policy.consult n stage e) breakLoop fun r _ => r.endAttempt .failed

/-- Calls the method. A scripted connection may alter the call that it was given. -/
def invoke (r : Run) : Run :=
  let n := r.tally.invokes
  let reply := Reply.nth r.plan.script.invokes n
  let call := MethodCall.standard
  let altered := reply.alters && r.plan.link = .direct
  let shown := if altered then .text "mutated" else call.methodName
  let r := { r with phase := .invoking shown, tally := { r.tally with invokes := n + 1 } }
  let r := r.note (match r.plan.link with
    | .direct => .invoke (n + 1) r.plan.target call
    | .client => .clientInvoke r.plan.target call)
  (r.abortAt r.plan.abortOnInvoke (n + 1)).await reply.response?

/-- Begins an attempt. -/
def beginAttempt (r : Run) : Run :=
  (r.note .attemptBegan).perform
    (Act.tell .info "Calling direct method on module"
      [("deviceId", .text r.plan.target.deviceId), ("moduleId", .text r.plan.target.moduleId)])
    breakLoop fun r _ => r.invoke

/-- Sends the event. -/
def publish (r : Run) : Run :=
  let n := r.tally.publishes
  let reply := Reply.nth r.plan.script.publishes n
  let r := { r with phase := .publishing, tally := { r.tally with publishes := n + 1 } }
  let r := r.note (match r.plan.link with
    | .direct => .publish (n + 1) .success
    | .client => .clientSend .success)
  (r.abortAt r.plan.abortOnPublish (n + 1)).await (reply.settlement? .nothing)

/-- The call was answered with a status. -/
def invoked (r : Run) (methodName status : Value) : Run :=
  let details := [("methodName", methodName), ("status", status)]
  if isSuccess status then
    r.perform (Act.tell .info "Direct method call succeeded" details) breakLoop
      fun r _ => r.publish
  else
    r.perform (Act.tell .warn "Direct method returned non-success status" details) breakLoop
      fun r _ => r.endAttempt .skipped

/-- The event was sent. -/
def published (r : Run) : Run :=
  r.perform
    (Act.tell .debug "Success event sent" [("outputName", .text Telemetry.success.outputName)])
    breakLoop fun r _ => r.endAttempt .published

/-- Begins the next attempt, or leaves the loop if the work is aborted. -/
def turn (r : Run) : Run :=
  if r.coordinator.isAborted then
    r.perform (Act.say .info "Invocation loop stopped") breakLoop fun r _ => r.leaveLoop none
  else r.beginAttempt

end EdgeCaller.Sender.Run

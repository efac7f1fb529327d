import EdgeCaller.Sender.Opening
/-!
# Going on

A run goes on from an answer by what it was waiting for, and goes on as long as an answer is ready.
-/

namespace EdgeCaller.Sender.Run

/-- Goes on from an answer. -/
def resume (r : Run) (s : Settlement) : Run :=
  match r.phase with
  | .idle | .ended _ => r
  | .connecting =>
    match s with
    | .fulfilled _ => r.opened
    | .rejected e => r.fail e
  | .dialing dial =>
    r.perform (dial.answered r.plan.transport s) fail fun r next =>
      match next with
      | some dial => r.awaitDial dial
      | none => r.opened
  | .invoking methodName =>
    let r := r.note (.answered .invoke s)
    match s with
    | .fulfilled (.response status _) => r.invoked methodName status
    | .fulfilled _ => r.invoked methodName .absent
    | .rejected e => r.failAttempt .invoke e
  | .publishing =>
    let r := r.note (.answered .publish s)
    match s with
    | .fulfilled _ => r.published
    | .rejected e => r.failAttempt .publish e
  | .pausing => r.turn
  | .closing failure =>
    let r := r.note (.answered .close s)
    match r.plan.link with
    | .direct =>
      match s with
      | .fulfilled _ => r.closed failure
      | .rejected e => r.fail e
    | .client => r.perform (Client.closeAnswered s) fail fun r _ => r.closed failure

/-- Goes on while an answer is ready, at most `fuel` times. -/
def drainFor : Nat → Run → Run
  | 0, r => r
  | fuel + 1, r =>
    match r.exit, r.ready with
    | none, some s => drainFor fuel ({ r with ready := none }.resume s)
    | _, _ => r

/-- A bound on how often a run goes on before it has to await something: opening and closing take a
few answers, an attempt and its pause three. Attempts without pauses go on until a reply is awaited
or the work is aborted during one of them; where the replies of a script have come to their ends and
each attempt is like the one before, only an abort, or a console that fails at some line, is left to
stop them. -/
def patience (r : Run) : Nat :=
  18 + 3 * (r.plan.abortOnInvoke.getD 0 + r.plan.abortOnPublish.getD 0 +
    r.plan.abortOnConsult.getD 0 + r.plan.abortOnWait.getD 0 +
    r.plan.script.invokes.length + r.plan.script.publishes.length +
    (r.journal.console.fault.map Fault.line).getD 0)

/-- Goes on while an answer is ready. -/
def drain (r : Run) : Run := r.drainFor r.patience

end EdgeCaller.Sender.Run

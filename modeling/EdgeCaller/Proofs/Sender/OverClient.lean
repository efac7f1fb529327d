import EdgeCaller.Proofs.Sender.Foreseen
import EdgeCaller.Sender.Response
/-!
A loop over a client.

A loop does over a module client what it does over a connection of its own: the calls go by other
names, and nothing else differs. `Mirrors` says this of two runs, one over each, and every move
keeps it; the moves come in the order in which they rely on one another. From it the whole course
of the two is the same, whatever happens to them from outside.
-/

namespace EdgeCaller

/-- A call over a connection, as the client behind it receives it. -/
def Event.overClient : Event → Event
  | .invoke _ target call => .clientInvoke target call
  | .publish _ event => .clientSend event
  | .close _ => .clientClose
  | e => e

namespace Journal

/-- What has happened, as it would over a client. -/
def overClient (j : Journal) : Journal :=
  { j with entries := j.entries.map fun x => { x with event := x.event.overClient } }

@[simp] lemma epoch_overClient (j : Journal) : j.overClient.epoch = j.epoch := rfl

@[simp] lemma now_overClient (j : Journal) : j.overClient.now = j.now := rfl

lemma overClient_add (j : Journal) (e : Event) :
    (j.add e).overClient = j.overClient.add e.overClient := rfl

end Journal

namespace Act

variable {α β : Type}

/-- An act that does the same whatever calls were made before it, and makes none. -/
def Blind (act : Act α) : Prop :=
  ∀ j : Journal, act.exec j.overClient = ((act.exec j).1, (act.exec j).2.overClient)

lemma blind_pure (a : α) : (pure a : Act α).Blind := fun _ => rfl

lemma blind_throw (e : Value) : (throw e : Act α).Blind := fun _ => rfl

lemma blind_bind {act : Act α} {f : α → Act β} (h : act.Blind) (hf : ∀ a, (f a).Blind) :
    (act >>= f).Blind := by
  intro j
  rw [exec_bind, exec_bind, h j]
  rcases act.exec j with ⟨e | a, k⟩
  · rfl
  · exact hf a k

lemma blind_emit {e : Event} (h : e.overClient = e) : (emit e).Blind := by
  intro j
  rw [exec_emit, exec_emit, Journal.overClient_add, h]

lemma blind_ofText (x : Except Unconvertible α) : (ofText x).Blind := by
  cases x with
  | ok a => exact blind_pure a
  | error e => exact blind_throw _

lemma blind_log (level : Level) (message : String) (details : Option Value) :
    (log level message details).Blind := by
  intro j
  rw [exec_log, exec_log]
  cases hadmits : j.console.threshold.admits level with
  | false =>
    rw [Journal.write_of_not_admits hadmits]
    exact Journal.write_of_not_admits (j := j.overClient) hadmits _ _
  | true =>
    have hadmits' : j.overClient.console.threshold.admits level = true := hadmits
    rw [Journal.write, Journal.write, if_pos hadmits, if_pos hadmits']
    simp only [Journal.epoch_overClient, Journal.now_overClient]
    cases Journal.suffix details with
    | error e => rfl
    | ok s => cases Calendar.stamp? (j.epoch + j.now) <;> rfl

lemma blind_tellAll (lines : List (Level × String × List (String × Value))) :
    (Sender.tellAll lines).Blind := by
  induction lines with
  | nil => exact blind_pure _
  | cons line lines ih => exact blind_bind (blind_log _ _ _) fun _ => ih

end Act

namespace Coordinator

lemma blind_request (c : Coordinator) (reason : String) : (c.request reason).Blind := by
  unfold request
  split
  · exact Act.blind_bind (Act.blind_log _ _ _) fun _ => Act.blind_pure _
  · exact Act.blind_bind (Act.blind_log _ _ _) fun _ =>
      Act.blind_bind (Act.blind_emit rfl) fun _ => Act.blind_pure _

lemma blind_graceEnded (c : Coordinator) : c.graceEnded.Blind := by
  unfold graceEnded
  split
  · exact Act.blind_pure _
  · exact Act.blind_bind (Act.blind_log _ _ _) fun _ => Act.blind_pure _

end Coordinator

namespace Sender

lemma Policy.blind_consult (policy : Policy) (n : Nat) (stage : Stage) (e : Value) :
    (policy.consult n stage e).Blind := by
  cases policy with
  | logAndContinue => exact Act.blind_bind (Act.blind_ofText _) fun _ => Act.blind_log _ _ _
  | noted verdict =>
    have hnotes : (notePolicy stage e).Blind :=
      Act.blind_bind (Act.blind_ofText _) fun _ => Act.blind_emit rfl
    refine Act.blind_bind hnotes fun _ => ?_
    split
    · exact Act.blind_throw _
    · exact Act.blind_pure _
  | custom conduct =>
    refine Act.blind_bind (Act.blind_tellAll _) fun _ => ?_
    split
    · exact Act.blind_throw _
    · exact Act.blind_pure _

/-- The same plan over a client. -/
def Plan.overClient (plan : Plan) : Plan := { plan with link := .client }

/-- A phase in which a connection is neither opened nor closed. -/
def Phase.isInner : Phase → Bool
  | idle | invoking _ | publishing | pausing | ended _ => true
  | connecting | dialing _ | closing _ => false

namespace Run

/-- The same run over a client. -/
def overClient (r : Run) : Run :=
  { r with plan := r.plan.overClient, journal := r.journal.overClient }

/-- `r'` is the loop `r` over a client. Over either no call is altered by its receiver. -/
structure Mirrors (r r' : Run) : Prop where
  eq : r' = r.overClient
  scope : r.plan.scope = .loop
  unaltered : ∀ reply ∈ r.plan.script.invokes, reply.alters = false
  inner : r.phase.isInner = true

variable {r r' : Run} {s : Settlement}

lemma drainFor_of_exit (h : r.exit ≠ none) (fuel : Nat) : r.drainFor fuel = r := by
  cases fuel with
  | zero => rfl
  | succ fuel =>
    unfold drainFor
    split
    · next hexit _ => exact absurd hexit h
    · rfl

lemma drainFor_of_ready (h : r.ready = none) (fuel : Nat) : r.drainFor fuel = r := by
  cases fuel with
  | zero => rfl
  | succ fuel =>
    unfold drainFor
    split
    · next hready => simp [h] at hready
    · rfl

lemma drainFor_succ (hexit : r.exit = none) (hready : r.ready = some s) (fuel : Nat) :
    r.drainFor (fuel + 1) = ({ r with ready := none }.resume s).drainFor fuel := by
  rw [drainFor]
  split
  · next hready' => rw [Option.some.inj (hready.symm.trans hready')]
  · next hne => exact absurd hready (hne s hexit)

namespace Mirrors

lemma note (h : r.Mirrors r') {e e' : Event} (he : e' = e.overClient) :
    (r.note e).Mirrors (r'.note e') := by
  obtain ⟨rfl, hscope, hunaltered, hinner⟩ := h
  subst he
  exact ⟨rfl, hscope, hunaltered, hinner⟩

lemma perform {α : Type} {act : Act α} {fail : Run → Value → Run} {next : Run → α → Run}
    (h : r.Mirrors r') (hact : act.Blind)
    (hfail : ∀ r r' e, r.Mirrors r' → (fail r e).Mirrors (fail r' e))
    (hnext : ∀ r r' a, r.Mirrors r' → (next r a).Mirrors (next r' a)) :
    (r.perform act fail next).Mirrors (r'.perform act fail next) := by
  obtain ⟨rfl, hscope, hunaltered, hinner⟩ := h
  unfold Run.perform
  rw [overClient, hact r.journal]
  rcases act.exec r.journal with ⟨e | a, k⟩
  · exact hfail _ _ e ⟨rfl, hscope, hunaltered, hinner⟩
  · exact hnext _ _ a ⟨rfl, hscope, hunaltered, hinner⟩

/-! ### Ending and waiting -/

lemma finish (h : r.Mirrors r') (s : Settlement) : (r.finish s).Mirrors (r'.finish s) := by
  obtain ⟨rfl, hscope, hunaltered, -⟩ := h
  have hended : Mirrors { r with phase := .ended s } { r.overClient with phase := .ended s } :=
    ⟨rfl, hscope, hunaltered, rfl⟩
  have hscope' : r.overClient.plan.scope = .loop := hscope
  simp only [Run.finish, hscope, hscope']
  exact hended.note rfl

lemma fail (h : r.Mirrors r') (e : Value) : (r.fail e).Mirrors (r'.fail e) := h.finish _

lemma await (h : r.Mirrors r') (reply : Option (Nat × Settlement)) :
    (r.await reply).Mirrors (r'.await reply) := by
  obtain ⟨rfl, hscope, hunaltered, hinner⟩ := h
  match reply with
  | none | some (0, s) | some (after + 1, s) => exact ⟨rfl, hscope, hunaltered, hinner⟩

lemma endPause (h : r.Mirrors r') : r.endPause.Mirrors r'.endPause := by
  obtain ⟨rfl, hscope, hunaltered, hinner⟩ := h
  obtain ⟨plan, journal, timers, tally, waits, consults, coordinator, phase, ready, exit,
    escaped⟩ := r
  cases phase <;> cases ready <;> exact ⟨rfl, hscope, hunaltered, hinner⟩

lemma abort (h : r.Mirrors r') : r.abort.Mirrors r'.abort := by
  have hself := h
  obtain ⟨rfl, hscope, hunaltered, hinner⟩ := h
  have haborted : r.overClient.coordinator.isAborted = r.coordinator.isAborted := rfl
  unfold Run.abort
  rw [haborted]
  split
  · exact hself
  · have hcalled : Mirrors { r with coordinator := { r.coordinator with reason := some "abort" } }
        { r.overClient with
          coordinator := { r.overClient.coordinator with reason := some "abort" } } :=
      ⟨rfl, hscope, hunaltered, hinner⟩
    exact (hcalled.note rfl).endPause

lemma abortAt (h : r.Mirrors r') (due : Option Nat) (n : Nat) :
    (r.abortAt due n).Mirrors (r'.abortAt due n) := by
  unfold Run.abortAt
  split
  · exact h.abort
  · exact h

lemma breakLoop (h : r.Mirrors r') (e : Value) : (r.breakLoop e).Mirrors (r'.breakLoop e) := by
  have hscope := h.scope
  have hscope' : r'.plan.scope = .loop := by rw [h.eq]; exact hscope
  simp only [Run.breakLoop, Run.leaveLoop, hscope, hscope']
  exact h.fail e

/-! ### In the loop -/

lemma pause (h : r.Mirrors r') : r.pause.Mirrors r'.pause := by
  obtain ⟨rfl, hscope, hunaltered, hinner⟩ := h
  have hpace : r.overClient.plan.pace = r.plan.pace := rfl
  have haborted : r.overClient.coordinator.isAborted = r.coordinator.isAborted := rfl
  unfold Run.pause
  simp only [hpace, haborted]
  cases r.plan.pace with
  | timed =>
    simp only
    split
    · exact ⟨rfl, hscope, hunaltered, rfl⟩
    · exact ⟨rfl, hscope, hunaltered, rfl⟩
  | immediate =>
    have helapsed : Mirrors
        { r with phase := .pausing, waits := r.waits + 1, ready := some (.fulfilled .nothing) }
        { r.overClient with
          phase := .pausing, waits := r.waits + 1, ready := some (.fulfilled .nothing) } :=
      ⟨rfl, hscope, hunaltered, rfl⟩
    exact (helapsed.note rfl).abortAt _ _

lemma endAttempt (h : r.Mirrors r') (outcome : Outcome) :
    (r.endAttempt outcome).Mirrors (r'.endAttempt outcome) := by
  have hscope := h.scope
  have hscope' : r'.plan.scope = .loop := by rw [h.eq]; exact hscope
  have hnoted : (r.note (.attemptEnded outcome)).Mirrors (r'.note (.attemptEnded outcome)) :=
    h.note rfl
  simp only [Run.endAttempt, Run.note, hscope, hscope']
  exact hnoted.pause

/-- The same policy is asked. -/
lemma consult (h : r.Mirrors r') (n : Nat) (stage : Stage) (e : Value) :
    (r.perform (r.plan.policy.consult n stage e) Run.breakLoop fun r _ =>
      r.endAttempt .failed).Mirrors
    (r'.perform (r'.plan.policy.consult n stage e) Run.breakLoop fun r _ =>
      r.endAttempt .failed) := by
  have hpolicy : r'.plan.policy = r.plan.policy := by rw [h.eq]; rfl
  rw [hpolicy]
  exact h.perform (Policy.blind_consult _ _ _ _) (fun _ _ e hr => hr.breakLoop e)
    fun _ _ _ hr => hr.endAttempt _

lemma failAttempt (h : r.Mirrors r') (stage : Stage) (e : Value) :
    (r.failAttempt stage e).Mirrors (r'.failAttempt stage e) := by
  obtain ⟨rfl, hscope, hunaltered, hinner⟩ := h
  have hasked : Mirrors { r with consults := r.consults + 1 }
      { r.overClient with consults := r.overClient.consults + 1 } :=
    ⟨rfl, hscope, hunaltered, hinner⟩
  have hnoted : Mirrors ({ r with consults := r.consults + 1 }.note (.consulted stage e))
      ({ r.overClient with consults := r.overClient.consults + 1 }.note (.consulted stage e)) :=
    hasked.note rfl
  exact (hnoted.abortAt r.plan.abortOnConsult (r.consults + 1)).consult r.consults stage e

/-- The method is called over either. -/
lemma invoke (h : r.Mirrors r') : r.invoke.Mirrors r'.invoke := by
  obtain ⟨rfl, hscope, hunaltered, hinner⟩ := h
  have halters : (Reply.nth r.plan.script.invokes r.tally.invokes).alters = false := by
    rcases Reply.nth_mem r.plan.script.invokes r.tally.invokes with hmem | hnth
    · exact hunaltered _ hmem
    · rw [hnth]
  have hset : Mirrors
      { r with
        phase := .invoking MethodCall.standard.methodName
        tally := { r.tally with invokes := r.tally.invokes + 1 } }
      { r.overClient with
        phase := .invoking MethodCall.standard.methodName
        tally := { r.overClient.tally with invokes := r.overClient.tally.invokes + 1 } } :=
    ⟨rfl, hscope, hunaltered, rfl⟩
  have halters' : (Reply.nth r.overClient.plan.script.invokes
      r.overClient.tally.invokes).alters = false := halters
  simp only [Run.invoke, halters, halters', Bool.false_and]
  refine Mirrors.await (Mirrors.abortAt (hset.note ?_) _ _) _
  cases r.plan.link <;> rfl

lemma beginAttempt (h : r.Mirrors r') : r.beginAttempt.Mirrors r'.beginAttempt := by
  have htarget : r'.plan.target = r.plan.target := by rw [h.eq]; rfl
  have hnoted : (r.note .attemptBegan).Mirrors (r'.note .attemptBegan) := h.note rfl
  unfold Run.beginAttempt
  rw [htarget]
  exact hnoted.perform (Act.blind_log _ _ _) (fun _ _ e hr => hr.breakLoop e)
    fun _ _ _ hr => hr.invoke

/-- The event is sent over either. -/
lemma publish (h : r.Mirrors r') : r.publish.Mirrors r'.publish := by
  obtain ⟨rfl, hscope, hunaltered, hinner⟩ := h
  have hset : Mirrors
      { r with
        phase := .publishing, tally := { r.tally with publishes := r.tally.publishes + 1 } }
      { r.overClient with
        phase := .publishing
        tally := { r.overClient.tally with publishes := r.overClient.tally.publishes + 1 } } :=
    ⟨rfl, hscope, hunaltered, rfl⟩
  refine Mirrors.await (Mirrors.abortAt (hset.note ?_) _ _) _
  cases r.plan.link <;> rfl

lemma invoked (h : r.Mirrors r') (methodName status : Value) :
    (r.invoked methodName status).Mirrors (r'.invoked methodName status) := by
  unfold Run.invoked
  split
  · exact h.perform (Act.blind_log _ _ _) (fun _ _ e hr => hr.breakLoop e)
      fun _ _ _ hr => hr.publish
  · exact h.perform (Act.blind_log _ _ _) (fun _ _ e hr => hr.breakLoop e)
      fun _ _ _ hr => hr.endAttempt _

lemma published (h : r.Mirrors r') : r.published.Mirrors r'.published :=
  h.perform (Act.blind_log _ _ _) (fun _ _ e hr => hr.breakLoop e) fun _ _ _ hr => hr.endAttempt _

lemma leaveLoop (h : r.Mirrors r') : (r.leaveLoop none).Mirrors (r'.leaveLoop none) := by
  have hscope := h.scope
  have hscope' : r'.plan.scope = .loop := by rw [h.eq]; exact hscope
  simp only [Run.leaveLoop, hscope, hscope']
  exact h.finish _

lemma turn (h : r.Mirrors r') : r.turn.Mirrors r'.turn := by
  have haborted : r'.coordinator.isAborted = r.coordinator.isAborted := by rw [h.eq]; rfl
  unfold Run.turn
  rw [haborted]
  split
  · exact h.perform (Act.blind_log _ _ _) (fun _ _ e hr => hr.breakLoop e)
      fun _ _ _ hr => hr.leaveLoop
  · exact h.beginAttempt

lemma begin (h : r.Mirrors r') : r.begin.Mirrors r'.begin := by
  have hscope := h.scope
  have hscope' : r'.plan.scope = .loop := by rw [h.eq]; exact hscope
  simp only [Run.begin, hscope, hscope']
  exact h.turn

/-! ### Going on -/

lemma resume (h : r.Mirrors r') (s : Settlement) : (r.resume s).Mirrors (r'.resume s) := by
  have hphase : r'.phase = r.phase := by rw [h.eq]; rfl
  have hinner := h.inner
  cases hp : r.phase with
  | connecting | dialing | closing => simp [hp, Phase.isInner] at hinner
  | idle | ended =>
    simp only [Run.resume, hphase, hp]
    exact h
  | invoking methodName =>
    have hnoted : (r.note (.answered .invoke s)).Mirrors (r'.note (.answered .invoke s)) :=
      h.note rfl
    simp only [Run.resume, hphase, hp]
    cases s with
    | rejected e => exact hnoted.failAttempt _ _
    | fulfilled a => cases a <;> exact hnoted.invoked _ _
  | publishing =>
    have hnoted : (r.note (.answered .publish s)).Mirrors (r'.note (.answered .publish s)) :=
      h.note rfl
    simp only [Run.resume, hphase, hp]
    cases s with
    | rejected e => exact hnoted.failAttempt _ _
    | fulfilled a => exact hnoted.published
  | pausing =>
    simp only [Run.resume, hphase, hp]
    exact h.turn

lemma drainFor (h : r.Mirrors r') (fuel : Nat) : (r.drainFor fuel).Mirrors (r'.drainFor fuel) := by
  induction fuel generalizing r r' with
  | zero => exact h
  | succ fuel ih =>
    have hself := h
    obtain ⟨rfl, hscope, hunaltered, hinner⟩ := h
    cases hexit : r.exit with
    | some code =>
      have hexit' : r.overClient.exit = some code := hexit
      rw [drainFor_of_exit (by simp [hexit]), drainFor_of_exit (by simp [hexit'])]
      exact hself
    | none =>
      have hexit' : r.overClient.exit = none := hexit
      cases hready : r.ready with
      | none =>
        have hready' : r.overClient.ready = none := hready
        rw [drainFor_of_ready hready, drainFor_of_ready hready']
        exact hself
      | some s =>
        have hready' : r.overClient.ready = some s := hready
        rw [drainFor_succ hexit hready, drainFor_succ hexit' hready']
        have htaken : Mirrors { r with ready := none } { r.overClient with ready := none } :=
          ⟨rfl, hscope, hunaltered, hinner⟩
        exact ih (htaken.resume s)

lemma drain (h : r.Mirrors r') : r.drain.Mirrors r'.drain := by
  have hpatience : r'.patience = r.patience := by rw [h.eq]; rfl
  unfold Run.drain
  rw [hpatience]
  exact h.drainFor _

/-! ### From outside -/

lemma moveTo (h : r.Mirrors r') (time : Nat) : (r.moveTo time).Mirrors (r'.moveTo time) := by
  obtain ⟨rfl, hscope, hunaltered, hinner⟩ := h
  exact ⟨rfl, hscope, hunaltered, hinner⟩

lemma wake (h : r.Mirrors r') (wake : Alarm) : (r.wake wake).Mirrors (r'.wake wake) := by
  have hself := h
  obtain ⟨rfl, hscope, hunaltered, hinner⟩ := h
  cases wake with
  | pause | answer => exact ⟨rfl, hscope, hunaltered, hinner⟩
  | grace =>
    have hcoordinator : r.overClient.coordinator = r.coordinator := rfl
    simp only [Run.wake, hcoordinator]
    refine hself.perform (Coordinator.blind_graceEnded _) (fun r r' e hr => ?_)
      fun r r' forced hr => ?_
    · obtain ⟨rfl, hscope, hunaltered, hinner⟩ := hr
      exact ⟨rfl, hscope, hunaltered, hinner⟩
    · have hscope := hr.scope
      have hscope' : r'.plan.scope = .loop := by rw [hr.eq]; exact hscope
      have hid : r'.coordinator.id = r.coordinator.id := by rw [hr.eq]; rfl
      cases forced with
      | false => exact hr
      | true =>
        simp only [hscope, hscope', hid, if_true]
        exact hr.note rfl

lemma fire (h : r.Mirrors r') : r.fire.Mirrors r'.fire := by
  have hself := h
  obtain ⟨rfl, hscope, hunaltered, hinner⟩ := h
  have htimers : r.overClient.timers = r.timers := rfl
  unfold Run.fire
  simp only [htimers]
  split
  · exact hself
  · next t rest _ =>
    have htaken : Mirrors { r with timers := rest } { r.overClient with timers := rest } :=
      ⟨rfl, hscope, hunaltered, hinner⟩
    exact (htaken.moveTo t.due).wake t.wake

lemma request (h : r.Mirrors r') (reason : String) :
    (r.request reason).Mirrors (r'.request reason) := by
  have hcoordinator : r'.coordinator = r.coordinator := by rw [h.eq]; rfl
  unfold Run.request
  rw [hcoordinator]
  refine h.perform (Coordinator.blind_request _ _) (fun r r' e hr => ?_) fun r r' answer hr => ?_
  · obtain ⟨rfl, hscope, hunaltered, hinner⟩ := hr
    exact ⟨rfl, hscope, hunaltered, hinner⟩
  · obtain ⟨c, aborted⟩ := answer
    obtain ⟨rfl, hscope, hunaltered, hinner⟩ := hr
    cases aborted with
    | false => exact ⟨rfl, hscope, hunaltered, hinner⟩
    | true =>
      have hcalled : Mirrors { r with coordinator := c } { r.overClient with coordinator := c } :=
        ⟨rfl, hscope, hunaltered, hinner⟩
      have hended := hcalled.endPause
      simp only [if_true]
      split
      · exact hended
      · obtain ⟨heq, hscope, hunaltered, hinner⟩ := hended
        rw [heq]
        exact ⟨rfl, hscope, hunaltered, hinner⟩

lemma deliver (h : r.Mirrors r') (signal : String) :
    (r.deliver signal).Mirrors (r'.deliver signal) := by
  have hhears : r'.hears signal = r.hears signal := by rw [h.eq]; rfl
  unfold Run.deliver
  rw [hhears]
  split
  · exact h.request signal
  · exact h

lemma advanceTo (h : r.Mirrors r') (flush : Bool) (time fuel : Nat) :
    ((clockwork flush).advanceTo time fuel r).Mirrors
      ((clockwork flush).advanceTo time fuel r') := by
  induction fuel generalizing r r' with
  | zero => exact h.moveTo time
  | succ fuel ih =>
    have hdue : (clockwork flush).nextDue r' = (clockwork flush).nextDue r := by rw [h.eq]; rfl
    have hfired : ((clockwork flush).fire r).Mirrors ((clockwork flush).fire r') := by
      cases flush with
      | false => exact h.fire
      | true => exact h.fire.drain
    unfold Clockwork.advanceTo
    rw [hdue]
    split
    · split
      · exact ih hfired
      · exact h.moveTo time
    · exact h.moveTo time

lemma advance (h : r.Mirrors r') (flush : Bool) (ms : Nat) :
    (r.advance flush ms).Mirrors (r'.advance flush ms) := by
  have hdrained : (if flush then r.drain else r).Mirrors (if flush then r'.drain else r') := by
    cases flush with
    | false => exact h
    | true => exact h.drain
  unfold Run.advance
  generalize (if flush then r.drain else r) = r, (if flush then r'.drain else r') = r' at hdrained
  have hnow : r'.journal.now = r.journal.now := by rw [hdrained.eq]; rfl
  have htimers : r'.timers = r.timers := by rw [hdrained.eq]; rfl
  simp only [hnow, htimers]
  exact hdrained.advanceTo flush _ _

/-- Whatever happens to them, the two runs respond alike. -/
lemma respond (h : r.Mirrors r') (flush : Bool) (stimulus : Stimulus) :
    (r.respond flush stimulus).Mirrors (r'.respond flush stimulus) := by
  have hmet : (r.meet flush stimulus).Mirrors (r'.meet flush stimulus) := by
    cases stimulus with
    | signal name => exact h.deliver name
    | abort => exact h.abort
    | pass ms => exact h.advance flush ms
  cases flush with
  | false => exact hmet
  | true => exact hmet.drain

end Mirrors

/-- A loop at its beginning. It may be aborted before it begins. -/
def start (plan : Plan) (console : Console) (epoch : Int) (aborted : Bool) : Run :=
  let r := create plan (.start console epoch)
  (if aborted then r.abort else r).begin.drain

/-- A loop, and what has happened to it from outside, newest first. In between it goes on as far as
it can. -/
def course (plan : Plan) (console : Console) (epoch : Int) (aborted : Bool) :
    List Stimulus → Run
  | [] => start plan console epoch aborted
  | stimulus :: past => (course plan console epoch aborted past).respond true stimulus

/-- A loop goes the same course over a client. -/
lemma mirrors_course {plan : Plan} (hscope : plan.scope = .loop)
    (hunaltered : ∀ reply ∈ plan.script.invokes, reply.alters = false) (console : Console)
    (epoch : Int) (aborted : Bool) (past : List Stimulus) :
    (course plan console epoch aborted past).Mirrors
      (course plan.overClient console epoch aborted past) := by
  induction past with
  | nil =>
    have hcreate : (create plan (.start console epoch)).Mirrors
        (create plan.overClient (.start console epoch)) := ⟨rfl, hscope, hunaltered, rfl⟩
    cases aborted with
    | false => exact hcreate.begin.drain
    | true => exact hcreate.abort.begin.drain
  | cons stimulus past ih => exact ih.respond true stimulus

end Run

end Sender

end EdgeCaller

import EdgeCaller.Proofs.Sender.Frame
import EdgeCaller.Proofs.Sender.Schedule
import EdgeCaller.Proofs.Shutdown.Requests
/-!
How a program exits.

A program exits in three ways: it has ended well, it has ended with a failure that could be logged,
or its exit was forced. It exits once, and with code 0 only if it has ended well. `Going` is a run
that has not exited; what each of its moves comes to is `Accounted` for: the codes it has exited with
are those that the state of the run shows. The moves come in the order in which they rely on one
another.
-/

namespace EdgeCaller

/-- The code with which a program exits by an event. -/
def Event.exitCode? : Event → Option Nat
  | exit code => some code
  | _ => none

namespace Sender

/-- The codes with which a program has exited. -/
def exits (past : List Entry) : List Nat := past.filterMap fun x => x.event.exitCode?

@[simp] lemma exits_nil : exits [] = [] := rfl

@[simp] lemma exits_cons (x : Entry) (past : List Entry) :
    exits (x :: past) = x.event.exitCode?.toList ++ exits past := by
  unfold exits
  rw [List.filterMap_cons]
  cases x.event.exitCode? <;> rfl

lemma exits_extends {j k : Journal} (h : j.Extends (·.exitCode? = none) k) :
    exits k.entries = exits j.entries := by
  obtain ⟨new, hnew, hnone⟩ := h.entries
  have hquiet : exits (new.map (Entry.mk j.now)) = [] := by
    rw [exits, List.filterMap_eq_nil_iff]
    intro x hx
    obtain ⟨e, he, rfl⟩ := List.mem_map.mp hx
    exact hnone e he
  have happend : exits (new.map (Entry.mk j.now) ++ j.entries) =
      exits (new.map (Entry.mk j.now)) ++ exits j.entries := List.filterMap_append
  rw [hnew, happend, hquiet, List.nil_append]

namespace Run

/-- A run that has not exited. -/
structure Going (r : Run) : Prop where
  exit : r.exit = none
  codes : exits r.journal.entries = []

/-- A run shows the one code with which it has exited, and has ended well if that is 0. -/
structure Accounted (r : Run) : Prop where
  codes : exits r.journal.entries = r.exit.toList
  well : r.exit = some 0 → ∃ a, r.phase = .ended (.fulfilled a)

variable {plan : Plan} {r r' : Run}

lemma Accounted.going (h : r.Accounted) (hexit : r.exit = none) : r.Going :=
  ⟨hexit, by rw [h.codes, hexit]; rfl⟩

namespace Going

lemma accounted (h : r.Going) : r.Accounted :=
  ⟨by rw [h.codes, h.exit]; rfl, by simp [h.exit]⟩

/-- Phase, tallies, timers and the coordinator do not matter. -/
lemma set (h : r.Going) (hj : r'.journal = r.journal) (hexit : r'.exit = r.exit) : r'.Going :=
  ⟨hexit.trans h.exit, by rw [hj]; exact h.codes⟩

lemma rests (h : r.Going) (hj : r'.journal = r.journal) (hexit : r'.exit = r.exit) :
    r'.Accounted := accounted (h.set hj hexit)

lemma after (h : r.Going) {k : Journal} (hk : r.journal.Extends (·.exitCode? = none) k) :
    Going { r with journal := k } :=
  ⟨h.exit, (exits_extends hk).trans h.codes⟩

lemma note (h : r.Going) {e : Event} (he : e.exitCode? = none) : (r.note e).Going :=
  h.after (Journal.extends_add he r.journal)

lemma perform {α : Type} {act : Act α} {fail : Run → Value → Run} {next : Run → α → Run}
    (h : r.Going) (hw : act.Writes (·.exitCode? = none))
    (hfail : ∀ r' e, r'.Going → (fail r' e).Accounted)
    (hnext : ∀ r' a, r'.Going → (next r' a).Accounted) : (r.perform act fail next).Accounted := by
  have hj := hw r.journal
  unfold Run.perform
  rcases hact : act.exec r.journal with ⟨e | a, k⟩ <;> rw [hact] at hj
  · exact hfail _ e (h.after hj)
  · exact hnext _ a (h.after hj)

lemma exitWith (h : r.Going) {code : Nat}
    (hwell : code = 0 → ∃ a, r.phase = .ended (.fulfilled a)) : (r.exitWith code).Accounted := by
  refine ⟨?_, fun hzero => hwell (Option.some.inj hzero)⟩
  rw [Run.exitWith, Run.note, Journal.entries_add, exits_cons, h.codes]
  rfl

/-! ### Ending and waiting -/

lemma crash (h : r.Going) (e : Value) : (r.crash e).Accounted :=
  h.perform (Act.writes_bind (writes_crashDetails e) fun _ => Act.writes_tell (fun _ => rfl) _ _)
    (fun _ _ hr => hr.accounted) fun _ _ hr => hr.exitWith (by simp)

lemma finish (h : r.Going) (s : Settlement) : (r.finish s).Accounted := by
  have hended : Going { r with phase := .ended s } := h.set rfl rfl
  cases hscope : r.plan.scope with
  | attempt =>
    simp only [Run.finish, hscope]
    exact hended.accounted
  | loop | sender =>
    simp only [Run.finish, hscope]
    exact (hended.note rfl).accounted
  | program =>
    cases s with
    | fulfilled a =>
      simp only [Run.finish, hscope]
      exact hended.exitWith fun _ => ⟨a, rfl⟩
    | rejected e =>
      simp only [Run.finish, hscope]
      exact hended.crash e

lemma fail (h : r.Going) (e : Value) : (r.fail e).Accounted := h.finish _

lemma await (h : r.Going) (reply : Option (Nat × Settlement)) : (r.await reply).Accounted := by
  match reply with
  | none => exact h.accounted
  | some (0, s) => exact h.rests rfl rfl
  | some (after + 1, s) => exact h.rests rfl rfl

lemma endPause (h : r.Going) : r.endPause.Going := by
  refine h.set r.endPause_frame.2.1 ?_
  unfold Run.endPause
  split <;> rfl

lemma abort (h : r.Going) : r.abort.Going := by
  rcases ha : r.coordinator.isAborted with _ | _
  · obtain ⟨r', hr, habort⟩ := exists_halted_abort ha
    obtain ⟨id, hj⟩ := hr.journal
    have hnoted : (r.note (.abort id)).Going := h.note rfl
    rw [habort]
    exact endPause (hnoted.set hj hr.exit)
  · rwa [abort_of_isAborted ha]

lemma abortAt (h : r.Going) (due : Option Nat) (n : Nat) : (r.abortAt due n).Going := by
  unfold Run.abortAt
  split
  · exact h.abort
  · exact h

/-! ### Leaving the loop -/

lemma beginClose (h : r.Going) (failure : Option Value) : (r.beginClose failure).Accounted := by
  have hset : Going { r with
      phase := .closing failure, tally := { r.tally with closes := r.tally.closes + 1 } } :=
    h.set rfl rfl
  refine (hset.note ?_).await _
  cases r.plan.link <;> rfl

lemma leaveLoop (h : r.Going) (failure : Option Value) : (r.leaveLoop failure).Accounted := by
  unfold Run.leaveLoop
  split
  · exact h.beginClose _
  · exact h.beginClose _
  · exact h.fail _
  · exact h.fail _
  · exact h.finish _
  · exact h.finish _

lemma breakLoop (h : r.Going) (e : Value) : (r.breakLoop e).Accounted := h.leaveLoop _

/-! ### In the loop -/

lemma pause (h : r.Going) : r.pause.Accounted := by
  have helapsed : Going { r with
      phase := .pausing, waits := r.waits + 1, ready := some (.fulfilled .nothing) } :=
    h.set rfl rfl
  cases hpace : r.plan.pace with
  | timed =>
    simp only [Run.pause, hpace]
    split
    · exact helapsed.accounted
    · exact h.rests rfl rfl
  | immediate =>
    simp only [Run.pause, hpace]
    have hwaited : ({ r with
        phase := .pausing, waits := r.waits + 1, ready := some (.fulfilled .nothing) }.note
        (.wait r.plan.interval)).Going := helapsed.note rfl
    exact (hwaited.abortAt _ _).accounted

lemma endAttempt (h : r.Going) (outcome : Outcome) : (r.endAttempt outcome).Accounted := by
  have hnoted : (r.note (.attemptEnded outcome)).Going := h.note rfl
  cases hscope : r.plan.scope with
  | attempt =>
    simp only [Run.endAttempt, hscope, Run.note]
    exact hnoted.finish _
  | loop | sender | program =>
    simp only [Run.endAttempt, hscope, Run.note]
    exact hnoted.pause

lemma failAttempt (h : r.Going) (stage : Stage) (e : Value) : (r.failAttempt stage e).Accounted := by
  have hasked : Going { r with consults := r.consults + 1 } := h.set rfl rfl
  have hnoted : ({ r with consults := r.consults + 1 }.note (.consulted stage e)).Going :=
    hasked.note rfl
  exact perform (hnoted.abortAt _ _) (writes_consult (fun _ _ => rfl) (fun _ _ _ => rfl) _ _ _ _)
    (fun _ e hr => hr.breakLoop e) fun _ _ hr => hr.endAttempt _

lemma invoke (h : r.Going) : r.invoke.Accounted := by
  have hset : ∀ shown, Going { r with
      phase := .invoking shown, tally := { r.tally with invokes := r.tally.invokes + 1 } } :=
    fun _ => h.set rfl rfl
  refine (((hset _).note ?_).abortAt _ _).await _
  cases r.plan.link <;> rfl

lemma beginAttempt (h : r.Going) : r.beginAttempt.Accounted :=
  perform (h.note rfl) (Act.writes_tell (fun _ => rfl) _ _) (fun _ e hr => hr.breakLoop e)
    fun _ _ hr => hr.invoke

lemma publish (h : r.Going) : r.publish.Accounted := by
  have hset : Going { r with
      phase := .publishing, tally := { r.tally with publishes := r.tally.publishes + 1 } } :=
    h.set rfl rfl
  refine ((hset.note ?_).abortAt _ _).await _
  cases r.plan.link <;> rfl

lemma invoked (h : r.Going) (methodName status : Value) :
    (r.invoked methodName status).Accounted := by
  unfold Run.invoked
  split
  · exact h.perform (Act.writes_tell (fun _ => rfl) _ _) (fun _ e hr => hr.breakLoop e)
      fun _ _ hr => hr.publish
  · exact h.perform (Act.writes_tell (fun _ => rfl) _ _) (fun _ e hr => hr.breakLoop e)
      fun _ _ hr => hr.endAttempt _

lemma published (h : r.Going) : r.published.Accounted :=
  h.perform (Act.writes_tell (fun _ => rfl) _ _) (fun _ e hr => hr.breakLoop e)
    fun _ _ hr => hr.endAttempt _

lemma turn (h : r.Going) : r.turn.Accounted := by
  unfold Run.turn
  split
  · exact h.perform (Act.writes_say (fun _ => rfl) _) (fun _ e hr => hr.breakLoop e)
      fun _ _ hr => hr.leaveLoop _
  · exact h.beginAttempt

/-! ### Opening -/

lemma opened (h : r.Going) : r.opened.Accounted := by
  have hlistens : Going { r with coordinator := { r.coordinator with listening := true } } :=
    h.set rfl rfl
  exact perform (hlistens.note rfl) (Act.writes_tell (fun _ => rfl) _ _) (fun _ e hr => hr.fail e)
    fun _ _ hr => hr.turn

lemma awaitDial (h : r.Going) (dial : Dial) : (r.awaitDial dial).Accounted := by
  have hset : Going { r with
      tally := (dial.reply r.plan.script r.tally).2, phase := .dialing dial } := h.set rfl rfl
  exact hset.await _

lemma connect (h : r.Going) : r.connect.Accounted := by
  cases hlink : r.plan.link with
  | direct =>
    simp only [Run.connect, hlink]
    have hset : Going { r with phase := .connecting } := h.set rfl rfl
    have hasked : ({ r with phase := .connecting }.note (.connect r.plan.transport)).Going :=
      hset.note rfl
    exact hasked.await _
  | client =>
    simp only [Run.connect, hlink]
    have hasked : (r.note (.clientCreate (Wire.ofName r.plan.transport))).Going := h.note rfl
    exact hasked.awaitDial .creating

lemma begin (h : r.Going) : r.begin.Accounted := by
  unfold Run.begin
  split
  · exact h.beginAttempt
  · exact h.turn
  all_goals
    exact h.perform (writes_greet (fun _ _ => rfl) _) (fun _ e hr => hr.fail e)
      fun _ _ hr => hr.connect

/-! ### Going on -/

lemma dialed (h : r.Going) (dial : Dial) (s : Settlement) :
    (r.perform (dial.answered r.plan.transport s) Run.fail fun r next =>
      match next with
      | some dial => r.awaitDial dial
      | none => r.opened).Accounted := by
  have hw : (dial.answered r.plan.transport s).Writes (·.exitCode? = none) := by
    cases dial <;> cases s
    · exact Act.writes_bind (Act.writes_emit rfl) fun _ => Act.writes_pure _
    · exact Act.writes_throw _
    · exact Act.writes_bind (Act.writes_tell (fun _ => rfl) _ _) fun _ => Act.writes_pure _
    · exact Act.writes_bind (Act.writes_emit rfl) fun _ => Act.writes_pure _
    · exact Act.writes_throw _
    · exact Act.writes_bind (Act.writes_ofText _) fun _ =>
        Act.writes_bind (Act.writes_tell (fun _ => rfl) _ _) fun _ => Act.writes_throw _
  refine h.perform hw (fun _ e hr => hr.fail e) fun _ next hr => ?_
  cases next with
  | some dial => exact hr.awaitDial dial
  | none => exact hr.opened

lemma closed (h : r.Going) (failure : Option Value) : (r.closed failure).Accounted := by
  have hcompleted : (r.note (.completed r.coordinator.id)).Going := h.note rfl
  have hdetached : ((r.note (.completed r.coordinator.id)).note
      (.detached r.coordinator.id)).Going := hcompleted.note rfl
  have hreleased : r.release.Going := hdetached.set rfl rfl
  cases failure with
  | some e => exact hreleased.fail e
  | none =>
    exact hreleased.perform (Act.writes_say (fun _ => rfl) _) (fun _ e hr => hr.fail e)
      fun _ _ hr => hr.finish _

lemma resume (h : r.Going) (s : Settlement) : (r.resume s).Accounted := by
  have hnoted : ∀ request, (r.note (.answered request s)).Going := fun _ => h.note rfl
  cases hphase : r.phase with
  | idle | ended =>
    simp only [Run.resume, hphase]
    exact h.accounted
  | connecting =>
    simp only [Run.resume, hphase]
    cases s with
    | fulfilled a => exact h.opened
    | rejected e => exact h.fail e
  | dialing dial =>
    simp only [Run.resume, hphase]
    exact h.dialed dial s
  | invoking methodName =>
    simp only [Run.resume, hphase]
    cases s with
    | rejected e => exact (hnoted .invoke).failAttempt _ _
    | fulfilled a => cases a <;> exact (hnoted .invoke).invoked _ _
  | publishing =>
    simp only [Run.resume, hphase]
    cases s with
    | fulfilled a => exact (hnoted .publish).published
    | rejected e => exact (hnoted .publish).failAttempt _ _
  | pausing =>
    simp only [Run.resume, hphase]
    exact h.turn
  | closing failure =>
    simp only [Run.resume, hphase, plan_note]
    cases r.plan.link with
    | direct =>
      cases s with
      | fulfilled a => exact (hnoted .close).closed _
      | rejected e => exact (hnoted .close).fail e
    | client =>
      exact (hnoted .close).perform (Client.writes_closeAnswered (fun _ _ => rfl) s)
        (fun _ e hr => hr.fail e) fun _ _ hr => hr.closed _

end Going

/-! ### From outside -/

lemma Going.wake (h : r.Going) (wake : Alarm) : (r.wake wake).Accounted := by
  cases wake with
  | pause | answer s => exact h.rests rfl rfl
  | grace =>
    unfold Run.wake
    refine h.perform (Coordinator.writes_graceEnded fun _ _ => rfl)
      (fun _ _ hr => hr.rests rfl rfl) fun r' forced hr => ?_
    cases forced with
    | false => exact hr.accounted
    | true =>
      simp only [if_true]
      cases r'.plan.scope with
      | program => exact hr.exitWith (by simp)
      | attempt | loop | sender => exact (hr.note rfl).accounted

lemma Going.fire (h : r.Going) : r.fire.Accounted := by
  unfold Run.fire
  split
  · exact h.accounted
  · next t rest _ =>
    have htaken : ({ r with timers := rest }.moveTo t.due).Going := ⟨h.exit, h.codes⟩
    exact htaken.wake _

lemma Going.request (h : r.Going) (reason : String) : (r.request reason).Accounted := by
  have hw : (r.coordinator.request reason).Writes (·.exitCode? = none) :=
    Coordinator.writes_request (P := (·.exitCode? = none)) (fun _ _ => rfl) rfl reason
  unfold Run.request
  refine h.perform hw (fun _ _ hr => hr.rests rfl rfl) fun r' next hr => ?_
  obtain ⟨c, aborted⟩ := next
  cases aborted with
  | false => exact hr.accounted
  | true =>
    have haborted : Going { r' with coordinator := c } := hr.set rfl rfl
    simp only [if_true]
    split
    · exact haborted.endPause.accounted
    · exact haborted.endPause.rests rfl rfl

/-! ### Under a schedule -/

lemma Accounted.make (h : r.Accounted) (hdown : r.plan.scope.tearsDown = true) (m : Move) :
    (r.make m).Accounted := by
  cases m with
  | goOn =>
    simp only [Run.make]
    split
    · next hexit hready =>
      have htaken : Going { r with ready := none } := (h.going hexit).set rfl rfl
      exact htaken.resume _
    · exact h
  | fire =>
    simp only [Run.make]
    split
    · next hexit => exact (h.going hexit).fire
    · exact h
  | wait time =>
    simp only [Run.make]
    split
    · exact ⟨h.codes, h.well⟩
    · exact h
  | signal name =>
    simp only [Run.make, Run.deliver]
    split
    · next hhears =>
      have hexit : r.exit = none := by
        simp only [Run.hears, Bool.and_eq_true, Option.isNone_iff_eq_none] at hhears
        exact hhears.1
      exact (h.going hexit).request name
    · exact h
  | abort =>
    simp only [Run.make, hdown]
    exact h

/-- A program that has exited does nothing any more. -/
lemma make_of_exit {code : Nat} (hexit : r.exit = some code)
    (hdown : r.plan.scope.tearsDown = true) (m : Move) :
    (r.make m).exit = some code ∧ (r.make m).plan = r.plan := by
  cases m with
  | goOn => simp [Run.make, hexit]
  | fire => simp [Run.make, hexit]
  | wait time =>
    simp only [Run.make]
    split
    · exact ⟨hexit, rfl⟩
    · exact ⟨hexit, rfl⟩
  | signal name => simp [Run.make, Run.deliver, Run.hears, hexit]
  | abort => simp [Run.make, hdown, hexit]

lemma follow_append (r : Run) (after before : List Move) :
    r.follow (after ++ before) = (r.follow before).follow after := by
  induction after with
  | nil => rfl
  | cons m after ih => rw [List.cons_append, follow, follow, ih]

lemma exit_follow {code : Nat} (hexit : r.exit = some code)
    (hdown : r.plan.scope.tearsDown = true) (moves : List Move) :
    (r.follow moves).exit = some code := by
  suffices h : (r.follow moves).exit = some code ∧ (r.follow moves).plan = r.plan from h.1
  induction moves with
  | nil => exact ⟨hexit, rfl⟩
  | cons m past ih =>
    obtain ⟨hpast, hplan⟩ := ih
    have hmade := make_of_exit hpast (by rw [hplan]; exact hdown) m
    exact ⟨hmade.1, hmade.2.trans hplan⟩

/-- What comes to hold under a schedule comes to hold at one of its moves. -/
lemma exists_crossing {Q : Run → Prop} (h₀ : ¬ Q r) {moves : List Move} (h : Q (r.follow moves)) :
    ∃ after m before, moves = after ++ m :: before ∧ ¬ Q (r.follow before) ∧
      Q ((r.follow before).make m) := by
  induction moves with
  | nil => exact absurd h h₀
  | cons m past ih =>
    by_cases hpast : Q (r.follow past)
    · obtain ⟨after, m', before, rfl, hbefore, hmade⟩ := ih hpast
      exact ⟨m :: after, m', before, rfl, hbefore, hmade⟩
    · exact ⟨[], m, past, rfl, hpast, h⟩

end Run

end Sender

end EdgeCaller

import EdgeCaller.Proofs.Sender.Answers
import EdgeCaller.Proofs.Sender.Outside
/-!
What the moves of a run leave alone.

When a run goes on from an answer it makes calls, begins and ends attempts and writes lines, but it
does not force the exit, answers no call itself, and leaves its latch and its grace period as they
are until its connection is closed. It aborts its own work only if its plan has it do so during a
call. `Proceeds` says this of the moves one by one; the moves come in the order in which they rely
on one another.
-/

namespace EdgeCaller.Sender

/-- The work is aborted from outside only. -/
structure Plan.Unprompted (plan : Plan) : Prop where
  invoke : plan.abortOnInvoke = none
  publish : plan.abortOnPublish = none
  consult : plan.abortOnConsult = none
  wait : plan.abortOnWait = none

/-- Whether an event of this mark comes from a run itself, whatever else happens. -/
def Mark.isOwn : Mark → Bool
  | abort | forced | answered .. | completed | detached => false
  | _ => true

/-- The events that can come of a run's own moves, but for the end of teardown. -/
def Plan.Allows (plan : Plan) (e : Event) : Prop :=
  e.mark.isOwn = true ∨ e.mark = .abort ∧ ¬ plan.Unprompted

namespace Run

/-- `r'` is `r` after some of its own moves. -/
structure Proceeds (r r' : Run) : Prop where
  plan : r'.plan = r.plan
  journal : r.journal.Extends r.plan.Allows r'.journal
  latch : r'.coordinator.latch = r.coordinator.latch
  reason : r.plan.Unprompted → r'.coordinator.reason = r.coordinator.reason
  graces : r'.timers.graces = r.timers.graces
  exit : r.plan.scope ≠ .program → r'.exit = r.exit

variable {r₀ r r' : Run}

lemma proceeds_self (r : Run) : r.Proceeds r :=
  ⟨rfl, .refl _ _, rfl, fun _ => rfl, rfl, fun _ => rfl⟩

/-- The answer that a run goes on from is noted, if it is that of a call over the connection. -/
def heard (r : Run) (s : Settlement) : Run :=
  match r.phase with
  | .invoking _ => r.note (.answered .invoke s)
  | .publishing => r.note (.answered .publish s)
  | .closing _ => r.note (.answered .close s)
  | _ => r

namespace Proceeds

lemma trans (h : r₀.Proceeds r) (h' : r.Proceeds r') : r₀.Proceeds r' := by
  have hj := h'.journal
  rw [h.plan] at hj
  exact
    { plan := h'.plan.trans h.plan
      journal := h.journal.trans hj
      latch := h'.latch.trans h.latch
      reason := fun hunprompted =>
        (h'.reason (by rwa [h.plan])).trans (h.reason hunprompted)
      graces := h'.graces.trans h.graces
      exit := fun hscope => (h'.exit (by rwa [h.plan])).trans (h.exit hscope) }

/-- Phase, tallies and what is ready do not matter. -/
lemma set (h : r₀.Proceeds r) (hplan : r'.plan = r.plan) (hj : r'.journal = r.journal)
    (hlatch : r'.coordinator.latch = r.coordinator.latch)
    (hreason : r'.coordinator.reason = r.coordinator.reason)
    (hgraces : r'.timers.graces = r.timers.graces) (hexit : r'.exit = r.exit) : r₀.Proceeds r' :=
  h.trans ⟨hplan, by rw [hj]; exact .refl _ _, hlatch, fun _ => hreason, hgraces, fun _ => hexit⟩

lemma note (h : r₀.Proceeds r) {e : Event} (he : e.mark.isOwn = true) : r₀.Proceeds (r.note e) :=
  h.trans ⟨rfl, Journal.extends_add (.inl he) r.journal, rfl, fun _ => rfl, rfl, fun _ => rfl⟩

lemma perform {α : Type} {act : Act α} {fail : Run → Value → Run} {next : Run → α → Run}
    (h : r₀.Proceeds r) (hw : act.Writes fun e => e.mark = .remark)
    (hfail : ∀ r' e, r₀.Proceeds r' → r₀.Proceeds (fail r' e))
    (hnext : ∀ r' a, r₀.Proceeds r' → r₀.Proceeds (next r' a)) :
    r₀.Proceeds (r.perform act fail next) := by
  have hj : r.journal.Extends r.plan.Allows (act.exec r.journal).2 :=
    (hw r.journal).mono fun e he => .inl (by rw [he]; rfl)
  unfold Run.perform
  rcases hact : act.exec r.journal with ⟨e | a, k⟩ <;> rw [hact] at hj
  · exact hfail _ e (h.trans ⟨rfl, hj, rfl, fun _ => rfl, rfl, fun _ => rfl⟩)
  · exact hnext _ a (h.trans ⟨rfl, hj, rfl, fun _ => rfl, rfl, fun _ => rfl⟩)

/-! ### Ending and waiting -/

lemma finish (h : r₀.Proceeds r) (s : Settlement) : r₀.Proceeds (r.finish s) := by
  obtain ⟨hr, -, -⟩ := r.finish_spec s
  refine h.trans ⟨hr.plan, hr.journal.mono fun e he => .inl (by rw [he]; rfl),
    by rw [hr.coordinator], fun _ => by rw [hr.coordinator], by rw [hr.timers], fun hscope => ?_⟩
  cases hs : r.plan.scope with
  | program => exact absurd hs hscope
  | attempt | loop | sender => simp only [Run.finish, hs, Run.note]

lemma fail (h : r₀.Proceeds r) (e : Value) : r₀.Proceeds (r.fail e) := h.finish _

lemma await (h : r₀.Proceeds r) (reply : Option (Nat × Settlement)) :
    r₀.Proceeds (r.await reply) := by
  match reply with
  | none => exact h
  | some (0, s) => exact h.set rfl rfl rfl rfl rfl rfl
  | some (after + 1, s) => exact h.set rfl rfl rfl rfl (Timers.graces_add_drive rfl _ _) rfl

lemma endPause (h : r₀.Proceeds r) : r₀.Proceeds r.endPause := by
  obtain ⟨hplan, hj, hc, hgraces⟩ := r.endPause_frame
  refine h.set hplan hj (by rw [hc]) (by rw [hc]) hgraces ?_
  unfold Run.endPause
  split <;> rfl

lemma abort (h : r₀.Proceeds r) (hprompted : ¬ r.plan.Unprompted) : r₀.Proceeds r.abort := by
  rcases ha : r.coordinator.isAborted with _ | _
  · obtain ⟨r', hr, habort⟩ := exists_halted_abort ha
    obtain ⟨id, hj⟩ := hr.journal
    obtain ⟨reason, hc⟩ := hr.coordinator
    rw [habort]
    refine endPause (h.trans ⟨hr.plan, ?_, by rw [hc], fun hunprompted => absurd hunprompted
      hprompted, by rw [hr.timers], fun _ => hr.exit⟩)
    rw [hj]
    exact Journal.extends_add (.inr ⟨rfl, hprompted⟩) r.journal
  · rwa [abort_of_isAborted ha]

lemma abortAt (h : r₀.Proceeds r) {due : Option Nat} (hdue : r.plan.Unprompted → due = none)
    (n : Nat) : r₀.Proceeds (r.abortAt due n) := by
  unfold Run.abortAt
  split
  · next hn =>
    refine h.abort fun hunprompted => ?_
    rw [hdue hunprompted] at hn
    simp at hn
  · exact h

/-! ### Leaving the loop -/

lemma beginClose (h : r₀.Proceeds r) (failure : Option Value) :
    r₀.Proceeds (r.beginClose failure) := by
  have hset : r₀.Proceeds { r with
      phase := .closing failure, tally := { r.tally with closes := r.tally.closes + 1 } } :=
    h.set rfl rfl rfl rfl rfl rfl
  refine (hset.note ?_).await _
  cases r.plan.link <;> rfl

lemma leaveLoop (h : r₀.Proceeds r) (failure : Option Value) :
    r₀.Proceeds (r.leaveLoop failure) := by
  unfold Run.leaveLoop
  split
  · exact h.beginClose _
  · exact h.beginClose _
  · exact h.fail _
  · exact h.fail _
  · exact h.finish _
  · exact h.finish _

lemma breakLoop (h : r₀.Proceeds r) (e : Value) : r₀.Proceeds (r.breakLoop e) := h.leaveLoop _

/-! ### In the loop -/

lemma pause (h : r₀.Proceeds r) : r₀.Proceeds r.pause := by
  have helapsed : r₀.Proceeds { r with
      phase := .pausing, waits := r.waits + 1, ready := some (.fulfilled .nothing) } :=
    h.set rfl rfl rfl rfl rfl rfl
  cases hpace : r.plan.pace with
  | timed =>
    simp only [Run.pause, hpace]
    split
    · exact helapsed
    · exact h.set rfl rfl rfl rfl (Timers.graces_add_drive rfl _ _) rfl
  | immediate =>
    simp only [Run.pause, hpace]
    have hwaited : r₀.Proceeds ({ r with
        phase := .pausing, waits := r.waits + 1, ready := some (.fulfilled .nothing) }.note
        (.wait r.plan.interval)) := helapsed.note rfl
    exact hwaited.abortAt (fun hunprompted => hunprompted.wait) _

lemma endAttempt (h : r₀.Proceeds r) (outcome : Outcome) : r₀.Proceeds (r.endAttempt outcome) := by
  have hnoted : r₀.Proceeds (r.note (.attemptEnded outcome)) := h.note rfl
  cases hscope : r.plan.scope with
  | attempt =>
    simp only [Run.endAttempt, hscope, Run.note]
    exact hnoted.finish _
  | loop | sender | program =>
    simp only [Run.endAttempt, hscope, Run.note]
    exact hnoted.pause

lemma failAttempt (h : r₀.Proceeds r) (stage : Stage) (e : Value) :
    r₀.Proceeds (r.failAttempt stage e) := by
  have hasked : r₀.Proceeds { r with consults := r.consults + 1 } := h.set rfl rfl rfl rfl rfl rfl
  have hnoted : r₀.Proceeds ({ r with consults := r.consults + 1 }.note (.consulted stage e)) :=
    hasked.note rfl
  exact perform (hnoted.abortAt (fun hunprompted => hunprompted.consult) _)
    (writes_consult (fun _ _ => rfl) (fun _ _ _ => rfl) _ _ _ _) (fun _ e hr => hr.breakLoop e)
    fun _ _ hr => hr.endAttempt _

lemma invoke (h : r₀.Proceeds r) : r₀.Proceeds r.invoke := by
  have hset : ∀ shown, r₀.Proceeds { r with
      phase := .invoking shown, tally := { r.tally with invokes := r.tally.invokes + 1 } } :=
    fun _ => h.set rfl rfl rfl rfl rfl rfl
  refine (((hset _).note ?_).abortAt ?_ _).await _
  · cases r.plan.link <;> rfl
  · exact fun hunprompted => hunprompted.invoke

lemma beginAttempt (h : r₀.Proceeds r) : r₀.Proceeds r.beginAttempt :=
  perform (h.note rfl) (Act.writes_tell (fun _ => rfl) _ _) (fun _ e hr => hr.breakLoop e)
    fun _ _ hr => hr.invoke

lemma publish (h : r₀.Proceeds r) : r₀.Proceeds r.publish := by
  have hset : r₀.Proceeds { r with
      phase := .publishing, tally := { r.tally with publishes := r.tally.publishes + 1 } } :=
    h.set rfl rfl rfl rfl rfl rfl
  refine ((hset.note ?_).abortAt ?_ _).await _
  · cases r.plan.link <;> rfl
  · exact fun hunprompted => hunprompted.publish

lemma invoked (h : r₀.Proceeds r) (methodName status : Value) :
    r₀.Proceeds (r.invoked methodName status) := by
  unfold Run.invoked
  split
  · exact h.perform (Act.writes_tell (fun _ => rfl) _ _) (fun _ e hr => hr.breakLoop e)
      fun _ _ hr => hr.publish
  · exact h.perform (Act.writes_tell (fun _ => rfl) _ _) (fun _ e hr => hr.breakLoop e)
      fun _ _ hr => hr.endAttempt _

lemma published (h : r₀.Proceeds r) : r₀.Proceeds r.published :=
  h.perform (Act.writes_tell (fun _ => rfl) _ _) (fun _ e hr => hr.breakLoop e)
    fun _ _ hr => hr.endAttempt _

lemma turn (h : r₀.Proceeds r) : r₀.Proceeds r.turn := by
  unfold Run.turn
  split
  · exact h.perform (Act.writes_say (fun _ => rfl) _) (fun _ e hr => hr.breakLoop e)
      fun _ _ hr => hr.leaveLoop _
  · exact h.beginAttempt

/-! ### Opening -/

lemma opened (h : r₀.Proceeds r) : r₀.Proceeds r.opened := by
  have hlistens : r₀.Proceeds { r with coordinator := { r.coordinator with listening := true } } :=
    h.set rfl rfl rfl rfl rfl rfl
  have harmed : r₀.Proceeds ({ r with coordinator := { r.coordinator with listening := true } }.note
      (.armed r.coordinator.id)) := hlistens.note rfl
  exact harmed.perform (Act.writes_tell (fun _ => rfl) _ _) (fun _ e hr => hr.fail e)
    fun _ _ hr => hr.turn

lemma awaitDial (h : r₀.Proceeds r) (dial : Dial) : r₀.Proceeds (r.awaitDial dial) := by
  have hset : r₀.Proceeds { r with
      tally := (dial.reply r.plan.script r.tally).2, phase := .dialing dial } :=
    h.set rfl rfl rfl rfl rfl rfl
  exact hset.await _

lemma connect (h : r₀.Proceeds r) : r₀.Proceeds r.connect := by
  cases hlink : r.plan.link with
  | direct =>
    simp only [Run.connect, hlink]
    have hset : r₀.Proceeds { r with phase := .connecting } := h.set rfl rfl rfl rfl rfl rfl
    have hasked : r₀.Proceeds ({ r with phase := .connecting }.note (.connect r.plan.transport)) :=
      hset.note rfl
    exact hasked.await _
  | client =>
    simp only [Run.connect, hlink]
    have hasked : r₀.Proceeds (r.note (.clientCreate (Wire.ofName r.plan.transport))) :=
      h.note rfl
    exact hasked.awaitDial .creating

lemma begin (h : r₀.Proceeds r) : r₀.Proceeds r.begin := by
  unfold Run.begin
  split
  · exact h.beginAttempt
  · exact h.turn
  all_goals
    exact h.perform (writes_greet (fun _ _ => rfl) _) (fun _ e hr => hr.fail e)
      fun _ _ hr => hr.connect

end Proceeds

/-- An open client writes lines when it is answered, but for the calls that it makes to open. -/
lemma Proceeds.dialed (h : r₀.Proceeds r) (dial : Dial) (s : Settlement) : r₀.Proceeds
    (r.perform (dial.answered r.plan.transport s) Run.fail fun r next =>
      match next with
      | some dial => r.awaitDial dial
      | none => r.opened) := by
  cases dial with
  | creating =>
    cases s with
    | rejected e => exact h.fail _
    | fulfilled a =>
      have hasked : r₀.Proceeds (r.note .clientOpen) := h.note rfl
      exact hasked.awaitDial .opening
  | opening =>
    cases s with
    | rejected e =>
      have hasked : r₀.Proceeds (r.note .clientClose) := h.note rfl
      exact hasked.awaitDial (.discarding e)
    | fulfilled a =>
      refine h.perform ?_ (fun _ e hr => hr.fail e) fun _ next hr => ?_
      · exact Act.writes_bind (Act.writes_tell (fun _ => rfl) _ _) fun _ => Act.writes_pure _
      · cases next with
        | some dial => exact hr.awaitDial dial
        | none => exact hr.opened
  | discarding cause =>
    refine h.perform ?_ (fun _ e hr => hr.fail e) fun _ next hr => ?_
    · cases s with
      | fulfilled a => exact Act.writes_throw _
      | rejected e =>
        exact Act.writes_bind (Act.writes_ofText _) fun _ =>
          Act.writes_bind (Act.writes_tell (fun _ => rfl) _ _) fun _ => Act.writes_throw _
    · cases next with
      | some dial => exact hr.awaitDial dial
      | none => exact hr.opened

/-- A run that does not close its connection notes the answer and proceeds from it. -/
theorem proceeds_resume (h : ∀ failure, r.phase ≠ .closing failure) (s : Settlement) :
    (r.heard s).Proceeds (r.resume s) := by
  have hself := (r.heard s).proceeds_self
  cases hphase : r.phase with
  | closing failure => exact absurd hphase (h failure)
  | idle | ended =>
    simp only [Run.heard, Run.resume, hphase] at hself ⊢
    exact hself
  | connecting =>
    simp only [Run.heard, Run.resume, hphase] at hself ⊢
    cases s with
    | fulfilled a => exact hself.opened
    | rejected e => exact hself.fail e
  | dialing dial =>
    simp only [Run.heard, Run.resume, hphase] at hself ⊢
    exact hself.dialed dial s
  | invoking methodName =>
    simp only [Run.heard, Run.resume, hphase] at hself ⊢
    cases s with
    | rejected e => exact hself.failAttempt _ _
    | fulfilled a => cases a <;> exact hself.invoked _ _
  | publishing =>
    simp only [Run.heard, Run.resume, hphase] at hself ⊢
    cases s with
    | fulfilled a => exact hself.published
    | rejected e => exact hself.failAttempt _ _
  | pausing =>
    simp only [Run.heard, Run.resume, hphase] at hself ⊢
    exact hself.turn

/-- Once its connection is closed a run is released, and proceeds from there. -/
lemma proceeds_closed (r : Run) (failure : Option Value) :
    r.release.Proceeds (r.closed failure) := by
  have hself := r.release.proceeds_self
  cases failure with
  | some e => exact hself.fail e
  | none =>
    exact hself.perform (Act.writes_say (fun _ => rfl) _) (fun _ e hr => hr.fail e)
      fun _ _ hr => hr.finish _

lemma Proceeds.extends (h : r.Proceeds r') : r.journal.Extends (fun _ => True) r'.journal :=
  h.journal.mono fun _ _ => trivial

lemma extends_closed (r : Run) (failure : Option Value) :
    r.journal.Extends (fun _ => True) (r.closed failure).journal := by
  have hcompleted := Journal.extends_add (P := fun _ => True) (e := .completed r.coordinator.id)
    trivial r.journal
  have hreleased : r.journal.Extends (fun _ => True) r.release.journal :=
    hcompleted.trans (Journal.extends_add (e := .detached r.coordinator.id) trivial _)
  exact hreleased.trans (proceeds_closed r failure).extends

/-- To go on takes no time. -/
lemma extends_resume (r : Run) (s : Settlement) :
    r.journal.Extends (fun _ => True) (r.resume s).journal := by
  have hnote : ∀ e : Event, r.journal.Extends (fun _ => True) (r.note e).journal := fun e =>
    Journal.extends_add trivial r.journal
  have hheard : r.journal.Extends (fun _ => True) (r.heard s).journal := by
    unfold heard
    split
    · exact hnote _
    · exact hnote _
    · exact hnote _
    · exact .refl _ _
  by_cases hclosing : ∃ failure, r.phase = .closing failure
  · obtain ⟨failure, hphase⟩ := hclosing
    refine (hnote (.answered .close s)).trans ?_
    simp only [Run.resume, hphase, plan_note]
    cases r.plan.link with
    | direct =>
      cases s with
      | fulfilled a => exact extends_closed _ _
      | rejected e => exact ((proceeds_self _).fail e).extends
    | client =>
      have hj := Client.writes_closeAnswered (P := fun _ => True) (fun _ _ => trivial) s
        (r.note (.answered .close s)).journal
      unfold perform
      rcases hact : (Client.closeAnswered s).exec (r.note (.answered .close s)).journal
        with ⟨e | a, k⟩ <;> rw [hact] at hj
      · exact hj.trans ((proceeds_self { r.note (.answered .close s) with journal := k }).fail
          e).extends
      · exact hj.trans (extends_closed { r.note (.answered .close s) with journal := k } failure)
  · exact hheard.trans
      (proceeds_resume (fun failure hphase => hclosing ⟨failure, hphase⟩) s).extends

end Run

end EdgeCaller.Sender

import EdgeCaller.Proofs.Sender.Attempts
/-!
Going on from an answer.

From whatever a run goes on, it comes to rest again: while it opens its connection, in its loop and
while it tears down.
-/

namespace EdgeCaller.Sender.Run

variable {plan : Plan} {r : Run} {p q : Place} {e : Value} {s : Settlement}

/-! ### Opening -/

lemma sound_awaitDial {dial : Dial} (h : r.Free plan p)
    (hat : ∀ aborted, At r.plan.link aborted (.dialing dial) p) :
    (r.awaitDial dial).Sound plan := by
  have hr : r.Remarked { r with
      tally := (dial.reply r.plan.script r.tally).2, phase := .dialing dial } :=
    ⟨rfl, .refl _ _, rfl, rfl, id⟩
  exact sound_await (hr.later.free h rfl) (hat _) trivial

lemma sound_connect (h : r.Free plan .opening) : r.connect.Sound plan := by
  cases hlink : r.plan.link with
  | direct =>
    have hr : r.Remarked { r with phase := .connecting } := ⟨rfl, .refl _ _, rfl, rfl, id⟩
    have hasked : ({ r with phase := .connecting }.note (.connect r.plan.transport)).Free plan
        .opening := (hr.later.free h rfl).note .dial rfl rfl rfl
    simp only [connect, hlink]
    exact sound_await hasked (.connecting hlink) rfl
  | client =>
    have hasked : (r.note (.clientCreate (Wire.ofName r.plan.transport))).Free plan .opening :=
      h.note .dial rfl rfl rfl
    simp only [connect, hlink]
    exact sound_awaitDial hasked fun _ => .creating hlink

lemma sound_opened (h : r.Free plan .opening) (hopens : r.plan.link = .direct → r.plan.Opens) :
    r.opened.Sound plan := by
  have hscope := h.history.tearsDown_of_isOuter rfl
  have harmed : ({ r with coordinator := { r.coordinator with listening := true } }.note
      (.armed r.coordinator.id)).Free plan .between := by
    refine ⟨⟨?_, ?_, h.latch, h.origin, ?_, h.due⟩, h.ready, h.drives⟩
    · have hcons : History r.plan (⟨r.journal.now, .armed r.coordinator.id⟩ :: r.journal.entries)
          .between (r.coordinator.isAborted || Mark.isAbort .armed) :=
        h.history.cons rfl (.arm hopens)
      have harm : Mark.isAbort .armed = false := rfl
      rwa [harm, Bool.or_false] at hcons
    · exact (Bool.and_eq_true_iff.mpr ⟨hscope, rfl⟩).symm
    · rcases h.grace with hg | ⟨u, -, hu, hg⟩
      · exact .inl hg
      · exact .inr ⟨u, rfl, by rw [Run.note, Journal.entries_add, abortTime_cons]; exact hu, hg⟩
  have hnone : lastEnd (r.journal.add (.armed r.coordinator.id)).entries = none := by
    rw [Journal.entries_add, lastEnd_cons]
    exact h.history.lastEnd_of_unarmed rfl
  unfold opened
  refine sound_perform harmed (Act.writes_tell (fun _ => rfl) _ _) ?_ ?_
  · intro r' e hr hr' hfails
    refine sound_fail hr' (.unstarted (by rw [hr.plan]; exact hscope) fun hu => hfails ?_)
    refine Act.succeeds_tell (hr.journal.undisturbed_iff.mp hu) _ _ fun m hm => ?_
    rw [List.mem_singleton.mp hm]
    exact Value.writable_number _
  · intro r' _ hr hr' _
    refine sound_turn hr' (.inr (hr.later.spaced fun _ u hu => ?_))
    rw [Run.note, hnone] at hu
    simp at hu

lemma writes_greet {P : Event → Prop} (h : ∀ level text, P (.line level text)) (plan : Plan) :
    (greet plan).Writes P :=
  Act.writes_bind (Act.writes_say (h _) _) fun _ =>
    Act.writes_bind (Act.writes_tell (h _) _ _) fun _ => Act.writes_say (h _) _

lemma discarding_ne_ok (transport : String) (cause : Value) (s : Settlement) (j k : Journal)
    (next : Option Dial) :
    ((Dial.discarding cause).answered transport s).exec j ≠ (.ok next, k) := by
  intro hact
  cases s with
  | fulfilled a => simp [Dial.answered] at hact
  | rejected e =>
    simp only [Dial.answered, Act.exec_bind] at hact
    split at hact
    · split at hact
      · simp at hact
      · simp at hact
    · simp at hact

lemma sound_dialed {dial : Dial} (h : r.Free plan p)
    (hat : At r.plan.link r.coordinator.isAborted (.dialing dial) p)
    (hphase : r.phase = .dialing dial) (s : Settlement) : (r.resume s).Sound plan := by
  have hfail : ∀ (q : Place) (r' : Run) (e : Value), r.plan.link = .client → q.unarmed = 1 →
      r.Remarked r' → r'.Free plan q → (r'.fail e).Sound plan := by
    intro q r' e hlink hq hr hr'
    refine sound_fail hr' (.unopened hq fun hdirect => ?_)
    rw [hr.plan, hlink] at hdirect
    simp at hdirect
  have hself : r.Remarked r := ⟨rfl, .refl _ _, rfl, rfl, id⟩
  simp only [Run.resume, hphase]
  cases hat with
  | creating hlink =>
    cases s with
    | rejected e => exact hfail _ r _ hlink rfl hself h
    | fulfilled a =>
      have hasked : (r.note .clientOpen).Free plan .opening := h.note .dial rfl rfl rfl
      exact sound_awaitDial hasked fun _ => .opening hlink
  | opening hlink =>
    cases s with
    | rejected e =>
      have hasked : (r.note .clientClose).Free plan .discarding :=
        h.note (.discard hlink) rfl rfl rfl
      exact sound_awaitDial hasked fun _ => .discarding hlink
    | fulfilled a =>
      refine sound_perform h ?_ (fun r' e hr hr' _ => hfail _ r' e hlink rfl hr hr') ?_
      · exact Act.writes_bind (Act.writes_tell (fun _ => rfl) _ _) fun _ => Act.writes_pure _
      · intro r' next hr hr' hact
        simp only [Dial.answered, Act.exec_bind] at hact
        split at hact
        · obtain ⟨rfl⟩ := (Except.ok.inj (congrArg Prod.fst hact))
          refine sound_opened hr' fun hdirect => ?_
          rw [hr.plan, hlink] at hdirect
          simp at hdirect
        · simp at hact
  | @discarding cause hlink =>
    refine sound_perform h ?_ (fun r' e hr hr' _ => hfail _ r' e hlink rfl hr hr') ?_
    · cases s with
      | fulfilled a => exact Act.writes_throw _
      | rejected e =>
        exact Act.writes_bind (Act.writes_ofText _) fun _ =>
          Act.writes_bind (Act.writes_tell (fun _ => rfl) _ _) fun _ => Act.writes_throw _
    · intro r' next _ _ hact
      exact absurd hact (discarding_ne_ok _ _ _ _ _ _)

/-! ### Going on from an answer -/

lemma timers_release (r : Run) : r.release.timers = r.timers.cancel Alarm.isGrace := by
  simp only [release, Run.note, Timers.cancel]
  refine List.filter_congr fun t _ => ?_
  cases t.wake with
  | grace | pause | answer s => rfl

/-- Once the connection is closed the latch is set, then the listeners are removed, and there is no
grace period any more. -/
lemma free_release (h : r.Free plan (.closed s))
    (hs : r.plan.link = .direct → s.isFulfilled = true) :
    r.release.Free plan .detached := by
  have hcompleted : ({ r with coordinator := { r.coordinator with
      latch := r.coordinator.latch.set.2.2 } }.note (.completed r.coordinator.id)).Stands plan
      .completed := by
    refine ⟨?_, h.listening, r.coordinator.latch.isSet_set, h.origin, ?_, h.due⟩
    · have hcons : History r.plan (⟨r.journal.now, .completed r.coordinator.id⟩ ::
          r.journal.entries) .completed (r.coordinator.isAborted || Mark.isAbort .completed) :=
        h.history.cons rfl (.complete hs)
      have hmark : Mark.isAbort .completed = false := rfl
      rwa [hmark, Bool.or_false] at hcons
    · rcases h.grace with hg | ⟨u, hl, hu, hg⟩
      · exact .inl hg
      · exact .inr ⟨u, hl, by rw [Run.note, Journal.entries_add, abortTime_cons]; exact hu, hg⟩
  refine ⟨⟨?_, ?_, hcompleted.latch, h.origin, ?_, fun he t ht => ?_⟩, h.ready, ?_⟩
  · have hcons : History r.plan (⟨r.journal.now, .detached r.coordinator.id⟩ ::
        ⟨r.journal.now, .completed r.coordinator.id⟩ :: r.journal.entries) .detached
        (r.coordinator.isAborted || Mark.isAbort .detached) := hcompleted.history.cons rfl .detach
    have hmark : Mark.isAbort .detached = false := rfl
    rwa [hmark, Bool.or_false] at hcons
  · exact (Bool.and_false _).symm
  · rw [timers_release]
    exact .inl (Timers.graces_cancel_grace rfl r.timers)
  · rw [timers_release] at ht
    exact h.due he t (List.mem_filter.mp ht).1
  · rw [timers_release, Timers.drives_cancel rfl (fun _ => rfl)]
    exact h.drives

lemma sound_closed (h : r.Free plan (.closed s)) (hs : r.plan.link = .direct → s.isFulfilled = true)
    {failure : Option Value} (hf : failure = none → r.coordinator.isAborted = true) :
    (r.closed failure).Sound plan := by
  have hreleased := free_release h hs
  have ha : r.release.coordinator.isAborted = r.coordinator.isAborted := rfl
  unfold closed
  cases failure with
  | some e => exact sound_fail hreleased .failed
  | none =>
    refine sound_perform hreleased (Act.writes_say (fun _ => rfl) _)
      (fun r' e _ hr' _ => sound_fail hr' .failed) fun r' _ hr hr' _ => sound_finish hr' ?_
    exact .finished (by rw [hr.coordinator, ha]; exact hf rfl)

lemma sound_answeredInvoke {name : String} (h : r.Free plan .invoking)
    (hphase : r.phase = .invoking (.text name)) (hf : r.plan.Foresees r.phase s) :
    (r.resume s).Sound plan := by
  have hanswered : (r.note (.answered .invoke s)).Free plan (.afterInvoke s) := by
    refine h.note .invoked rfl ?_ ?_
    · rcases Place.afterInvoke_cases s with ⟨-, hq⟩ | ⟨-, hq⟩ | ⟨e, -, hq⟩ <;> rw [hq] <;> rfl
    · rcases Place.afterInvoke_cases s with ⟨-, hq⟩ | ⟨-, hq⟩ | ⟨e, -, hq⟩ <;> rw [hq] <;> rfl
  have hnot : r.phase ≠ .pausing := by rw [hphase]; exact Phase.noConfusion
  rw [hphase] at hf
  simp only [Run.resume, hphase]
  cases s with
  | rejected e =>
    exact sound_failAttempt hanswered hnot fun hc =>
      ((calm_note _).mp hc).2.returns_invoke hf
  | fulfilled a =>
    obtain ⟨reply, payload, rfl, -⟩ := Plan.Foresees.response hf
    exact sound_invoked hanswered fun hc => ((calm_note _).mp hc).2.writable_status hf

lemma sound_answeredPublish (h : r.Free plan .publishing) (hphase : r.phase = .publishing)
    (hf : r.plan.Foresees r.phase s) : (r.resume s).Sound plan := by
  have hanswered : (r.note (.answered .publish s)).Free plan (.afterPublish s) :=
    h.note .published rfl (by cases s <;> rfl) (by cases s <;> rfl)
  have hnot : r.phase ≠ .pausing := by rw [hphase]; exact Phase.noConfusion
  rw [hphase] at hf
  simp only [Run.resume, hphase]
  cases s with
  | rejected e =>
    exact sound_failAttempt hanswered hnot fun hc =>
      ((calm_note _).mp hc).2.returns_publish hf
  | fulfilled a => exact sound_published hanswered

lemma sound_answeredClose {failure : Option Value} (h : r.Free plan .closing)
    (hphase : r.phase = .closing failure) (hf : failure = none → r.coordinator.isAborted = true)
    (s : Settlement) : (r.resume s).Sound plan := by
  have hanswered : (r.note (.answered .close s)).Free plan (.closed s) := h.note .closed rfl rfl rfl
  simp only [Run.resume, hphase, plan_note]
  cases hlink : r.plan.link with
  | direct =>
    cases s with
    | fulfilled a => exact sound_closed hanswered (fun _ => rfl) hf
    | rejected e => exact sound_fail hanswered (.unclosed fun _ => rfl)
  | client =>
    refine sound_perform hanswered (Client.writes_closeAnswered (fun _ _ => rfl) s) ?_ ?_
    · intro r' e hr hr' _
      refine sound_fail hr' (.unclosed fun hdirect => ?_)
      rw [hr.plan, plan_note, hlink] at hdirect
      simp at hdirect
    · intro r' _ hr hr' _
      refine sound_closed hr' (fun hdirect => ?_) (by rw [hr.coordinator]; exact hf)
      rw [hr.plan, plan_note, hlink] at hdirect
      simp at hdirect

lemma sound_answered (h : r.Free plan p)
    (hat : At r.plan.link r.coordinator.isAborted r.phase p) (hf : r.plan.Foresees r.phase s) :
    (r.resume s).Sound plan := by
  generalize hphase : r.phase = phase at hat
  cases hat with
  | connecting hlink =>
    rw [hphase] at hf
    simp only [Run.resume, hphase]
    cases s with
    | fulfilled a =>
      obtain ⟨after, hreply⟩ := hf
      exact sound_opened h fun _ => ⟨after, a, hreply⟩
    | rejected e => exact sound_fail h (.unopened rfl fun _ _ => hf)
  | creating hlink => exact sound_dialed h (.creating hlink) hphase s
  | opening hlink => exact sound_dialed h (.opening hlink) hphase s
  | discarding hlink => exact sound_dialed h (.discarding hlink) hphase s
  | invoking => exact sound_answeredInvoke h hphase hf
  | publishing => exact sound_answeredPublish h hphase hf
  | closing hfailure => exact sound_answeredClose h hphase hfailure s

lemma sound_paused (h : r.Free plan .between) (hphase : r.phase = .pausing)
    (helapsed : r.coordinator.isAborted = true ∨
      Spaced r.plan r.journal.entries r.journal.now) (s : Settlement) :
    (r.resume s).Sound plan := by
  simp only [Run.resume, hphase]
  exact sound_turn h helapsed

/-- A run at rest goes on from an answer until it is at rest again. -/
theorem Sound.resume (h : r.Sound plan) (hready : r.ready = some s) :
    ({ r with ready := none }.resume s).Sound plan := by
  have hfree : ∀ p, r.Stands plan p → r.timers.drives = [] → Free plan { r with ready := none } p :=
    fun p hp hdrives => ⟨⟨hp.history, hp.listening, hp.latch, hp.origin, hp.grace, hp.due⟩,
      rfl, hdrives⟩
  cases h with
  | @awaiting p hstands hat hawaits =>
    cases hawaits with
    | never hnone => simp [hready] at hnone
    | coming hnone => simp [hready] at hnone
    | answered hsome hdrives hf =>
      obtain rfl := Option.some.inj (hready.symm.trans hsome)
      exact sound_answered (hfree p hstands hdrives) hat hf
  | pausing hstands hphase hpauses =>
    cases hpauses with
    | lasting hnone => simp [hready] at hnone
    | elapsed hsome hdrives helapsed =>
      exact sound_paused (hfree _ hstands hdrives) hphase helapsed s
  | ended hended =>
    have hnone := hended.ready
    simp [hready] at hnone

end EdgeCaller.Sender.Run

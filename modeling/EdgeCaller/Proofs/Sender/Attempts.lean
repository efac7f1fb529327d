import EdgeCaller.Proofs.Sender.Moves
/-!
What a run does in its loop.

The moves of an attempt, from its end to its beginning, and the turn of the loop. A loop is left at
a failure only where nothing that is foreseen could have brought it.
-/

namespace EdgeCaller.Sender.Run

variable {plan : Plan} {r : Run} {p q : Place} {e : Value} {s : Settlement}

lemma sound_elapsed (h : r.Stands plan .between) (hphase : r.phase = .pausing)
    {due : Option Nat} {n : Nat} (hready : r.ready = some s) (hdrives : r.timers.drives = [])
    (hpace : r.plan.pace = .immediate) :
    (r.abortAt due n).Sound plan := by
  have hi := interrupted_abortAt (.inr (by rw [hready]; simp)) due n
  refine .pausing (hi.stands _ _ h) (hi.phase.trans hphase)
    (.elapsed (hi.ready.trans hready) ?_ (.inr fun htimed => ?_))
  · rw [hi.timers]; exact hdrives
  · rw [hi.plan, hpace] at htimed
    simp at htimed

lemma sound_pause (h : r.Free plan .between)
    (hend : lastEnd r.journal.entries = some r.journal.now) :
    r.pause.Sound plan := by
  have hr : r.Remarked { r with phase := .pausing, waits := r.waits + 1 } :=
    ⟨rfl, .refl _ _, rfl, rfl, id⟩
  have hfree := hr.later.free h rfl
  cases hpace : r.plan.pace with
  | timed =>
    simp only [pause, hpace]
    split
    · next ha =>
      have hstands := hfree.toStands
      exact .pausing ⟨hstands.history, hstands.listening, hstands.latch, hstands.origin,
        hstands.grace, hstands.due⟩ rfl (.elapsed rfl h.drives (.inl ha))
    · next ha =>
      have hpos := Nat.le_add_right r.journal.now (Timers.effectiveDelay r.plan.interval)
      have hdrives : (r.timers.start r.journal.now r.plan.interval .pause).drives =
          [⟨r.journal.now + Timers.effectiveDelay r.plan.interval, .pause⟩] := by
        rw [Timers.start, Timers.drives_add_drive rfl, h.drives, List.nil_append]
      rw [Bool.not_eq_true] at ha
      exact .pausing (hfree.toStands.addDrive .pause rfl hpos) rfl
        (.lasting h.ready ha hend hdrives)
  | immediate =>
    simp only [pause, hpace]
    refine sound_elapsed ?_ rfl rfl h.drives hpace
    exact (remarked_note _ rfl).stands ⟨hfree.history, hfree.listening, hfree.latch,
      hfree.origin, hfree.grace, hfree.due⟩

lemma sound_endAttempt (h : r.Free plan p) {o : Outcome} (ho : p.outcome? = some o) :
    (r.endAttempt o).Sound plan := by
  have hlistens : Place.between.listens = p.listens := by
    cases p <;> simp_all [Place.outcome?, Place.listens]
  have hcomplete : Place.between.isComplete = p.isComplete := by
    cases p <;> simp_all [Place.outcome?, Place.isComplete]
  have hfree : (r.note (.attemptEnded o)).Free plan .between :=
    h.note (.finish ho) rfl hlistens hcomplete
  cases hscope : r.plan.scope with
  | attempt =>
    simp only [endAttempt, hscope, Run.note]
    exact sound_finish hfree (.attempt hscope)
  | loop | sender | program =>
    simp only [endAttempt, hscope, Run.note]
    exact sound_pause hfree (by rw [Journal.entries_add, lastEnd_cons]; rfl)

lemma writes_tellAll {P : Event → Prop} (h : ∀ level text, P (.line level text))
    (lines : List (Level × String × List (String × Value))) : (tellAll lines).Writes P := by
  induction lines with
  | nil => exact Act.writes_pure ()
  | cons line lines ih =>
    obtain ⟨level, message, details⟩ := line
    exact Act.writes_bind (Act.writes_tell (h _) message details) fun _ => ih

lemma writes_consult {P : Event → Prop} (h : ∀ level text, P (.line level text))
    (hpolicy : ∀ stage kind report, P (.policy stage kind report)) (policy : Policy) (n : Nat)
    (stage : Stage) (e : Value) : (policy.consult n stage e).Writes P := by
  cases policy with
  | logAndContinue =>
    exact Act.writes_bind (Act.writes_ofText _) fun _ => Act.writes_tell (h _) _ _
  | noted verdict =>
    refine Act.writes_bind ?_ fun _ => ?_
    · exact Act.writes_bind (Act.writes_ofText _) fun _ => Act.writes_emit (hpolicy _ _ _)
    · cases verdict n stage e with
      | none => exact Act.writes_pure ()
      | some failure => exact Act.writes_throw failure
  | custom conduct =>
    refine Act.writes_bind (writes_tellAll h _) fun _ => ?_
    cases (conduct n stage e).failure with
    | none => exact Act.writes_pure ()
    | some failure => exact Act.writes_throw failure

/-- A failed attempt is left to the policy, which ends the loop only if it fails itself. -/
lemma sound_failAttempt {stage : Stage} (h : r.Free plan (.refused stage e))
    (hphase : r.phase ≠ .pausing) (hreturns : r.Calm → r.plan.policy.Returns stage e) :
    (r.failAttempt stage e).Sound plan := by
  have hr : r.Remarked { r with consults := r.consults + 1 } := ⟨rfl, .refl _ _, rfl, rfl, id⟩
  have hdealt : ({ r with consults := r.consults + 1 }.note (.consulted stage e)).Free plan
      .dealt :=
    (hr.later.free h rfl).note .consult rfl rfl rfl
  have hi := interrupted_abortAt
    (r := ({ r with consults := r.consults + 1 }.note (.consulted stage e)))
    (.inl hphase) r.plan.abortOnConsult (r.consults + 1)
  refine sound_perform (hi.free hdealt) (writes_consult (fun _ _ => rfl) (fun _ _ _ => rfl) _ _ _ _)
    ?_ fun r' _ _ hr' _ => sound_endAttempt hr' rfl
  intro r' e' hremarked hr' hfails
  refine sound_breakLoop hr' rfl (fun hc => hfails ?_) e'
  have hcalm := hremarked.calm_iff.mp hc
  have hreturns' := hreturns ((calm_note (.consulted stage e)).mp (hi.calm_iff.mp hcalm))
  rw [hi.plan]
  exact hreturns' _ _ hcalm.1

lemma sound_invoke (h : r.Free plan .calling) (ha : r.coordinator.isAborted = false) :
    r.invoke.Sound plan := by
  obtain ⟨name, hname⟩ : ∃ name,
      (if (Reply.nth r.plan.script.invokes r.tally.invokes).alters && r.plan.link = .direct
        then .text "mutated" else MethodCall.standard.methodName) = Value.text name := by
    split
    · exact ⟨_, rfl⟩
    · exact ⟨_, rfl⟩
  simp only [invoke]
  rw [hname]
  have hr : r.Remarked { r with
      phase := .invoking (.text name), tally := { r.tally with invokes := r.tally.invokes + 1 } } :=
    ⟨rfl, .refl _ _, rfl, rfl, id⟩
  refine sound_abortAt_await (p := .invoking) ((hr.later.free h rfl).note ?_ ?_ rfl rfl)
    Phase.noConfusion (fun _ => .invoking) ⟨_, rfl⟩
  · cases r.plan.link <;> exact .invoke ha
  · cases r.plan.link <;> rfl

lemma sound_beginAttempt (h : r.Free plan .between) (ha : r.coordinator.isAborted = false)
    (hs : Spaced r.plan r.journal.entries r.journal.now) : r.beginAttempt.Sound plan := by
  have hbegun : (r.note .attemptBegan).Free plan .calling := h.note (.attempt ha hs) rfl rfl rfl
  refine sound_perform hbegun (Act.writes_tell (fun _ => rfl) _ _) ?_ fun r' _ hr hr' _ =>
    sound_invoke hr' (by rw [hr.coordinator]; exact ha)
  intro r' e hr hr' hfails
  refine sound_breakLoop hr' rfl (fun hc => hfails ?_) e
  refine Act.succeeds_tell (hr.calm_iff.mp hc).1 _ _ fun m hm => ?_
  simp only [List.mem_cons, List.not_mem_nil, or_false] at hm
  rcases hm with rfl | rfl
  · exact Value.writable_text _
  · exact Value.writable_text _

lemma sound_publish (h : r.Free plan .succeeded) : r.publish.Sound plan := by
  have hr : r.Remarked { r with
      phase := .publishing, tally := { r.tally with publishes := r.tally.publishes + 1 } } :=
    ⟨rfl, .refl _ _, rfl, rfl, id⟩
  refine sound_abortAt_await (p := .publishing) ((hr.later.free h rfl).note ?_ ?_ rfl rfl)
    Phase.noConfusion (fun _ => .publishing) ⟨_, rfl⟩
  · cases r.plan.link <;> exact .publish
  · cases r.plan.link <;> rfl

/-- The status of a call decides how the attempt goes on; a status that cannot be logged ends the
loop. -/
lemma sound_invoked {name : String} {status : Value}
    (h : r.Free plan (if isSuccess status then .succeeded else .declined))
    (hstatus : r.Calm → status.Writable) : (r.invoked (.text name) status).Sound plan := by
  have hdetails : r.Calm → ∀ m ∈ [("methodName", Value.text name), ("status", status)],
      m.2.Writable := by
    intro hc m hm
    simp only [List.mem_cons, List.not_mem_nil, or_false] at hm
    rcases hm with rfl | rfl
    · exact Value.writable_text _
    · exact hstatus hc
  unfold invoked
  split
  · next hs =>
    rw [if_pos hs] at h
    refine sound_perform h (Act.writes_tell (fun _ => rfl) _ _) ?_ fun r' _ _ hr' _ =>
      sound_publish hr'
    intro r' e hr hr' hfails
    refine sound_breakLoop hr' rfl (fun hc => hfails ?_) e
    have hcalm := hr.calm_iff.mp hc
    exact Act.succeeds_tell hcalm.1 _ _ (hdetails hcalm)
  · next hs =>
    rw [if_neg hs] at h
    refine sound_perform h (Act.writes_tell (fun _ => rfl) _ _) ?_ fun r' _ _ hr' _ =>
      sound_endAttempt hr' rfl
    intro r' e hr hr' hfails
    refine sound_breakLoop hr' rfl (fun hc => hfails ?_) e
    have hcalm := hr.calm_iff.mp hc
    exact Act.succeeds_tell hcalm.1 _ _ (hdetails hcalm)

lemma sound_published (h : r.Free plan .sent) : r.published.Sound plan := by
  refine sound_perform h (Act.writes_tell (fun _ => rfl) _ _) ?_ fun r' _ _ hr' _ =>
    sound_endAttempt hr' rfl
  intro r' e hr hr' hfails
  refine sound_breakLoop hr' rfl (fun hc => hfails ?_) e
  refine Act.succeeds_tell (hr.calm_iff.mp hc).1 _ _ fun m hm => ?_
  rw [List.mem_singleton.mp hm]
  exact Value.writable_text _

lemma sound_turn (h : r.Free plan .between)
    (hs : r.coordinator.isAborted = true ∨ Spaced r.plan r.journal.entries r.journal.now) :
    r.turn.Sound plan := by
  unfold turn
  split
  · next ha =>
    refine sound_perform h (Act.writes_say (fun _ => rfl) _) ?_ fun r' _ hr hr' _ =>
      sound_leaveLoop hr' (by rw [hr.coordinator]; exact ha)
    intro r' e hr hr' hfails
    refine sound_breakLoop hr' rfl (fun hc => hfails ?_) e
    exact Act.succeeds_say (hr.calm_iff.mp hc).1 _ _
  · next ha =>
    exact sound_beginAttempt h (by simpa using ha) (hs.resolve_left ha)

end EdgeCaller.Sender.Run

import Mathlib.Tactic.Common
import EdgeCaller.Proofs.Sender.State
/-!
What a run does by itself.

A run that has come to a place and waits for nothing goes on until it is at rest again. For each of
its moves there is one lemma, which says from where the move leads to rest; the moves come in the
order in which they rely on one another, the last one first.
-/

namespace EdgeCaller.Sender.Run

variable {plan : Plan} {r : Run} {p q : Place} {e : Value} {s : Settlement}

/-! ### Events and acts -/

@[simp] lemma plan_note (event : Event) : (r.note event).plan = r.plan := rfl

lemma Stands.note (h : r.Stands plan p) {event : Event}
    (hl : Leads r.plan r.journal.entries r.journal.now r.coordinator.isAborted p event.mark q)
    (hab : event.mark.isAbort = false) (hlistens : q.listens = p.listens)
    (hcomplete : q.isComplete = p.isComplete) : (r.note event).Stands plan q := by
  refine ⟨?_, ?_, ?_, h.origin, ?_, h.due⟩
  · have hcons := h.history.cons (e := event) rfl hl
    rwa [hab, Bool.or_false] at hcons
  · rw [hlistens]; exact h.listening
  · rw [hcomplete]; exact h.latch
  · have habort : abortTime (r.note event).journal.entries = abortTime r.journal.entries := by
      rw [Run.note, Journal.entries_add, abortTime_cons, hab]; rfl
    rw [habort]
    exact h.grace

lemma calm_note (event : Event) : (r.note event).Calm ↔ r.Calm := by
  have hj := Journal.extends_add (P := fun _ => True) (e := event) trivial r.journal
  rw [Calm, Calm, Run.note, hj.undisturbed_iff]

lemma Free.note (h : r.Free plan p) {event : Event}
    (hl : Leads r.plan r.journal.entries r.journal.now r.coordinator.isAborted p event.mark q)
    (hab : event.mark.isAbort = false) (hlistens : q.listens = p.listens)
    (hcomplete : q.isComplete = p.isComplete) : (r.note event).Free plan q :=
  { h.toStands.note hl hab hlistens hcomplete with
    ready := h.ready
    drives := h.drives }

/-- A run that performs an act which only remarks goes on from the same place, whether or not the
act comes to its end. -/
lemma sound_perform {α : Type} {act : Act α} {fail : Run → Value → Run} {next : Run → α → Run}
    (h : r.Free plan p) (hw : act.Writes fun e => e.mark = .remark)
    (hfail : ∀ r' e, r.Remarked r' → r'.Free plan p → ¬ act.Succeeds r.journal →
      (fail r' e).Sound plan)
    (hnext : ∀ r' a, r.Remarked r' → r'.Free plan p → act.exec r.journal = (.ok a, r'.journal) →
      (next r' a).Sound plan) :
    (r.perform act fail next).Sound plan := by
  have hj := hw r.journal
  unfold perform
  rcases hact : act.exec r.journal with ⟨e | a, k⟩ <;> rw [hact] at hj
  · have hr : r.Remarked { r with journal := k } := ⟨rfl, hj, rfl, rfl, id⟩
    refine hfail _ e hr (hr.later.free h rfl) fun hs => ?_
    exact hs.ne_error hact
  · have hr : r.Remarked { r with journal := k } := ⟨rfl, hj, rfl, rfl, id⟩
    exact hnext _ a hr (hr.later.free h rfl) hact

lemma writes_crashDetails {P : Event → Prop} (e : Value) : (crashDetails e).Writes P := by
  unfold crashDetails
  refine Act.writes_bind (Act.writes_ofText _) fun words => ?_
  split
  · exact Act.writes_bind (Act.writes_ofText _) fun causeWords => Act.writes_pure _
  · exact Act.writes_pure _

/-! ### Ending -/

lemma crash_spec (r : Run) (e : Value) :
    r.Remarked (r.crash e) ∧ (r.crash e).phase = r.phase ∧ (r.crash e).ready = r.ready := by
  have hw : Act.Writes (fun e => e.mark = .remark)
      (do Act.tell .error "Direct method sender crashed" (← crashDetails e)) :=
    Act.writes_bind (writes_crashDetails e) fun _ => Act.writes_tell (fun _ => rfl) _ _
  have hj := hw r.journal
  unfold crash perform
  split
  · next k hact =>
    rw [hact] at hj
    have hr : r.Remarked { r with journal := k } := ⟨rfl, hj, rfl, rfl, id⟩
    exact ⟨hr.trans (remarked_exitWith _ 1), rfl, rfl⟩
  · next k hact =>
    rw [hact] at hj
    exact ⟨⟨rfl, hj, rfl, rfl, id⟩, rfl, rfl⟩

lemma finish_spec (r : Run) (s : Settlement) :
    r.Remarked (r.finish s) ∧ (r.finish s).phase = .ended s ∧ (r.finish s).ready = r.ready := by
  have hr : r.Remarked { r with phase := .ended s } := ⟨rfl, .refl _ _, rfl, rfl, id⟩
  cases hscope : r.plan.scope with
  | attempt =>
    simp only [finish, hscope]
    exact ⟨hr, trivial, trivial⟩
  | loop | sender =>
    simp only [finish, hscope]
    exact ⟨hr.trans (remarked_note _ rfl), rfl, rfl⟩
  | program =>
    cases s with
    | fulfilled a =>
      simp only [finish, hscope]
      exact ⟨hr.trans (remarked_exitWith _ 0), rfl, rfl⟩
    | rejected e =>
      simp only [finish, hscope]
      obtain ⟨hcrash, hphase, hready⟩ := crash_spec { r with phase := .ended (.rejected e) } e
      exact ⟨hr.trans hcrash, hphase, hready⟩

lemma sound_finish (h : r.Free plan p) (hends : r.Ends p s) : (r.finish s).Sound plan := by
  obtain ⟨hr, hphase, hready⟩ := r.finish_spec s
  exact .ended (hr.later.free h hready) hphase (hr.later.ends hends)

lemma sound_fail (h : r.Free plan p) (hends : r.Ends p (.rejected e)) : (r.fail e).Sound plan :=
  sound_finish h hends

/-! ### Waiting -/

/-- To await an answer changes neither where a run is nor what it has done. -/
lemma await_frame (r : Run) (reply : Option (Nat × Settlement)) :
    (r.await reply).phase = r.phase ∧ (r.await reply).journal = r.journal := by
  match reply with
  | none => exact ⟨rfl, rfl⟩
  | some (0, s) => exact ⟨rfl, rfl⟩
  | some (after + 1, s) => exact ⟨rfl, rfl⟩

lemma Stands.addDrive (h : r.Stands plan p) (wake : Alarm) (hw : wake.isGrace = false) {due : Nat}
    (hdue : r.journal.now ≤ due) : Stands plan { r with timers := r.timers.add due wake } p := by
  refine ⟨h.history, h.listening, h.latch, h.origin, ?_, fun he t ht => ?_⟩
  · rw [Timers.graces_add_drive hw]; exact h.grace
  · rcases List.mem_append.mp ht with ht | ht
    · exact h.due he t ht
    · rw [List.mem_singleton.mp ht]; exact hdue

lemma sound_await (h : r.Free plan p) (hat : At r.plan.link r.coordinator.isAborted r.phase p)
    {reply : Option (Nat × Settlement)} (hreply : r.plan.Replies r.phase reply) :
    (r.await reply).Sound plan := by
  match reply with
  | none => exact .awaiting h.toStands hat (.never h.ready h.drives hreply)
  | some (0, s) =>
    have hstands : Stands plan { r with ready := some s } p :=
      ⟨h.history, h.listening, h.latch, h.origin, h.grace, h.due⟩
    exact .awaiting hstands hat (.answered rfl h.drives ⟨0, hreply⟩)
  | some (after + 1, s) =>
    have hstands := h.toStands.addDrive (.answer s) rfl
      (Nat.le_add_right r.journal.now (after + 1))
    have hdrives : (r.timers.add (r.journal.now + (after + 1)) (.answer s)).drives =
        [⟨r.journal.now + (after + 1), .answer s⟩] := by
      rw [Timers.drives_add_drive rfl, h.drives, List.nil_append]
    exact .awaiting hstands hat (.coming h.ready hdrives ⟨after + 1, hreply⟩)

/-! ### Tearing down -/

lemma sound_beginClose (h : r.Free plan p) (hscope : r.plan.scope.tearsDown = true)
    (hp : p.mayLeave = true) {failure : Option Value}
    (hf : failure = none → r.coordinator.isAborted = true) : (r.beginClose failure).Sound plan := by
  have hr : r.Remarked { r with
      phase := .closing failure, tally := { r.tally with closes := r.tally.closes + 1 } } :=
    ⟨rfl, .refl _ _, rfl, rfl, id⟩
  have hlistens : Place.closing.listens = p.listens := by
    cases p <;> simp_all [Place.mayLeave, Place.listens]
  have hcomplete : Place.closing.isComplete = p.isComplete := by
    cases p <;> simp_all [Place.mayLeave, Place.isComplete]
  refine sound_await (p := .closing) ((hr.later.free h rfl).note ?_ ?_ hlistens hcomplete)
    (.closing hf) ⟨_, rfl⟩
  · cases hlink : r.plan.link <;> exact .close hscope hp
  · cases r.plan.link <;> rfl

/-- A loop that is left at a failure, which none of the replies that are foreseen can bring. -/
lemma sound_breakLoop (h : r.Free plan p) (hp : p.mayLeave = true) (hc : ¬ r.Calm) (e : Value) :
    (r.breakLoop e).Sound plan := by
  unfold breakLoop leaveLoop
  split
  -- A run that tears down closes its connection first.
  · next hscope => exact sound_beginClose h (by rw [hscope]; rfl) hp (by simp)
  · next hscope => exact sound_beginClose h (by rw [hscope]; rfl) hp (by simp)
  · next e hscope he =>
    exact sound_fail h (.broken (by rw [hscope]; rfl) hp hc)
  · next e hscope he =>
    exact sound_fail h (.broken (by rw [hscope]; rfl) hp hc)
  · next he => simp at he
  · next he => simp at he

lemma sound_leaveLoop (h : r.Free plan .between) (ha : r.coordinator.isAborted = true) :
    (r.leaveLoop none).Sound plan := by
  unfold leaveLoop
  split
  · next hscope => exact sound_beginClose h (by rw [hscope]; rfl) rfl fun _ => ha
  · next hscope => exact sound_beginClose h (by rw [hscope]; rfl) rfl fun _ => ha
  · next he => simp at he
  · next he => simp at he
  · next hscope _ => exact sound_finish h (.stopped (by rw [hscope]; rfl) ha)
  · next hscope _ => exact sound_finish h (.stopped (by rw [hscope]; rfl) ha)

/-! ### Aborting -/

lemma Stands.graces_eq_nil (h : r.Stands plan p) (ha : r.coordinator.isAborted = false) :
    r.timers.graces = [] := by
  rcases h.grace with hg | ⟨u, -, hu, -⟩
  · exact hg
  · have hsome := h.history.isSome_abortTime
    rw [hu, ha] at hsome
    simp at hsome

/-- `r'` is `r` at the moment of an abort, before anything follows from it. -/
structure Halted (r r' : Run) : Prop where
  plan : r'.plan = r.plan
  phase : r'.phase = r.phase
  ready : r'.ready = r.ready
  exit : r'.exit = r.exit
  timers : r'.timers = r.timers
  tally : r'.tally = r.tally
  journal : ∃ id, r'.journal = r.journal.add (.abort id)
  coordinator : ∃ reason, r'.coordinator = { r.coordinator with reason := some reason }

namespace Halted

variable {r' : Run}

lemma isAborted (h : r.Halted r') : r'.coordinator.isAborted = true := by
  obtain ⟨reason, hc⟩ := h.coordinator
  rw [hc]
  rfl

lemma extends_journal (h : r.Halted r') : r.journal.Extends (fun _ => True) r'.journal := by
  obtain ⟨id, hj⟩ := h.journal
  rw [hj]
  exact Journal.extends_add trivial r.journal

lemma stands (h : r.Halted r') (ha : r.coordinator.isAborted = false) (hr : r.Stands plan p) :
    r'.Stands plan p := by
  obtain ⟨id, hj⟩ := h.journal
  obtain ⟨reason, hc⟩ := h.coordinator
  refine ⟨?_, ?_, ?_, ?_, ?_, ?_⟩
  · have hcons : History r.plan (⟨r.journal.now, .abort id⟩ :: r.journal.entries) p
        (r.coordinator.isAborted || Mark.isAbort .abort) := hr.history.cons rfl (.abort ha)
    have habort : (r.coordinator.isAborted || Mark.isAbort .abort) = true := Bool.or_true _
    rw [habort] at hcons
    rw [h.plan, h.isAborted, hj]
    exact hcons
  · rw [h.plan, hc]; exact hr.listening
  · rw [hc]; exact hr.latch
  · rw [Origin, h.plan, hc]; exact hr.origin
  · rw [h.timers]; exact .inl (hr.graces_eq_nil ha)
  · rw [h.timers, h.exit, hj]; exact hr.due

end Halted

lemma endPause_eq (h : r.phase ≠ .pausing ∨ r.ready ≠ none) : r.endPause = r := by
  unfold endPause
  split
  · next hphase hready =>
    rcases h with h | h
    · exact absurd hphase h
    · exact absurd hready h
  · rfl

lemma abort_of_isAborted (ha : r.coordinator.isAborted = true) : r.abort = r := by
  unfold abort
  rw [if_pos ha]

lemma exists_halted_abort (ha : r.coordinator.isAborted = false) :
    ∃ r', r.Halted r' ∧ r.abort = r'.endPause := by
  unfold abort
  rw [if_neg (by simp [ha])]
  exact ⟨{ r with coordinator := { r.coordinator with reason := some "abort" } }.note
    (.abort r.coordinator.id), ⟨rfl, rfl, rfl, rfl, rfl, rfl, ⟨_, rfl⟩, ⟨_, rfl⟩⟩, rfl⟩

/-- `r'` is `r`, aborted or not. -/
structure Interrupted (r r' : Run) : Prop where
  plan : r'.plan = r.plan
  phase : r'.phase = r.phase
  ready : r'.ready = r.ready
  timers : r'.timers = r.timers
  tally : r'.tally = r.tally
  journal : r.journal.Extends (fun _ => True) r'.journal
  stands : ∀ plan p, r.Stands plan p → r'.Stands plan p

lemma interrupted_self (r : Run) : r.Interrupted r :=
  ⟨rfl, rfl, rfl, rfl, rfl, .refl _ _, fun _ _ hp => hp⟩

lemma interrupted_abort (h : r.phase ≠ .pausing ∨ r.ready ≠ none) : r.Interrupted r.abort := by
  rcases ha : r.coordinator.isAborted with _ | _
  · obtain ⟨r', hr, habort⟩ := exists_halted_abort ha
    rw [habort, endPause_eq (by rw [hr.phase, hr.ready]; exact h)]
    exact ⟨hr.plan, hr.phase, hr.ready, hr.timers, hr.tally, hr.extends_journal,
      fun _ p hp => hr.stands ha hp⟩
  · rw [abort_of_isAborted ha]
    exact interrupted_self r

lemma interrupted_abortAt (h : r.phase ≠ .pausing ∨ r.ready ≠ none) (due : Option Nat) (n : Nat) :
    r.Interrupted (r.abortAt due n) := by
  unfold abortAt
  split
  · exact interrupted_abort h
  · exact interrupted_self r

namespace Interrupted

variable {r' : Run}

lemma free (h : r.Interrupted r') (hr : r.Free plan p) : r'.Free plan p :=
  { h.stands plan p hr.toStands with
    ready := h.ready.trans hr.ready
    drives := by rw [h.timers]; exact hr.drives }

lemma calm_iff (h : r.Interrupted r') : r'.Calm ↔ r.Calm := by
  rw [Calm, Calm, h.plan, h.journal.undisturbed_iff]

end Interrupted

/-- A call during which the work may be aborted is awaited none the less. -/
lemma sound_abortAt_await (h : r.Free plan p) (hphase : r.phase ≠ .pausing)
    (hat : ∀ aborted, At r.plan.link aborted r.phase p) {reply : Option (Nat × Settlement)}
    (hreply : r.plan.Replies r.phase reply) {due : Option Nat} {n : Nat} :
    ((r.abortAt due n).await reply).Sound plan := by
  have hi := interrupted_abortAt (.inl hphase) due n
  refine sound_await (hi.free h) ?_ ?_
  · rw [hi.plan, hi.phase]; exact hat _
  · rw [hi.plan, hi.phase]; exact hreply

end EdgeCaller.Sender.Run

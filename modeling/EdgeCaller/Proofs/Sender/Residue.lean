import EdgeCaller.Proofs.Sender.Teardown
import EdgeCaller.Proofs.Sender.World
import EdgeCaller.Proofs.Shutdown.Requests
/-!
What a sender leaves behind.

A sender that has ended should have set its latch, removed its listeners and called off its grace
period, so that nothing can come of it any more, and a loop that failed should have passed its own
failure on. It is so exactly when the connection could be closed: a failure of closing ends the run
before any of this, and takes the place of the failure of the loop.
-/

namespace EdgeCaller.Sender.Run

variable {plan : Plan} {r r' : Run} {p : Place} {e : Value} {s : Settlement}

/-- A sender that has ended with `s` has left nothing behind. -/
structure LeavesNothing (plan : Plan) (r : Run) (s : Settlement) : Prop where
  latch : r.coordinator.latch.isSet = true
  listeners : ∀ signal, r.coordinator.listeners signal = 0
  timers : r.timers = []
  /-- Nothing happens any more; in particular the exit is not forced. -/
  quiet : ∀ r', Relation.ReflTransGen Step r r' → r'.journal.entries = r.journal.entries
  /-- If the connection was closed because of a failure of the loop, the run ended with it. -/
  ownFailure : ∀ r₁ e, Reached plan r₁ → r₁.phase = .closing (some e) →
    Relation.ReflTransGen Step r₁ r → s = .rejected e

/-! ### The failure of the loop -/

/-- A run whose loop failed with `e`. It may have ended since, and if its latch is set it has ended
with `e`. -/
def Owns (e : Value) (r : Run) : Prop :=
  r.phase = .closing (some e) ∨
    ∃ s, r.phase = .ended s ∧ (r.coordinator.latch.isSet = true → s = .rejected e)

lemma owns_finish (h : r.coordinator.latch.isSet = true → s = .rejected e) :
    (r.finish s).Owns e := by
  obtain ⟨hr, hphase, -⟩ := r.finish_spec s
  refine .inr ⟨s, hphase, fun hset => h ?_⟩
  rwa [hr.coordinator] at hset

lemma owns_closed (r : Run) (e : Value) : (r.closed (some e)).Owns e := owns_finish fun _ => rfl

lemma owns_resume (hphase : r.phase = .closing (some e))
    (hlatch : r.coordinator.latch.isSet = false) (s : Settlement) : (r.resume s).Owns e := by
  have hfail : ∀ (r' : Run) (e' : Value), r'.coordinator = r.coordinator → (r'.fail e').Owns e := by
    intro r' e' hc
    refine owns_finish fun hset => ?_
    rw [hc, hlatch] at hset
    simp at hset
  simp only [Run.resume, hphase]
  split
  · split
    · exact owns_closed _ e
    · exact hfail _ _ rfl
  · unfold perform
    split
    · exact owns_closed _ e
    · exact hfail _ _ rfl

lemma Sound.latch_of_closing (h : r.Sound plan) {failure : Option Value}
    (hphase : r.phase = .closing failure) : r.coordinator.latch.isSet = false := by
  cases h with
  | awaiting hstands hat =>
    rw [hphase] at hat
    cases hat with
    | closing => exact hstands.latch
  | pausing _ hpausing =>
    rw [hphase] at hpausing
    simp at hpausing
  | ended _ hended =>
    rw [hphase] at hended
    simp at hended

lemma Owns.step (h : r.Owns e) (hr : r.Sound plan) (hstep : Step r r') : r'.Owns e := by
  rcases hstep.undergoes_or_resume hr with hworld | ⟨s, hready, rfl⟩
  · rw [Owns, hworld.phase, hworld.latch]
    exact h
  · rcases h with hphase | ⟨s', hphase, -⟩
    · exact owns_resume (r := { r with ready := none }) hphase (hr.latch_of_closing hphase) s
    · obtain ⟨p, hfree, -⟩ := hr.exists_ends hphase
      rw [hfree.ready] at hready
      simp at hready

lemma Owns.steps (h : r.Owns e) (hr : Reached plan r) (hsteps : Relation.ReflTransGen Step r r') :
    r'.Owns e ∧ Reached plan r' := by
  induction hsteps with
  | refl => exact ⟨h, hr⟩
  | tail _ hstep ih => exact ⟨ih.1.step ih.2.sound hstep, ih.2.step hstep⟩

/-! ### After the end -/

structure Quiet (r : Run) : Prop where
  tearsDown : r.plan.scope.tearsDown = true
  deaf : r.coordinator.listening = false
  ready : r.ready = none
  timers : r.timers = []

/-- Nothing but time happens to it. -/
lemma Quiet.step_cases (h : r.Quiet) (hstep : Step r r') :
    r' = r ∨ ∃ time, r.journal.now ≤ time ∧ r' = r.moveTo time := by
  cases hstep with
  | goOn _ hready =>
    rw [h.ready] at hready
    simp at hready
  | fire =>
    refine .inl ?_
    unfold Run.fire
    rw [h.timers]
    rfl
  | wait htime => exact .inr ⟨_, htime, rfl⟩
  | signal name => exact .inl (by simp [deliver, hears, Coordinator.listeners, h.deaf])
  | abort hscope =>
    rw [h.tearsDown] at hscope
    simp at hscope

lemma Quiet.step (h : r.Quiet) (hstep : Step r r') :
    r'.Quiet ∧ r'.journal.entries = r.journal.entries := by
  rcases h.step_cases hstep with rfl | ⟨time, -, rfl⟩
  · exact ⟨h, rfl⟩
  · exact ⟨⟨h.tearsDown, h.deaf, h.ready, h.timers⟩, rfl⟩

lemma Quiet.steps (h : r.Quiet) (hsteps : Relation.ReflTransGen Step r r') :
    r'.Quiet ∧ r'.journal.entries = r.journal.entries := by
  induction hsteps with
  | refl => exact ⟨h, rfl⟩
  | tail _ hstep ih =>
    obtain ⟨hquiet, hentries⟩ := ih.1.step hstep
    exact ⟨hquiet, hentries.trans ih.2⟩

lemma Free.quiet (h : r.Free plan .detached) : r.Quiet := by
  have hdeaf : r.coordinator.listening = false := h.listening.trans (Bool.and_false _)
  exact ⟨h.history.tearsDown_of_isOuter rfl, hdeaf, h.ready,
    (h.timers_eq_drives hdeaf).trans h.drives⟩

/-! ### The end of a sender -/

/-- How a sender that was armed has ended: the connection would not close, or it was closed and the
listeners are removed. -/
lemma Sound.ended_cases (h : r.Sound plan) (hscope : r.plan.scope.tearsDown = true)
    (hlink : r.plan.link = .direct) (hu : r.journal.Undisturbed)
    (harmed : .armed ∈ marks r.journal.entries) (hs : r.phase = .ended s) :
    (∃ e, s = .rejected e ∧ r.Free plan (.closed (.rejected e))) ∨ r.Free plan .detached := by
  obtain ⟨p, hfree, hends⟩ := h.exists_ends hs
  have hunarmed := hfree.history.unarmed_of_mem harmed
  cases hends with
  | attempt hattempt =>
    rw [hattempt] at hscope
    simp [Scope.tearsDown] at hscope
  | stopped hdown | broken hdown =>
    rw [hdown] at hscope
    simp at hscope
  | unopened hone =>
    rw [hunarmed] at hone
    simp at hone
  | unstarted _ hdisturbed => exact absurd hu hdisturbed
  | unclosed hrejected =>
    obtain rfl := hrejected hlink
    exact .inl ⟨_, rfl, hfree⟩
  | failed | finished => exact .inr hfree

/-- A sender that could not close its connection has not set the latch, and it still listens; it
ends with the failure of closing, whatever the loop has failed with. -/
theorem Reached.residue (h : Reached plan r) (hscope : plan.scope.tearsDown = true)
    (hlink : plan.link = .direct) (hu : r.journal.Undisturbed)
    (harmed : .armed ∈ marks r.journal.entries) (hs : r.phase = .ended s)
    (hclose : ∀ a, .answered .close (.fulfilled a) ∉ marks r.journal.entries) :
    r.coordinator.latch.isSet = false ∧ r.coordinator.listening = true ∧
      ∃ e, s = .rejected e ∧ .answered .close (.rejected e) ∈ marks r.journal.entries := by
  rw [← h.sound.plan_eq] at hscope hlink
  rcases h.sound.ended_cases hscope hlink hu harmed hs with ⟨e, rfl, hfree⟩ | hfree
  · have hclosures : closures r.journal.entries = [.rejected e] := hfree.history.recalls
    refine ⟨hfree.latch, ?_, e, rfl, mem_closures.mp (by simp [hclosures])⟩
    rw [hfree.listening, hscope]
    rfl
  · obtain ⟨-, -, s', hwell, hclosures⟩ := hfree.history.recalls
    have hmem : .answered .close s' ∈ marks r.journal.entries :=
      mem_closures.mp (by simp [hclosures])
    cases s' with
    | fulfilled a => exact absurd hmem (hclose a)
    | rejected e =>
      have hfulfilled := hwell hlink
      simp [Settlement.isFulfilled] at hfulfilled

/-- A sender that was armed leaves nothing behind exactly if its connection was closed. -/
theorem Reached.leavesNothing_iff (h : Reached plan r) (hscope : plan.scope.tearsDown = true)
    (hlink : plan.link = .direct) (hu : r.journal.Undisturbed)
    (harmed : .armed ∈ marks r.journal.entries) (hs : r.phase = .ended s) :
    r.LeavesNothing plan s ↔ ∃ a, .answered .close (.fulfilled a) ∈ marks r.journal.entries := by
  constructor
  · intro hnothing
    by_contra hclose
    have hresidue := h.residue hscope hlink hu harmed hs fun a ha => hclose ⟨a, ha⟩
    rw [hnothing.latch] at hresidue
    simp at hresidue
  · rintro ⟨a, ha⟩
    rw [← h.sound.plan_eq] at hscope hlink
    rcases h.sound.ended_cases hscope hlink hu harmed hs with ⟨e, rfl, hfree⟩ | hfree
    -- Closing was answered once, so a failure of it leaves no room for another answer.
    · have hclosures : closures r.journal.entries = [.rejected e] := hfree.history.recalls
      have hmem := mem_closures.mpr ha
      simp [hclosures] at hmem
    · have hquiet := hfree.quiet
      refine
        { latch := hfree.latch
          listeners := fun signal => by simp [Coordinator.listeners, hquiet.deaf]
          timers := hquiet.timers
          quiet := fun r' hsteps => (hquiet.steps hsteps).2
          ownFailure := fun r₁ e hr₁ hphase hsteps => ?_ }
      have howns : r₁.Owns e := .inl hphase
      rcases (howns.steps hr₁ hsteps).1 with hclosing | ⟨s', hended, hown⟩
      · rw [hs] at hclosing
        simp at hclosing
      · obtain rfl := Phase.ended.inj (hs.symm.trans hended)
        exact hown hfree.latch

/-- It can be decided whether the connection is being closed without a failure of the loop. -/
instance (phase : Phase) : Decidable (phase = .closing none) :=
  match phase with
  | .closing none => isTrue rfl
  | .closing (some _) | .idle | .connecting | .dialing _ | .invoking _ | .publishing | .pausing
  | .ended _ => isFalse (by simp)

/-- It can be decided whether a run has ended with a code. -/
instance (phase : Phase) (n : Nat) : Decidable (phase = .ended (.fulfilled (.code n))) :=
  match phase with
  | .ended (.fulfilled (.code m)) =>
    if h : m = n then isTrue (by rw [h])
    else isFalse fun heq => h (Answer.code.inj (Settlement.fulfilled.inj (Phase.ended.inj heq)))
  | .ended (.fulfilled .nothing) | .ended (.fulfilled .connection)
  | .ended (.fulfilled (.response ..)) | .ended (.fulfilled (.outcome _))
  | .ended (.rejected _) | .idle | .connecting | .dialing _ | .invoking _ | .publishing | .pausing
  | .closing _ => isFalse (by simp)

/-- A signal during the first pause of a sender over a connection that closes. -/
theorem leavesNothing_untroubled :
    (signalled untroubled).LeavesNothing untroubled (.fulfilled (.code 0)) := by
  have hreached := reached_signalled untroubled
  have hundisturbed : (signalled untroubled).journal.Undisturbed :=
    ⟨by decide +kernel, by decide +kernel, by decide +kernel⟩
  have harmed := armed_mem_iff.mpr
    (show 0 < count Mark.isArmed (signalled untroubled).journal.entries by decide +kernel)
  have hended : (signalled untroubled).phase = .ended (.fulfilled (.code 0)) := by decide +kernel
  refine (hreached.leavesNothing_iff rfl rfl hundisturbed harmed hended).mpr ?_
  by_contra hclose
  obtain ⟨-, -, e, hrejected, -⟩ :=
    hreached.residue rfl rfl hundisturbed harmed hended (not_exists.mp hclose)
  exact Settlement.noConfusion hrejected

/-- If the grace period still lasts when a sender has ended without closing its connection, the exit
is forced at its end all the same. -/
theorem Reached.forced_after_end (h : Reached plan r) (hscope : plan.scope = .sender)
    (hlink : plan.link = .direct) (hu : r.journal.Undisturbed)
    (harmed : .armed ∈ marks r.journal.entries) (hs : r.phase = .ended s)
    (hclose : ∀ a, .answered .close (.fulfilled a) ∉ marks r.journal.entries)
    {t : Timer Alarm} (ht : t ∈ r.timers)
    (hdate : Calendar.inRange (r.journal.epoch + t.due) = true) :
    .forced ∈ marks r.fire.journal.entries := by
  have hdown : plan.scope.tearsDown = true := by rw [hscope]; rfl
  obtain ⟨hlatch, -, -⟩ := h.residue hdown hlink hu harmed hs hclose
  obtain ⟨p, hfree, -⟩ := h.sound.exists_ends hs
  obtain rfl := h.sound.plan_eq
  have hgraces : r.timers.graces = r.timers := Timers.graces_eq_self hfree.drives
  rw [← hgraces] at ht
  rcases hfree.grace with hnil | ⟨u, -, -, hgrace⟩
  · rw [hnil] at ht
    simp at ht
  · rw [hgrace, List.mem_singleton] at ht
    obtain rfl := ht
    have htimers := hgraces.symm.trans hgrace
    have hundisturbed : Journal.Undisturbed { r.journal with
        now := u + Timers.effectiveDelay r.plan.gracePeriod } := ⟨hu.fault, hu.epoch, hdate⟩
    obtain ⟨k, -, hended⟩ := Coordinator.exec_graceEnded hlatch hundisturbed
    have hfire : r.fire.journal = k.add (.forceExit r.coordinator.id) := by
      unfold Run.fire
      rw [htimers]
      simp only [Timers.next?, Run.moveTo, Run.wake, perform, hended, hscope]
      rfl
    rw [hfire]
    exact List.mem_cons_self

/-- A sender over a connection that will not close. -/
def unclosable : Plan where
  scope := .sender
  link := .direct
  script := { closes := [{ course := .fails (.text "close failed") 0 }] }
  target := ⟨"device", "module"⟩

example : count Mark.isForced (signalled unclosable).journal.entries = 0 ∧
    count Mark.isForced (signalled unclosable).fire.journal.entries = 1 := by decide +kernel

end EdgeCaller.Sender.Run

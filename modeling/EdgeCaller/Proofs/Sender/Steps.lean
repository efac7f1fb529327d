import Mathlib.Logic.Relation
import EdgeCaller.Proofs.Sender.Answers
import EdgeCaller.Proofs.Sender.Outside
/-!
Runs in the world around them.

A run takes a step when it goes on from an answer, when its next timer fires, when time passes, and
when a signal or an abort reaches it; between any two steps it is at rest. The steps may come in any
order, so that a signal can come before a run has gone on from an answer that is ready. What is
shown of the runs that are `Reached` holds of everything that a run can come to.
-/

namespace EdgeCaller.Sender.Run

variable {plan : Plan} {r r' : Run}

/-- A step of a run in the world around it. -/
inductive Step (r : Run) : Run → Prop where
  /-- The run goes on from an answer. -/
  | goOn {s} : r.exit = none → r.ready = some s → Step r ({ r with ready := none }.resume s)
  | fire : r.exit = none → Step r r.fire
  /-- Time passes, but not beyond the next timer. -/
  | wait {time} : r.journal.now ≤ time → (r.exit = none → ∀ t ∈ r.timers, time ≤ t.due) →
      Step r (r.moveTo time)
  | signal (name) : Step r (r.deliver name)
  /-- A loop is aborted from outside. -/
  | abort : r.plan.scope.tearsDown = false → Step r r.abort

/-- How a run can begin. A loop may be aborted before it does. -/
inductive Begins (plan : Plan) : Run → Prop where
  | fresh {console epoch} : Begins plan (create plan (.start console epoch)).begin
  | aborted {console epoch} : plan.scope = .loop →
      Begins plan (create plan (.start console epoch)).abort.begin

def Reached (plan : Plan) (r : Run) : Prop :=
  ∃ r₀, Begins plan r₀ ∧ Relation.ReflTransGen Step r₀ r

theorem Step.sound (h : Step r r') (hr : r.Sound plan) : r'.Sound plan := by
  cases h with
  | goOn _ hready => exact hr.resume hready
  | fire hexit => exact hr.fire hexit
  | wait htime hdue => exact hr.moveTo htime hdue
  | signal name => exact hr.deliver name
  | abort => exact hr.abort

lemma free_create (plan : Plan) (console : Console) (epoch : Int) :
    (create plan (.start console epoch)).Free plan (.start plan) := by
  refine ⟨⟨.nil, ?_, ?_, ⟨rfl, rfl, rfl, rfl⟩, .inl rfl, fun _ t ht => by simp [create] at ht⟩,
    rfl, rfl⟩
  · unfold Place.start
    split
    · exact (Bool.and_false _).symm
    · next hscope =>
      rw [Bool.not_eq_true] at hscope
      exact (Bool.and_eq_false_imp.mpr fun h => absurd (hscope.symm.trans h) (by simp)).symm
  · unfold Place.start
    split <;> rfl

lemma sound_begin (h : r.Free plan (.start plan)) (hentries : .dial ∉ marks r.journal.entries)
    (hend : lastEnd r.journal.entries = none)
    (ha : r.plan.scope = .attempt → r.coordinator.isAborted = false) : r.begin.Sound plan := by
  have hplan : r.plan = plan := h.origin.1
  have hspaced : Spaced r.plan r.journal.entries r.journal.now := by
    intro _ u hu
    rw [hend] at hu
    simp at hu
  unfold Run.begin
  split
  · next hscope =>
    have hstart : Place.start plan = .between := by
      rw [← hplan, Place.start, hscope]; rfl
    rw [hstart] at h
    exact sound_beginAttempt h (ha hscope) hspaced
  · next hscope =>
    have hstart : Place.start plan = .between := by
      rw [← hplan, Place.start, hscope]; rfl
    rw [hstart] at h
    exact sound_turn h (.inr hspaced)
  all_goals
    next hscope =>
    have hstart : Place.start plan = .opening := by
      rw [← hplan, Place.start, hscope]; rfl
    rw [hstart] at h
    refine sound_perform h (writes_greet (fun _ _ => rfl) _) ?_ fun r' _ _ hr' _ => sound_connect hr'
    intro r' e hr hr' _
    refine sound_fail hr' (.unopened rfl fun _ hdial => ?_)
    exact absurd (hr.mem_marks Mark.noConfusion hdial) hentries

lemma Begins.sound (h : Begins plan r) : r.Sound plan := by
  cases h with
  | @fresh console epoch =>
    exact sound_begin (free_create plan console epoch) (by simp [create, Journal.start, marks]) rfl
      fun _ => rfl
  | @aborted console epoch hscope =>
    have hi : (create plan (.start console epoch)).Interrupted _ :=
      interrupted_abort (.inl Phase.noConfusion)
    refine sound_begin (hi.free (free_create plan console epoch)) ?_ ?_ fun hattempt => ?_
    · simp [create, Journal.start, marks, Run.abort, Coordinator.isAborted, endPause, Run.note,
        Event.mark]
    · rfl
    · rw [hi.plan] at hattempt
      exact absurd (hscope.symm.trans hattempt) (by simp)

/-- Whatever a run has come to, it is at rest there. -/
theorem Reached.sound (h : Reached plan r) : r.Sound plan := by
  obtain ⟨r₀, hbegins, hsteps⟩ := h
  induction hsteps with
  | refl => exact hbegins.sound
  | tail _ hstep ih => exact hstep.sound ih

lemma Reached.step (h : Reached plan r) (hstep : Step r r') : Reached plan r' := by
  obtain ⟨r₀, hbegins, hsteps⟩ := h
  exact ⟨r₀, hbegins, hsteps.tail hstep⟩

lemma Reached.drainFor (h : Reached plan r) (fuel : Nat) : Reached plan (r.drainFor fuel) := by
  induction fuel generalizing r with
  | zero => exact h
  | succ fuel ih =>
    unfold Run.drainFor
    split
    · next hexit hready => exact ih (h.step (.goOn hexit hready))
    · exact h

/-- Going on as far as it can, a run comes only to what it can come to step by step. -/
theorem Reached.drain (h : Reached plan r) : Reached plan r.drain := h.drainFor _

lemma Reached.begin (plan : Plan) (console : Console) (epoch : Int) :
    Reached plan (create plan (.start console epoch)).begin :=
  ⟨_, .fresh, .refl⟩

end EdgeCaller.Sender.Run

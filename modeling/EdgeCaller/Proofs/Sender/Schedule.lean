import EdgeCaller.Proofs.Sender.Steps
/-!
Runs under a schedule.

Which step a run takes next is up to the world around it. A schedule names the steps in a row, so
that two runs can be put under the same one. A move that a run cannot make leaves it as it is; all
else is a step, and every step is a move.
-/

namespace EdgeCaller.Sender.Run

/-- What may happen to a run next. -/
inductive Move where
  /-- The run goes on from an answer. -/
  | goOn
  | fire
  /-- Time passes, up to a moment. -/
  | wait (time : Nat)
  | signal (name : String)
  | abort
  deriving DecidableEq, Repr

/-- Makes a move, if it can be made. -/
def make (r : Run) : Move → Run
  | .goOn =>
    match r.exit, r.ready with
    | none, some s => { r with ready := none }.resume s
    | _, _ => r
  | .fire => if r.exit = none then r.fire else r
  | .wait time =>
    if r.journal.now ≤ time ∧ (r.exit = none → ∀ t ∈ r.timers, time ≤ t.due) then r.moveTo time
    else r
  | .signal name => r.deliver name
  | .abort => if r.plan.scope.tearsDown = false then r.abort else r

/-- Makes the moves of a schedule, in which the last one stands first. -/
def follow (r : Run) : List Move → Run
  | [] => r
  | m :: past => (r.follow past).make m

/-- A run before any step of the world around it. A loop may be aborted before it begins. -/
def launch (plan : Plan) (journal : Journal) (aborted : Bool) : Run :=
  (if aborted ∧ plan.scope = .loop then (create plan journal).abort else create plan journal).begin

variable {plan : Plan} {r r' : Run}

lemma make_cases (r : Run) (m : Move) : r.make m = r ∨ Step r (r.make m) := by
  cases m with
  | goOn =>
    simp only [make]
    split
    · next hexit hready => exact .inr (.goOn hexit hready)
    · exact .inl rfl
  | fire =>
    simp only [make]
    split
    · next hexit => exact .inr (.fire hexit)
    · exact .inl rfl
  | wait time =>
    simp only [make]
    split
    · next h => exact .inr (.wait h.1 h.2)
    · exact .inl rfl
  | signal name => exact .inr (.signal name)
  | abort =>
    simp only [make]
    split
    · next hscope => exact .inr (.abort hscope)
    · exact .inl rfl

/-- Every step is a move. -/
lemma Step.exists_make (h : Step r r') : ∃ m, r' = r.make m := by
  cases h with
  | goOn hexit hready => exact ⟨.goOn, by simp only [make, hexit, hready]⟩
  | fire hexit => exact ⟨.fire, (if_pos hexit).symm⟩
  | @wait time htime hdue => exact ⟨.wait time, (if_pos ⟨htime, hdue⟩).symm⟩
  | signal name => exact ⟨.signal name, rfl⟩
  | abort hscope => exact ⟨.abort, (if_pos hscope).symm⟩

lemma begins_launch (plan : Plan) (console : Console) (epoch : Int) (aborted : Bool) :
    Begins plan (launch plan (.start console epoch) aborted) := by
  unfold launch
  split
  · next h => exact .aborted h.2
  · exact .fresh

lemma reached_follow (hr : Reached plan r) (moves : List Move) : Reached plan (r.follow moves) := by
  induction moves with
  | nil => exact hr
  | cons m past ih =>
    rcases (r.follow past).make_cases m with hsame | hstep
    · rw [follow, hsame]
      exact ih
    · exact ih.step hstep

/-- What a run can come to, it comes to under some schedule. -/
theorem reached_iff_follow : Reached plan r ↔ ∃ console epoch aborted moves,
    r = (launch plan (.start console epoch) aborted).follow moves := by
  constructor
  · rintro ⟨r₀, hbegins, hsteps⟩
    induction hsteps with
    | refl =>
      cases hbegins with
      | @fresh console epoch => exact ⟨console, epoch, false, [], by simp [launch, follow]⟩
      | @aborted console epoch hscope =>
        exact ⟨console, epoch, true, [], by simp [launch, follow, hscope]⟩
    | tail _ hstep ih =>
      obtain ⟨console, epoch, aborted, moves, rfl⟩ := ih
      obtain ⟨m, rfl⟩ := hstep.exists_make
      exact ⟨console, epoch, aborted, m :: moves, rfl⟩
  · rintro ⟨console, epoch, aborted, moves, rfl⟩
    exact reached_follow ⟨_, begins_launch plan console epoch aborted, .refl⟩ moves

end EdgeCaller.Sender.Run

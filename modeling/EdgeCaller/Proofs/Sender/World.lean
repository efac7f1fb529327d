import EdgeCaller.Proofs.Sender.Steps
/-!
What the world does to a run.

Between two of its own moves a run is only kept waiting: whatever comes from outside leaves it where
it is, with its latch as it is, and adds lines, an abort or a forced exit to what has happened. No
call is answered by it.
-/

namespace EdgeCaller.Sender

/-- Whether an event of this mark can come from outside. -/
def Mark.isForeign : Mark → Bool
  | remark | abort | forced => true
  | _ => false

namespace Run

/-- `r'` is `r` after something that came from outside. -/
structure Undergoes (r r' : Run) : Prop where
  plan : r'.plan = r.plan
  phase : r'.phase = r.phase
  latch : r'.coordinator.latch = r.coordinator.latch
  entries : ∃ new : List Entry, r'.journal.entries = new ++ r.journal.entries ∧
    ∀ x ∈ new, x.event.mark.isForeign = true
  threshold : r'.journal.console.threshold = r.journal.console.threshold
  undisturbed : r'.journal.Undisturbed → r.journal.Undisturbed

variable {plan : Plan} {r r' r'' : Run}

namespace Undergoes

lemma trans (h : r.Undergoes r') (h' : r'.Undergoes r'') : r.Undergoes r'' := by
  obtain ⟨new, hnew, hforeign⟩ := h.entries
  obtain ⟨new', hnew', hforeign'⟩ := h'.entries
  exact
    { plan := h'.plan.trans h.plan
      phase := h'.phase.trans h.phase
      latch := h'.latch.trans h.latch
      entries := by
        refine ⟨new' ++ new, by rw [hnew', hnew, List.append_assoc], fun x hx => ?_⟩
        rcases List.mem_append.mp hx with hx | hx
        · exact hforeign' x hx
        · exact hforeign x hx
      threshold := h'.threshold.trans h.threshold
      undisturbed := fun hu => h.undisturbed (h'.undisturbed hu) }

/-- Timers and what is ready do not matter. -/
lemma set (h : r.Undergoes r') (hplan : r''.plan = r'.plan) (hphase : r''.phase = r'.phase)
    (hlatch : r''.coordinator.latch = r'.coordinator.latch) (hj : r''.journal = r'.journal) :
    r.Undergoes r'' :=
  h.trans ⟨hplan, hphase, hlatch, ⟨[], by rw [hj]; rfl, by simp⟩, by rw [hj], by rw [hj]; exact id⟩

lemma of_extends (hplan : r'.plan = r.plan) (hphase : r'.phase = r.phase)
    (hlatch : r'.coordinator.latch = r.coordinator.latch)
    (hj : r.journal.Extends (fun e => e.mark.isForeign = true) r'.journal) : r.Undergoes r' := by
  obtain ⟨new, hnew, hforeign⟩ := hj.entries
  refine ⟨hplan, hphase, hlatch, ⟨_, hnew, fun x hx => ?_⟩, hj.threshold, hj.undisturbed_iff.mp⟩
  obtain ⟨e, he, rfl⟩ := List.mem_map.mp hx
  exact hforeign e he

end Undergoes

lemma undergoes_self (r : Run) : r.Undergoes r := .of_extends rfl rfl rfl (.refl _ _)

lemma undergoes_note (r : Run) {e : Event} (he : e.mark.isForeign = true) :
    r.Undergoes (r.note e) :=
  .of_extends rfl rfl rfl (Journal.extends_add (P := fun e => e.mark.isForeign = true) he r.journal)

lemma Remarked.undergoes (h : r.Remarked r') (hphase : r'.phase = r.phase) : r.Undergoes r' :=
  .of_extends h.plan hphase (by rw [h.coordinator]) (h.journal.mono fun e he => by rw [he]; rfl)

lemma Halted.undergoes (h : r.Halted r') : r.Undergoes r' := by
  obtain ⟨id, hj⟩ := h.journal
  obtain ⟨reason, hc⟩ := h.coordinator
  refine .of_extends h.plan h.phase (by rw [hc]) ?_
  rw [hj]
  exact Journal.extends_add (P := fun e => e.mark.isForeign = true) rfl r.journal

lemma Undergoes.endPause (h : r.Undergoes r') : r.Undergoes r'.endPause := by
  obtain ⟨hplan, hj, hc, -⟩ := r'.endPause_frame
  refine h.set hplan ?_ (by rw [hc]) hj
  unfold Run.endPause
  split <;> rfl

lemma undergoes_moveTo {time : Nat} (htime : r.journal.now ≤ time) : r.Undergoes (r.moveTo time) :=
  ⟨rfl, rfl, rfl, ⟨[], rfl, by simp⟩, rfl, undisturbed_earlier htime⟩

lemma undergoes_wake (r : Run) (wake : Alarm) : r.Undergoes (r.wake wake) := by
  cases wake with
  | pause | answer s => exact r.undergoes_self.set rfl rfl rfl rfl
  | grace =>
    obtain ⟨k, hk, hcases⟩ := Coordinator.exec_graceEnded_cases
      (P := fun e => e.mark.isForeign = true) (fun _ _ => rfl) r.coordinator r.journal
    have hended : r.Undergoes { r with journal := k } := .of_extends rfl rfl rfl hk
    unfold Run.wake perform
    rcases hcases with ⟨e, hact⟩ | ⟨-, hact⟩ | ⟨-, hact⟩ <;> rw [hact]
    · exact .of_extends rfl rfl rfl hk
    · exact hended
    · refine hended.trans ?_
      cases hscope : r.plan.scope with
      | program =>
        simp only [hscope, if_true]
        exact (remarked_exitWith { r with journal := k } 1).undergoes rfl
      | attempt | loop | sender =>
        simp only [hscope, if_true]
        exact undergoes_note { r with journal := k } rfl

lemma undergoes_fire (h : r.Sound plan) (hexit : r.exit = none) : r.Undergoes r.fire := by
  unfold Run.fire
  split
  · exact r.undergoes_self
  · next t rest hnext =>
    obtain ⟨p, hp⟩ := h.exists_stands
    have htaken : r.Undergoes { r with timers := rest } := r.undergoes_self.set rfl rfl rfl rfl
    exact (htaken.trans (undergoes_moveTo (hp.due_next hexit hnext).1)).trans (undergoes_wake _ _)

lemma undergoes_abort (r : Run) : r.Undergoes r.abort := by
  rcases ha : r.coordinator.isAborted with _ | _
  · obtain ⟨r', hr, habort⟩ := exists_halted_abort ha
    rw [habort]
    exact hr.undergoes.endPause
  · rw [abort_of_isAborted ha]
    exact r.undergoes_self

lemma undergoes_request (r : Run) (reason : String) : r.Undergoes (r.request reason) := by
  rcases ha : r.coordinator.isAborted with _ | _
  · obtain ⟨r₁, hr, hphase, -, hrequest⟩ := request_cases ha reason
    have hr₁ := hr.undergoes hphase
    rcases hrequest with hrequest | ⟨r₂, hhalted, hrequest | hrequest⟩
    · rw [hrequest]
      exact hr₁
    · rw [hrequest]
      exact (hr₁.trans hhalted.undergoes).endPause
    · rw [hrequest]
      exact (hr₁.trans hhalted.undergoes).endPause.set rfl rfl rfl rfl
  · obtain ⟨hr, hphase, -⟩ := request_of_isAborted ha reason
    exact hr.undergoes hphase

lemma undergoes_deliver (r : Run) (signal : String) : r.Undergoes (r.deliver signal) := by
  unfold Run.deliver
  split
  · exact undergoes_request r signal
  · exact r.undergoes_self

/-- Only by going on from an answer does a run move on. -/
lemma Step.undergoes_or_resume (h : Step r r') (hr : r.Sound plan) :
    r.Undergoes r' ∨ ∃ s, r.ready = some s ∧ r' = { r with ready := none }.resume s := by
  cases h with
  | @goOn s _ hready => exact .inr ⟨s, hready, rfl⟩
  | fire hexit => exact .inl (undergoes_fire hr hexit)
  | wait htime => exact .inl (undergoes_moveTo htime)
  | signal name => exact .inl (undergoes_deliver r name)
  | abort => exact .inl (undergoes_abort r)

end Run

end EdgeCaller.Sender

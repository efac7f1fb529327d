import EdgeCaller.Proofs.Sender.Frame
import EdgeCaller.Proofs.Sender.World
/-!
What ends a loop.

The standard policy logs what an attempt has failed with, and the loop goes on. But what is to be
logged may not have a text, and a status may be one that no line can show: then the logging fails
itself, and the loop with it. There is nothing else that a loop fails at, and without a failure it
ends only after an abort.
-/

namespace EdgeCaller.Sender

/-- An answer can be logged: what it failed with has a report that a line can show, and so has a
status that is not that of success, if such lines are printed at all. -/
def Mark.Loggable (t : Threshold) : Mark → Prop
  | .answered .invoke (.rejected e) | .answered .publish (.rejected e) =>
    ∃ words, e.report = .ok words ∧ words.Shown "error"
  | .answered .invoke (.fulfilled (.response status _)) =>
    EdgeCaller.isSuccess status = true ∨ t.admits .warn = false ∨ status.Shown "status"
  | _ => True

namespace Run

/-- A run has ended with a failure. -/
def Fails (r : Run) : Prop := ∃ e, r.phase = .ended (.rejected e)

variable {plan : Plan} {r r' : Run} {e : Value} {s : Settlement}

lemma not_fails_of_phase {phase : Phase} (h : r.phase = phase)
    (hphase : ∀ e, phase ≠ .ended (.rejected e)) : ¬ r.Fails :=
  fun ⟨e, he⟩ => hphase e (h.symm.trans he)

/-! ### The moves of a loop -/

lemma fails_finish_iff (r : Run) (s : Settlement) :
    (r.finish s).Fails ↔ ∃ e, s = .rejected e := by
  obtain ⟨-, hphase, -⟩ := r.finish_spec s
  simp [Fails, hphase]

lemma fails_breakLoop (hscope : r.plan.scope = .loop) (e : Value) : (r.breakLoop e).Fails := by
  simp only [breakLoop, leaveLoop, hscope]
  exact (fails_finish_iff r _).mpr ⟨e, rfl⟩

/-- A loop fails at an act exactly if the act fails. -/
lemma fails_perform_iff {α : Type} {act : Act α} {next : Run → α → Run}
    (hscope : r.plan.scope = .loop)
    (hnext : ∀ r' a, r'.plan = r.plan → r'.phase = r.phase → ¬ (next r' a).Fails) :
    (r.perform act breakLoop next).Fails ↔ ¬ act.Succeeds r.journal := by
  unfold perform
  rcases hact : act.exec r.journal with ⟨e | a, k⟩
  · exact iff_of_true (fails_breakLoop (r := { r with journal := k }) hscope e) fun hs =>
      hs.ne_error hact
  · exact iff_of_false (hnext _ _ rfl rfl) fun hs => hs ⟨a, k, hact⟩

lemma phase_abortAt (r : Run) (due : Option Nat) (n : Nat) : (r.abortAt due n).phase = r.phase := by
  unfold abortAt
  split
  · exact (undergoes_abort r).phase
  · rfl

lemma phase_pause (r : Run) : r.pause.phase = .pausing := by
  cases hpace : r.plan.pace with
  | timed =>
    simp only [pause, hpace]
    split <;> rfl
  | immediate =>
    simp only [pause, hpace]
    exact phase_abortAt _ _ _

lemma not_fails_endAttempt (hscope : r.plan.scope = .loop) (o : Outcome) :
    ¬ (r.endAttempt o).Fails := by
  simp only [endAttempt, hscope, note]
  exact not_fails_of_phase (phase_pause _) fun _ => Phase.noConfusion

lemma not_fails_invoke (r : Run) : ¬ r.invoke.Fails := by
  have hphase : ∃ name, r.invoke.phase = .invoking name :=
    ⟨_, (await_frame _ _).1.trans (phase_abortAt _ _ _)⟩
  obtain ⟨name, hphase⟩ := hphase
  exact not_fails_of_phase hphase fun _ => Phase.noConfusion

lemma not_fails_publish (r : Run) : ¬ r.publish.Fails := by
  have hphase : r.publish.phase = .publishing :=
    (await_frame _ _).1.trans (phase_abortAt _ _ _)
  exact not_fails_of_phase hphase fun _ => Phase.noConfusion

lemma not_fails_turn (hscope : r.plan.scope = .loop) (hu : r.journal.Undisturbed) :
    ¬ r.turn.Fails := by
  unfold turn
  split
  · refine (fails_perform_iff hscope fun r' _ hplan _ => ?_).not.mpr ?_
    · simp [leaveLoop, hplan, hscope, fails_finish_iff]
    · exact not_not_intro (Act.succeeds_say hu _ _)
  · unfold beginAttempt
    have hbegan : (r.note .attemptBegan).journal.Undisturbed := ⟨hu.fault, hu.epoch, hu.now⟩
    refine (fails_perform_iff (r := r.note .attemptBegan) hscope fun r' _ _ _ =>
      not_fails_invoke r').not.mpr ?_
    refine not_not_intro (Act.succeeds_tell hbegan _ _ fun m hm => ?_)
    simp only [List.mem_cons, List.not_mem_nil, or_false] at hm
    rcases hm with rfl | rfl
    · exact Value.writable_text _
    · exact Value.writable_text _

lemma not_fails_published (hscope : r.plan.scope = .loop) (hu : r.journal.Undisturbed) :
    ¬ r.published.Fails := by
  refine (fails_perform_iff hscope fun r' _ hplan _ => not_fails_endAttempt ?_ _).not.mpr ?_
  · rw [hplan, hscope]
  · refine not_not_intro (Act.succeeds_tell hu _ _ fun m hm => ?_)
    rw [List.mem_singleton.mp hm]
    exact Value.writable_text _

/-- A status fails a loop exactly if the line about it fails. -/
lemma fails_invoked_iff (hscope : r.plan.scope = .loop) (hu : r.journal.Undisturbed)
    (name : String) (status : Value) : (r.invoked (.text name) status).Fails ↔
      ¬ (isSuccess status = true ∨ r.journal.console.threshold.admits .warn = false ∨
        status.Shown "status") := by
  unfold invoked
  split
  · next hs =>
    have hnumber : status.Writable := by
      cases status with
      | number x => exact Value.writable_number x
      | _ => simp [isSuccess, Value.isNumber] at hs
    rw [fails_perform_iff hscope fun r' _ _ _ => not_fails_publish r']
    refine iff_of_false (not_not_intro (Act.succeeds_tell hu _ _ fun m hm => ?_))
      (not_not_intro (.inl hs))
    simp only [List.mem_cons, List.not_mem_nil, or_false] at hm
    rcases hm with rfl | rfl
    · exact Value.writable_text _
    · exact hnumber
  · next hs =>
    have hname := (Value.writable_text name).shown "methodName"
    rw [fails_perform_iff hscope fun r' _ hplan _ => not_fails_endAttempt (by rw [hplan, hscope]) _,
      Act.succeeds_tell_iff hu]
    cases r.journal.console.threshold.admits .warn <;> simp [hs, hname]

/-- A failure fails a loop exactly if it cannot be logged. -/
lemma fails_failAttempt_iff (hscope : r.plan.scope = .loop)
    (hpolicy : r.plan.policy = .logAndContinue) (hu : r.journal.Undisturbed) (stage : Stage)
    (e : Value) : (r.failAttempt stage e).Fails ↔
      ¬ ∃ words, e.report = .ok words ∧ words.Shown "error" := by
  have hasked : r.Proceeds (({ r with consults := r.consults + 1 }.note
      (.consulted stage e)).abortAt r.plan.abortOnConsult (r.consults + 1)) := by
    have hset : r.Proceeds { r with consults := r.consults + 1 } :=
      r.proceeds_self.set rfl rfl rfl rfl rfl rfl
    exact (hset.note rfl).abortAt (fun hunprompted => hunprompted.consult) _
  have hu' := hasked.journal.undisturbed_iff.mpr hu
  unfold failAttempt
  rw [fails_perform_iff (by rw [hasked.plan]; exact hscope) fun r' _ hplan _ =>
    not_fails_endAttempt (by rw [hplan, hasked.plan, hscope]) _, hasked.plan, hpolicy]
  refine not_congr ?_
  cases hreport : e.report with
  | error u => simp [Policy.consult, hreport, Act.ofText, Act.Succeeds]
  | ok words =>
    have htell : (Act.tell .error (failureMessage stage) [("error", words)]).Succeeds _ ↔ _ :=
      Act.succeeds_tell_iff hu' .error (failureMessage stage)
    simpa [Policy.consult, hreport, Act.ofText, Act.Succeeds, Act.exec_bind] using htell

/-! ### Any number of steps -/

/-- An answer that could not be logged is among what has happened. -/
def HasUnloggable (r : Run) : Prop :=
  ∃ m ∈ marks r.journal.entries, ¬ m.Loggable r.journal.console.threshold

lemma hasUnloggable_append {new : List Entry} (hnew : r'.journal.entries = new ++ r.journal.entries)
    (hthreshold : r'.journal.console.threshold = r.journal.console.threshold)
    (hloggable : ∀ x ∈ new, ∀ t, x.event.mark.Loggable t) :
    r'.HasUnloggable ↔ r.HasUnloggable := by
  have hfresh : ∀ m ∈ marks new, m.Loggable r.journal.console.threshold := by
    intro m hm
    obtain ⟨x, hx, rfl⟩ := List.mem_map.mp hm
    exact hloggable x hx _
  rw [HasUnloggable, HasUnloggable, hthreshold, hnew, marks, List.map_append]
  constructor
  · rintro ⟨m, hm, hnot⟩
    rcases List.mem_append.mp hm with hm | hm
    · exact absurd (hfresh m hm) hnot
    · exact ⟨m, hm, hnot⟩
  · rintro ⟨m, hm, hnot⟩
    exact ⟨m, List.mem_append_right _ hm, hnot⟩

lemma Proceeds.hasUnloggable_iff (h : r.Proceeds r') : r'.HasUnloggable ↔ r.HasUnloggable := by
  obtain ⟨new, hnew, hallowed⟩ := h.journal.entries
  refine hasUnloggable_append hnew h.journal.threshold fun x hx t => ?_
  obtain ⟨e, he, rfl⟩ := List.mem_map.mp hx
  rcases hallowed e he with hown | ⟨habort, -⟩
  · cases hm : e.mark <;> simp_all [Mark.isOwn, Mark.Loggable]
  · simp [habort, Mark.Loggable]

lemma Undergoes.hasUnloggable_iff (h : r.Undergoes r') : r'.HasUnloggable ↔ r.HasUnloggable := by
  obtain ⟨new, hnew, hforeign⟩ := h.entries
  refine hasUnloggable_append hnew h.threshold fun x hx t => ?_
  have hx := hforeign x hx
  cases hm : x.event.mark <;> simp_all [Mark.isForeign, Mark.Loggable]

lemma hasUnloggable_note (h : ¬ r.HasUnloggable) (e : Event) :
    (r.note e).HasUnloggable ↔ ¬ e.mark.Loggable r.journal.console.threshold := by
  constructor
  · rintro ⟨m, hm, hnot⟩
    rcases List.mem_cons.mp hm with rfl | hm
    · exact hnot
    · exact absurd ⟨m, hm, hnot⟩ h
  · exact fun hnot => ⟨e.mark, List.mem_cons_self, hnot⟩

/-- What a loop goes on from: the answer to a call, or the end of a pause. -/
def GoesOnFrom (r : Run) (s : Settlement) : Prop :=
  (∃ name, r.phase = .invoking (.text name) ∧
    ∀ a, s = .fulfilled a → ∃ status payload, a = .response status payload) ∨
  r.phase = .publishing ∨ r.phase = .pausing

lemma Sound.goesOnFrom (h : r.Sound plan) (hscope : plan.scope = .loop)
    (hready : r.ready = some s) : r.GoesOnFrom s := by
  have hinner : ∀ p, r.Stands plan p → p.isOuter = false := by
    intro p hp
    cases hp' : p.isOuter with
    | false => rfl
    | true =>
      have hdown := hp.history.tearsDown_of_isOuter hp'
      rw [h.plan_eq, hscope] at hdown
      simp [Scope.tearsDown] at hdown
  cases h with
  | @awaiting p hstands hat hawaits =>
    cases hawaits with
    | never hnone => simp [hready] at hnone
    | coming hnone => simp [hready] at hnone
    | answered hsome _ hf =>
      obtain rfl := Option.some.inj (hready.symm.trans hsome)
      have hp := hinner p hstands
      rw [GoesOnFrom]
      generalize r.phase = phase at hat hf
      cases hat with
      | connecting | creating | opening | discarding | closing => simp [Place.isOuter] at hp
      | @invoking name =>
        refine .inl ⟨name, rfl, fun a ha => ?_⟩
        rw [ha] at hf
        obtain ⟨reply, payload, rfl, -⟩ := Plan.Foresees.response hf
        exact ⟨_, _, rfl⟩
      | publishing => exact .inr (.inl rfl)
  | pausing _ hphase => exact .inr (.inr hphase)
  | ended hfree =>
    have hnone := hfree.ready
    simp [hready] at hnone

/-- A loop that goes on from an answer fails exactly if that cannot be logged. -/
lemma fails_resume_iff (h : r.GoesOnFrom s) (hscope : r.plan.scope = .loop)
    (hpolicy : r.plan.policy = .logAndContinue) (hu : r.journal.Undisturbed)
    (hnone : ¬ r.HasUnloggable) : (r.resume s).Fails ↔ (r.heard s).HasUnloggable := by
  have hheard : ∀ e : Event, (r.note e).journal.Undisturbed := fun e => ⟨hu.fault, hu.epoch, hu.now⟩
  rcases h with ⟨name, hphase, hresponse⟩ | hphase | hphase
  · simp only [Run.resume, Run.heard, hphase]
    rw [hasUnloggable_note hnone]
    cases s with
    | rejected e =>
      exact fails_failAttempt_iff (r := r.note _) hscope hpolicy (hheard _) .invoke e
    | fulfilled a =>
      obtain ⟨status, payload, rfl⟩ := hresponse a rfl
      exact fails_invoked_iff (r := r.note _) hscope (hheard _) name status
  · simp only [Run.resume, Run.heard, hphase]
    rw [hasUnloggable_note hnone]
    cases s with
    | rejected e =>
      exact fails_failAttempt_iff (r := r.note _) hscope hpolicy (hheard _) .publish e
    | fulfilled a =>
      exact iff_of_false (not_fails_published (r := r.note _) hscope (hheard _))
        (not_not_intro trivial)
  · simp only [Run.resume, Run.heard, hphase]
    exact iff_of_false (not_fails_turn hscope hu) hnone

lemma GoesOnFrom.not_closing (h : r.GoesOnFrom s) (failure : Option Value) :
    r.phase ≠ .closing failure := by
  rcases h with ⟨name, hphase, -⟩ | hphase | hphase <;> rw [hphase] <;> exact Phase.noConfusion

/-- What a step of a loop does not change: it has failed exactly if it could not log an answer. -/
lemma Step.fails_iff (h : Step r r') (hr : r.Sound plan) (hscope : plan.scope = .loop)
    (hpolicy : plan.policy = .logAndContinue) (hu : r'.journal.Undisturbed)
    (hfails : r.journal.Undisturbed → (r.Fails ↔ r.HasUnloggable)) :
    r'.Fails ↔ r'.HasUnloggable := by
  rcases h.undergoes_or_resume hr with hworld | ⟨s, hready, rfl⟩
  · rw [hworld.hasUnloggable_iff, ← hfails (hworld.undisturbed hu), Fails, Fails, hworld.phase]
  · have hgoes : GoesOnFrom { r with ready := none } s := hr.goesOnFrom hscope hready
    have hproceeds := proceeds_resume hgoes.not_closing s
    have hu₀ : r.journal.Undisturbed :=
      (extends_resume { r with ready := none } s).undisturbed_iff.mp hu
    have hnot : ¬ r.Fails := fun ⟨e, he⟩ => by
      obtain ⟨p, hfree, -⟩ := hr.exists_ends he
      have hnone := hfree.ready
      simp [hready] at hnone
    have hnone : ¬ HasUnloggable { r with ready := none } := (hfails hu₀).not.mp hnot
    rw [hproceeds.hasUnloggable_iff]
    have hplan := hr.plan_eq
    refine fails_resume_iff hgoes ?_ ?_ hu₀ hnone
    · rw [← hscope, ← hplan]
    · rw [← hpolicy, ← hplan]

lemma Begins.fails_iff (h : Begins plan r) (hscope : plan.scope = .loop)
    (hu : r.journal.Undisturbed) : r.Fails ↔ r.HasUnloggable := by
  obtain ⟨r₀, hplan, hnone, rfl⟩ : ∃ r₀ : Run, r₀.plan = plan ∧ ¬ r₀.HasUnloggable ∧
      r = r₀.begin := by
    have hcreate : ∀ console epoch, ¬ (create plan (.start console epoch)).HasUnloggable :=
      fun _ _ ⟨_, hm, _⟩ => List.not_mem_nil hm
    cases h with
    | @fresh console epoch => exact ⟨_, rfl, hcreate console epoch, rfl⟩
    | @aborted console epoch _ =>
      have habort := undergoes_abort (create plan (.start console epoch))
      exact ⟨_, habort.plan, habort.hasUnloggable_iff.not.mpr (hcreate console epoch), rfl⟩
  have hbegun := r₀.proceeds_self.begin
  have hscope₀ : r₀.plan.scope = .loop := by rw [hplan, hscope]
  rw [hbegun.hasUnloggable_iff]
  refine iff_of_false ?_ hnone
  simp only [begin, hscope₀]
  exact not_fails_turn hscope₀ (hbegun.journal.undisturbed_iff.mp hu)

/-- **What ends a loop.** Under the standard policy a loop fails exactly if it could not log one of
the answers it went on from; and it ends well only once its work is aborted. -/
theorem Reached.fails_iff_hasUnloggable (h : Reached plan r) (hscope : plan.scope = .loop)
    (hpolicy : plan.policy = .logAndContinue) (hu : r.journal.Undisturbed) :
    ((∃ e, r.phase = .ended (.rejected e)) ↔
      ∃ m ∈ marks r.journal.entries, ¬ m.Loggable r.journal.console.threshold) ∧
    ∀ a, r.phase = .ended (.fulfilled a) → r.coordinator.isAborted = true := by
  constructor
  · obtain ⟨r₀, hbegins, hsteps⟩ := h
    suffices hfails : Reached plan r ∧ (r.journal.Undisturbed → (r.Fails ↔ r.HasUnloggable)) from
      hfails.2 hu
    clear hu
    induction hsteps with
    | refl => exact ⟨⟨r₀, hbegins, .refl⟩, hbegins.fails_iff hscope⟩
    | tail _ hstep ih =>
      exact ⟨ih.1.step hstep, fun hu => hstep.fails_iff ih.1.sound hscope hpolicy hu ih.2⟩
  · intro a hended
    obtain ⟨p, -, hends⟩ := h.sound.exists_ends hended
    cases hends with
    | attempt hattempt =>
      rw [h.sound.plan_eq, hscope] at hattempt
      simp at hattempt
    | stopped _ ha | finished ha => exact ha

/-- A loop whose calls fail with a value that has neither a written form nor a text. -/
def wordless : Plan where
  scope := .loop
  link := .direct
  script := { invokes := [{ course := .fails (.bareRecord [("a", .integer 1)]) 0 }] }
  target := ⟨"device", "module"⟩

/-- The run of a plan that is left to itself until it rests. -/
def undirected (plan : Plan) : Run :=
  (create plan (.start { threshold := .from .error } 0)).begin.drain

/-- The first such failure ends the loop. -/
theorem fails_wordless : ∃ e, (undirected wordless).phase = .ended (.rejected e) := by
  have hu : (undirected wordless).journal.Undisturbed :=
    ⟨by decide +kernel, by decide +kernel, by decide +kernel⟩
  have hrejections : rejections (undirected wordless).journal.entries =
      [(.invoke, .bareRecord [("a", .integer 1)])] := by rfl
  obtain ⟨x, hx, hrejection⟩ := List.mem_filterMap.mp (hrejections ▸ List.mem_singleton_self _)
  have hmark : x.event.mark = .answered .invoke (.rejected (.bareRecord [("a", .integer 1)])) := by
    cases hm : x.event.mark with
    | answered request s => cases request <;> cases s <;> simp_all [Mark.rejection?]
    | _ => simp [hm, Mark.rejection?] at hrejection
  refine ((Reached.begin wordless _ 0).drain.fails_iff_hasUnloggable rfl rfl hu).1.mpr
    ⟨_, List.mem_map_of_mem hx, ?_⟩
  rw [hmark]
  rintro ⟨words, hreport, -⟩
  have hnone : Value.report (.bareRecord [("a", .integer 1)]) = .error .record := by rfl
  simp [hnone] at hreport

end Run

end EdgeCaller.Sender

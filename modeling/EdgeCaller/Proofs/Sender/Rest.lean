import EdgeCaller.Proofs.Sender.Failures
import EdgeCaller.Proofs.Sender.Loop
import EdgeCaller.Proofs.Sender.OverClient
/-!
A timed loop comes to rest.

Between two pauses a loop goes on from three answers at most, so that it is soon at rest: it waits,
and what it waits for comes later. Nothing is left undone before time passes, and no timer is passed
over.
-/

namespace EdgeCaller.Sender.Run

variable {plan : Plan} {r r' : Run} {n m : Nat} {s : Settlement} {e : Event}

/-- What a run can come to if time passes only while it has no answer to go on from. -/
inductive Prompt (plan : Plan) : Run → Prop where
  | begins {x : Run} : Begins plan x → Prompt plan x
  | step {x y : Run} : Prompt plan x → Step x y →
      (x.journal.now < y.journal.now → x.ready = none) → Prompt plan y

lemma Prompt.reached (h : Prompt plan r) : Reached plan r := by
  induction h with
  | begins hbegins => exact ⟨_, hbegins, .refl⟩
  | step _ hstep _ ih => exact ih.step hstep

/-- A loop has no timer but that of what it waits for. -/
lemma Sound.timers_loop (h : r.Sound plan) (hscope : plan.scope = .loop) :
    r.coordinator.listening = false ∧ r.timers = r.timers.drives := by
  obtain ⟨p, hp⟩ := h.exists_stands
  have hlistening : r.coordinator.listening = false := by
    rw [hp.listening, h.plan_eq, hscope]
    rfl
  exact ⟨hlistening, hp.timers_eq_drives hlistening⟩

/-- A loop hears no signal. -/
lemma Sound.deliver_loop (h : r.Sound plan) (hscope : plan.scope = .loop) (signal : String) :
    r.deliver signal = r := by
  have hdeaf : r.hears signal = false := by
    simp [hears, Coordinator.listeners, (h.timers_loop hscope).1]
  rw [Run.deliver, hdeaf]
  rfl

lemma Sound.timers_of_ready (h : r.Sound plan) (hscope : plan.scope = .loop)
    (hready : r.ready = some s) : r.timers = [] := by
  rw [(h.timers_loop hscope).2]
  cases h with
  | awaiting _ _ hawaits =>
    cases hawaits with
    | never hnone => simp [hready] at hnone
    | coming hnone => simp [hready] at hnone
    | answered _ hdrives => exact hdrives
  | pausing _ _ hpauses =>
    cases hpauses with
    | elapsed _ hdrives => exact hdrives
    | lasting hnone => simp [hready] at hnone
  | ended hfree => exact hfree.drives

lemma Sound.pausing_of_timer (h : r.Sound plan) {due : Nat}
    (hdrives : r.timers.drives = [⟨due, .pause⟩]) : r.phase = .pausing := by
  cases h with
  | awaiting _ _ hawaits =>
    cases hawaits with
    | never _ hnil | answered _ hnil => simp [hdrives] at hnil
    | coming _ hanswer => simp [hdrives] at hanswer
  | pausing _ hphase => exact hphase
  | ended hfree =>
    have hnil := hfree.drives
    simp [hdrives] at hnil

/-- The next timer of a loop is its only one, and no grace period. -/
lemma Sound.timers_eq_singleton (h : r.Sound plan) (hscope : plan.scope = .loop) {t : Timer Alarm}
    {rest : Timers Alarm} (hnext : r.timers.next? = some (t, rest)) :
    rest = [] ∧ r.timers = [t] ∧ t.wake.isGrace = false := by
  have htimers := (h.timers_loop hscope).2
  obtain ⟨hmem, -, hlength⟩ := Timers.next?_eq_some hnext
  have hone := length_drives_le_one h
  rw [← htimers] at hone
  have hrest : rest = [] := List.length_eq_zero_iff.mp (by omega)
  obtain ⟨before, after, hsplit, hnil⟩ := Timers.split_of_next? hnext
  rw [hrest] at hnil
  obtain ⟨rfl, rfl⟩ := List.append_eq_nil_iff.mp hnil.symm
  rw [htimers] at hmem
  exact ⟨hrest, hsplit, (Timers.mem_drives.mp hmem).2⟩

/-! ### Moves -/

/-- From how many answers a timed loop may go on before it rests. -/
def laps (r : Run) : Nat :=
  match r.phase with
  | .invoking _ => 3
  | .publishing => 2
  | .pausing => if r.coordinator.isAborted then 1 else 4
  | _ => 0

/-- A loop that rests once it has gone on from so many answers. -/
structure Settles (n : Nat) (r : Run) : Prop where
  laps_le : r.ready ≠ none → r.laps ≤ n
  ahead : ∀ t ∈ r.timers, r.journal.now < t.due

lemma Settles.mono (h : Settles n r) (hle : n ≤ m) : Settles m r :=
  ⟨fun hready => Nat.le_trans (h.laps_le hready) hle, h.ahead⟩

/-- A timed loop in the middle of a move, when it waits for nothing. -/
structure Stirs (r : Run) : Prop where
  scope : r.plan.scope = .loop
  pace : r.plan.pace = .timed
  ready : r.ready = none
  timers : r.timers = []

namespace Stirs

/-- A loop that waits for nothing rests. -/
lemma settles (h : Stirs r) : Settles 0 r :=
  ⟨fun hready => absurd h.ready hready, by simp [h.timers]⟩

lemma abort (h : Stirs r) (hphase : r.phase ≠ .pausing) : Stirs r.abort := by
  have hi := interrupted_abort (.inl hphase)
  exact ⟨by rw [hi.plan]; exact h.scope, by rw [hi.plan]; exact h.pace, hi.ready.trans h.ready,
    hi.timers.trans h.timers⟩

lemma abortAt (h : Stirs r) (hphase : r.phase ≠ .pausing) (due : Option Nat) (n : Nat) :
    Stirs (r.abortAt due n) := by
  unfold Run.abortAt
  split
  · exact h.abort hphase
  · exact h

lemma perform {α : Type} (act : Act α) {fail : Run → Value → Run} {next : Run → α → Run}
    (h : Stirs r) (hfail : ∀ r' e, Stirs r' → Settles n (fail r' e))
    (hnext : ∀ r' a, Stirs r' → Settles n (next r' a)) : Settles n (r.perform act fail next) := by
  unfold Run.perform
  split
  · exact hnext _ _ ⟨h.scope, h.pace, h.ready, h.timers⟩
  · exact hfail _ _ ⟨h.scope, h.pace, h.ready, h.timers⟩

lemma finish (h : Stirs r) (s : Settlement) : Settles 0 (r.finish s) := by
  have hended : Stirs ({ r with phase := .ended s }.note (.settled r.plan.name s)) :=
    ⟨h.scope, h.pace, h.ready, h.timers⟩
  simp only [Run.finish, h.scope]
  exact hended.settles

lemma breakLoop (h : Stirs r) (e : Value) : Settles 0 (r.breakLoop e) := by
  simp only [Run.breakLoop, Run.leaveLoop, h.scope]
  exact h.finish _

lemma leaveLoop (h : Stirs r) : Settles 0 (r.leaveLoop none) := by
  simp only [Run.leaveLoop, h.scope]
  exact h.finish _

/-- The pause of a loop that is aborted is over at once. -/
lemma pause (h : Stirs r) : Settles 1 r.pause := by
  simp only [Run.pause, h.pace]
  split
  · next ha => exact ⟨fun _ => by simp [laps, ha], by simp [h.timers]⟩
  · refine ⟨fun hready => absurd h.ready hready, fun t ht => ?_⟩
    simp only [h.timers, Timers.start, Timers.add, List.nil_append, List.mem_singleton] at ht
    rw [ht]
    exact Nat.lt_add_of_pos_right (Timers.effectiveDelay_pos _)

lemma endAttempt (h : Stirs r) (outcome : Outcome) : Settles 1 (r.endAttempt outcome) := by
  have hnoted : Stirs (r.note (.attemptEnded outcome)) := ⟨h.scope, h.pace, h.ready, h.timers⟩
  have hscope := h.scope
  simp only [Run.endAttempt, Run.note, hscope]
  exact hnoted.pause

lemma failAttempt (h : Stirs r) (hphase : r.phase ≠ .pausing) (stage : Stage) (e : Value) :
    Settles 1 (r.failAttempt stage e) := by
  have hnoted : Stirs ({ r with consults := r.consults + 1 }.note (.consulted stage e)) :=
    ⟨h.scope, h.pace, h.ready, h.timers⟩
  exact (hnoted.abortAt hphase r.plan.abortOnConsult (r.consults + 1)).perform _
    (fun _ e hr => (hr.breakLoop e).mono (Nat.zero_le 1)) fun _ _ hr => hr.endAttempt _

/-- A call is awaited, during which the work may be aborted. -/
lemma await (h : Stirs r) (hphase : r.phase ≠ .pausing) (hlaps : r.laps ≤ n) (due : Option Nat)
    (k : Nat) (reply : Option (Nat × Settlement)) : Settles n ((r.abortAt due k).await reply) := by
  have habort := h.abortAt hphase due k
  have hlaps' : (r.abortAt due k).laps ≤ n := by
    have hphase' := (interrupted_abortAt (.inl hphase) due k).phase
    unfold laps at hlaps ⊢
    rw [hphase']
    split at hlaps <;> simp_all
  generalize r.abortAt due k = r' at habort hlaps'
  match reply with
  | none => exact habort.settles.mono (Nat.zero_le n)
  | some (0, s) => exact ⟨fun _ => hlaps', by simp [Run.await, habort.timers]⟩
  | some (after + 1, s) =>
    refine ⟨fun _ => hlaps', fun t ht => ?_⟩
    simp only [Run.await, habort.timers, Timers.add, List.nil_append, List.mem_singleton] at ht
    rw [ht]
    exact Nat.lt_add_of_pos_right (Nat.succ_pos after)

lemma invoke (h : Stirs r) : Settles 3 r.invoke := by
  have hcalled : ∀ shown event, Stirs ({ r with
      phase := .invoking shown
      tally := { r.tally with invokes := r.tally.invokes + 1 } }.note event) :=
    fun _ _ => ⟨h.scope, h.pace, h.ready, h.timers⟩
  exact (hcalled _ _).await Phase.noConfusion (Nat.le_refl 3) _ _ _

lemma beginAttempt (h : Stirs r) : Settles 3 r.beginAttempt := by
  have hnoted : Stirs (r.note .attemptBegan) := ⟨h.scope, h.pace, h.ready, h.timers⟩
  exact hnoted.perform _ (fun _ e hr => (hr.breakLoop e).mono (Nat.zero_le 3))
    fun _ _ hr => hr.invoke

lemma publish (h : Stirs r) : Settles 2 r.publish := by
  have hcalled : ∀ event, Stirs ({ r with
      phase := .publishing
      tally := { r.tally with publishes := r.tally.publishes + 1 } }.note event) :=
    fun _ => ⟨h.scope, h.pace, h.ready, h.timers⟩
  exact (hcalled _).await Phase.noConfusion (Nat.le_refl 2) _ _ _

lemma invoked (h : Stirs r) (methodName status : Value) :
    Settles 2 (r.invoked methodName status) := by
  unfold Run.invoked
  split
  · exact h.perform _ (fun _ e hr => (hr.breakLoop e).mono (Nat.zero_le 2)) fun _ _ hr => hr.publish
  · exact h.perform _ (fun _ e hr => (hr.breakLoop e).mono (Nat.zero_le 2))
      fun _ _ hr => (hr.endAttempt _).mono (Nat.le_succ 1)

lemma published (h : Stirs r) : Settles 1 r.published :=
  h.perform _ (fun _ e hr => (hr.breakLoop e).mono (Nat.zero_le 1)) fun _ _ hr => hr.endAttempt _

lemma turn (h : Stirs r) : Settles (if r.coordinator.isAborted then 0 else 3) r.turn := by
  unfold Run.turn
  split
  · exact h.perform _ (fun _ e hr => hr.breakLoop e) fun _ _ hr => hr.leaveLoop
  · exact h.beginAttempt

/-- Going on from an answer, a loop comes nearer to its rest. -/
lemma resume (h : Stirs r) (hgoes : r.GoesOnFrom s) (hlaps : r.laps ≤ n + 1) :
    Settles n (r.resume s) := by
  have hnoted : ∀ event, Stirs (r.note event) := fun _ => ⟨h.scope, h.pace, h.ready, h.timers⟩
  rcases hgoes with ⟨name, hphase, -⟩ | hphase | hphase
  · have hn : 2 ≤ n := by simpa [laps, hphase] using hlaps
    have hnot : (r.note (.answered .invoke s)).phase ≠ .pausing := by simp [Run.note, hphase]
    simp only [Run.resume, hphase]
    cases s with
    | rejected e => exact ((hnoted _).failAttempt hnot _ _).mono (by omega)
    | fulfilled a => cases a <;> exact ((hnoted _).invoked _ _).mono hn
  · have hn : 1 ≤ n := by simpa [laps, hphase] using hlaps
    have hnot : (r.note (.answered .publish s)).phase ≠ .pausing := by simp [Run.note, hphase]
    simp only [Run.resume, hphase]
    cases s with
    | rejected e => exact ((hnoted _).failAttempt hnot _ _).mono hn
    | fulfilled a => exact (hnoted _).published.mono hn
  · simp only [Run.resume, hphase]
    refine h.turn.mono ?_
    unfold laps at hlaps
    rw [hphase] at hlaps
    cases ha : r.coordinator.isAborted <;> simp_all

end Stirs

/-! ### Going on -/

lemma laps_le_four (r : Run) : r.laps ≤ 4 := by
  unfold laps
  split
  · decide
  · decide
  · split <;> decide
  · decide

lemma GoesOnFrom.laps_pos (h : r.GoesOnFrom s) : 0 < r.laps := by
  rcases h with ⟨name, hphase, -⟩ | hphase | hphase
  · simp [laps, hphase]
  · simp [laps, hphase]
  · rw [laps, hphase]
    cases r.coordinator.isAborted <;> simp

lemma GoesOnFrom.exit_resume (h : r.GoesOnFrom s) (hscope : r.plan.scope = .loop) :
    (r.resume s).exit = r.exit := by
  obtain ⟨hplan, hexit⟩ : (r.heard s).plan = r.plan ∧ (r.heard s).exit = r.exit := by
    unfold Run.heard
    split <;> exact ⟨rfl, rfl⟩
  rw [(proceeds_resume h.not_closing s).exit (by rw [hplan, hscope]; exact Scope.noConfusion),
    hexit]

/-- An abort adds no timer, and takes no time. -/
lemma abort_frame (r : Run) : r.abort.journal.now = r.journal.now ∧ r.abort.exit = r.exit ∧
    ∀ t ∈ r.abort.timers, t ∈ r.timers := by
  have hend : ∀ r' : Run, r'.endPause.journal = r'.journal ∧ r'.endPause.exit = r'.exit ∧
      ∀ t ∈ r'.endPause.timers, t ∈ r'.timers := by
    intro r'
    unfold endPause
    split
    · exact ⟨rfl, rfl, fun t ht => (List.mem_filter.mp ht).1⟩
    · exact ⟨rfl, rfl, fun t ht => ht⟩
  unfold Run.abort
  split
  · exact ⟨rfl, rfl, fun t ht => ht⟩
  · obtain ⟨hj, hexit, htimers⟩ := hend ({ r with
      coordinator := { r.coordinator with reason := some "abort" } }.note (.abort r.coordinator.id))
    exact ⟨by rw [hj]; rfl, hexit, htimers⟩

/-- A timed loop that time passes for only when it has nothing to go on from, and for which no timer
is overdue. -/
structure Timely (plan : Plan) (r : Run) : Prop where
  prompt : Prompt plan r
  exit : r.exit = none
  ahead : ∀ t ∈ r.timers, r.journal.now < t.due

namespace Timely

section

variable (hscope : plan.scope = .loop)
include hscope

lemma stirs (h : Timely plan r) (hpace : plan.pace = .timed) (hready : r.ready = some s) :
    Stirs { r with ready := none } := by
  have hplan := h.prompt.reached.sound.plan_eq
  refine ⟨?_, ?_, rfl, h.prompt.reached.sound.timers_of_ready hscope hready⟩
  · rw [← hscope, ← hplan]
  · rw [← hpace, ← hplan]

/-- A loop goes on from all that it has, if there is fuel for as many answers as it may need. -/
lemma drainFor (h : Timely plan r) (hpace : plan.pace = .timed)
    (hlaps : r.ready ≠ none → r.laps ≤ n) :
    Timely plan (r.drainFor n) ∧ (r.drainFor n).ready = none ∧
      (r.drainFor n).journal.now = r.journal.now := by
  induction n generalizing r with
  | zero =>
    refine ⟨h, ?_, rfl⟩
    by_contra hready
    obtain ⟨s, hs⟩ := Option.ne_none_iff_exists'.mp hready
    have hgoes : GoesOnFrom { r with ready := none } s :=
      h.prompt.reached.sound.goesOnFrom hscope hs
    have hpos := hgoes.laps_pos
    exact absurd (hlaps hready) (Nat.not_le.mpr hpos)
  | succ n ih =>
    cases hready : r.ready with
    | none =>
      rw [drainFor_of_ready hready]
      exact ⟨h, hready, rfl⟩
    | some s =>
      rw [drainFor_succ h.exit hready]
      have hgoes : GoesOnFrom { r with ready := none } s :=
        h.prompt.reached.sound.goesOnFrom hscope hready
      have hstirs := h.stirs hscope hpace hready
      have hnow : ({ r with ready := none }.resume s).journal.now = r.journal.now :=
        (extends_resume { r with ready := none } s).now
      have hexit : ({ r with ready := none }.resume s).exit = none :=
        (hgoes.exit_resume hstirs.scope).trans h.exit
      have hprompt := h.prompt.step (.goOn h.exit hready) fun hlt =>
        absurd hlt (by rw [hnow]; exact Nat.lt_irrefl _)
      have hsettles := hstirs.resume hgoes (hlaps (by simp [hready]))
      rw [← hnow]
      exact ih ⟨hprompt, hexit, hsettles.ahead⟩ hsettles.laps_le

lemma drain (h : Timely plan r) (hpace : plan.pace = .timed) :
    Timely plan r.drain ∧ r.drain.ready = none ∧ r.drain.journal.now = r.journal.now := by
  refine h.drainFor hscope hpace fun _ => Nat.le_trans r.laps_le_four ?_
  unfold patience
  omega

/-! ### From outside -/

lemma fire (h : Timely plan r) (hready : r.ready = none) {t : Timer Alarm} {rest : Timers Alarm}
    (hnext : r.timers.next? = some (t, rest)) :
    Timely plan r.fire ∧ r.fire.journal.now = t.due := by
  have hsound := h.prompt.reached.sound
  obtain ⟨hrest, -, hgrace⟩ := hsound.timers_eq_singleton hscope hnext
  have hfire : r.fire = ({ r with timers := [] }.moveTo t.due).wake t.wake := by
    rw [Run.fire, hnext, hrest]
  have hprompt : Prompt plan r.fire := h.prompt.step (.fire h.exit) fun _ => hready
  rw [hfire] at hprompt ⊢
  cases hwake : t.wake with
  | grace => simp [hwake, Alarm.isGrace] at hgrace
  | pause | answer s =>
    rw [hwake] at hprompt
    exact ⟨⟨hprompt, h.exit, by simp [Run.wake, Run.moveTo]⟩, rfl⟩

omit hscope in
lemma wait (h : Timely plan r) (hready : r.ready = none) {time : Nat}
    (htime : r.journal.now ≤ time) (hdue : ∀ t ∈ r.timers, time < t.due) :
    Timely plan (r.moveTo time) :=
  ⟨h.prompt.step (.wait htime fun _ t ht => Nat.le_of_lt (hdue t ht)) fun _ => hready, h.exit, hdue⟩

/-- Every timer that is due on the way fires, for each moves the clock on. -/
lemma advanceTo (h : Timely plan r) (hpace : plan.pace = .timed) (hready : r.ready = none)
    {time fuel : Nat} (htime : r.journal.now ≤ time) (hfuel : time < r.journal.now + fuel) :
    ∃ r', (clockwork true).advanceTo time fuel r = r' ∧ Timely plan r' ∧ r'.ready = none := by
  induction fuel generalizing r with
  | zero => omega
  | succ fuel ih =>
    rw [Clockwork.advanceTo]
    have hdue : (clockwork true).nextDue r = (r.timers.next?).map (·.1.due) := by
      simp [clockwork, nextDue, h.exit, Timers.nextDue]
    rw [hdue]
    cases hnext : r.timers.next? with
    | none =>
      have hnil := Timers.next?_eq_none.mp hnext
      exact ⟨_, rfl, h.wait hready htime (by simp [hnil]), hready⟩
    | some next =>
      obtain ⟨t, rest⟩ := next
      obtain ⟨hmem, hmin, -⟩ := Timers.next?_eq_some hnext
      simp only [Option.map_some]
      split
      · next hle =>
        obtain ⟨hfired, hfirednow⟩ := h.fire hscope hready hnext
        obtain ⟨hdrained, hempty, hnow⟩ := hfired.drain hscope hpace
        have hlater := h.ahead t hmem
        have hfire : (clockwork true).fire r = r.fire.drain := rfl
        rw [hfire]
        exact ih hdrained hempty (by omega) (by omega)
      · next hlt =>
        exact ⟨_, rfl, h.wait hready htime fun u hu =>
          Nat.lt_of_lt_of_le (Nat.lt_of_not_le hlt) (hmin u hu), hready⟩

lemma abort (h : Timely plan r) : Timely plan r.abort := by
  obtain ⟨hnow, hexit, htimers⟩ := r.abort_frame
  have hdown : r.plan.scope.tearsDown = false := by
    rw [h.prompt.reached.sound.plan_eq, hscope]
    rfl
  refine ⟨h.prompt.step (.abort hdown) fun hlt => absurd hlt ?_, hexit.trans h.exit, fun t ht => ?_⟩
  · rw [hnow]
    exact Nat.lt_irrefl _
  · rw [hnow]
    exact h.ahead t (htimers t ht)

lemma respond (h : Timely plan r) (hpace : plan.pace = .timed) (hready : r.ready = none)
    (stimulus : Stimulus) :
    Timely plan (r.respond true stimulus) ∧ (r.respond true stimulus).ready = none := by
  have hmet : Timely plan (r.meet true stimulus) := by
    cases stimulus with
    | signal name =>
      rw [meet, h.prompt.reached.sound.deliver_loop hscope]
      exact h
    | abort => exact h.abort hscope
    | pass ms =>
      have hdrain : r.drain = r := drainFor_of_ready hready _
      have hfuel : r.journal.now + ms < r.journal.now + (r.timers.length + 1) * (ms + 1) := by
        have hle : ms + 1 ≤ (r.timers.length + 1) * (ms + 1) :=
          Nat.le_mul_of_pos_left _ (Nat.succ_pos _)
        omega
      obtain ⟨r', hr', htimely, -⟩ :=
        h.advanceTo hscope hpace hready (Nat.le_add_right _ ms) hfuel
      rw [meet, Run.advance, if_pos rfl, hdrain, hr']
      exact htimely
  obtain ⟨hdrained, hempty, -⟩ := hmet.drain hscope hpace
  exact ⟨hdrained, hempty⟩

end

end Timely

/-- **A timed loop keeps up.** Whatever happens to it from outside, it has gone on as far as it can
before time passes, and no timer is passed over. -/
theorem timely_course (hscope : plan.scope = .loop) (hpace : plan.pace = .timed)
    (console : Console) (epoch : Int) (aborted : Bool) (past : List Stimulus) :
    Timely plan (course plan console epoch aborted past) ∧
      (course plan console epoch aborted past).ready = none := by
  induction past with
  | nil =>
    have hbegun : ∀ r₀, Stirs r₀ → r₀.exit = none → Begins plan r₀.begin →
        Timely plan r₀.begin.drain ∧ r₀.begin.drain.ready = none := by
      intro r₀ hstirs hexit hbegins
      have hsettles : Settles 3 r₀.begin := by
        simp only [begin, hstirs.scope]
        refine hstirs.turn.mono ?_
        split <;> omega
      have hexit' : r₀.begin.exit = none := by
        rw [r₀.proceeds_self.begin.exit (by rw [hstirs.scope]; exact Scope.noConfusion), hexit]
      have htimely : Timely plan r₀.begin := ⟨.begins hbegins, hexit', hsettles.ahead⟩
      obtain ⟨hdrained, hempty, -⟩ := htimely.drain hscope hpace
      exact ⟨hdrained, hempty⟩
    have hcreate : Stirs (create plan (.start console epoch)) := ⟨hscope, hpace, rfl, rfl⟩
    cases aborted with
    | false => exact hbegun _ hcreate rfl .fresh
    | true =>
      refine hbegun _ (hcreate.abort Phase.noConfusion) ?_ (.aborted hscope)
      exact (abort_frame (create plan (.start console epoch))).2.1
  | cons stimulus past ih => exact ih.1.respond hscope hpace ih.2 stimulus

end EdgeCaller.Sender.Run

import EdgeCaller.Proofs.Sender.Timetable
/-!
A timed loop keeps to its timetable.

What a loop waits for comes when the timetable says: the answers to the calls of an attempt that is
under way, or the end of the pause after it. `OnTime` says so of a loop between two of its moves;
each move and each step of the world around it keeps this, whenever the work is aborted. An abort
lets an attempt come to its end, and otherwise ends the loop at once.
-/

namespace EdgeCaller.Sender

/-- With what a run goes on that is woken. -/
def Alarm.settlement : Alarm → Settlement
  | .answer s => s
  | .pause | .grace => .fulfilled .nothing

namespace Diary

/-- The `n`-th attempt, which began at this time, is under way. -/
structure During (plan : Plan) (n began now : Nat) (d : Diary) : Prop where
  due : plan.slot? n = some (plan.slotAt n began)
  slots : d.slots = ⟨began, none⟩ :: plan.slots n
  began_le : began ≤ now
  halted : ∀ a before, d.halted = some (a, before) → began ≤ a ∧ a ≤ now ∧ before = d.slots
  settled : d.settled = []

/-- The first `n` attempts have ended, and no other has begun. -/
structure Between (plan : Plan) (n now : Nat) (d : Diary) : Prop where
  slots : d.slots = plan.slots n
  ended : ∀ s ∈ d.slots, ∃ time outcome, s.ended = some (time, outcome) ∧ time ≤ now

/-- When a loop goes on that has had `n` attempts: when the next one is due, or, if it is aborted,
at the abort, or at the end of the attempt that was under way then. -/
inductive GoesOnAt (plan : Plan) (n : Nat) (d : Diary) (time : Nat) : Prop where
  | due : d.halted = none → plan.slot? n = some (plan.slotAt n time) → GoesOnAt plan n d time
  | waiting : d.halted = some (time, d.slots) → (∀ s ∈ d.slots, s.began ≤ time) →
      (∀ s, plan.slot? n = some s → time ≤ s.began) → GoesOnAt plan n d time
  | underWay {a m began outcome} : n = m + 1 →
      d.halted = some (a, ⟨began, none⟩ :: plan.slots m) → began ≤ a → a ≤ time →
      plan.slot? m = some ⟨began, some (time, outcome)⟩ → GoesOnAt plan n d time

variable {plan : Plan} {n began now now' : Nat} {d : Diary}

lemma During.later (h : d.During plan n began now) (hle : now ≤ now') :
    d.During plan n began now' :=
  { h with
    began_le := Nat.le_trans h.began_le hle
    halted := fun a before ha => by
      obtain ⟨hbegan, htime, hslots⟩ := h.halted a before ha
      exact ⟨hbegan, Nat.le_trans htime hle, hslots⟩ }

lemma Between.later (h : d.Between plan n now) (hle : now ≤ now') : d.Between plan n now' where
  slots := h.slots
  ended s hs := by
    obtain ⟨time, outcome, hended, htime⟩ := h.ended s hs
    exact ⟨time, outcome, hended, Nat.le_trans htime hle⟩

lemma Between.began_le (h : d.Between plan n now) {s : Slot} (hs : s ∈ d.slots) :
    s.began ≤ now := by
  obtain ⟨time, outcome, hended, hle⟩ := h.ended s hs
  obtain ⟨k, -, hdue⟩ := Plan.mem_slots.mp (h.slots ▸ hs)
  exact Nat.le_trans (Plan.began_le_of_ended hdue hended) hle

lemma halt_of_halted {halt : Nat × List Slot} (h : d.halted = some halt) (time : Nat) :
    d.halt time = d := by
  unfold Diary.halt
  rw [h]
  exact congrArg (fun halted => { d with halted }) h.symm

lemma During.halt (h : d.During plan n began now) : (d.halt now).During plan n began now := by
  cases hhalted : d.halted with
  | some halt => rwa [halt_of_halted hhalted]
  | none =>
    refine { h with halted := fun a before ha => ?_ }
    rw [Diary.halt, hhalted] at ha
    obtain ⟨rfl, rfl⟩ := Prod.mk.inj (Option.some.inj ha)
    exact ⟨h.began_le, Nat.le_refl _, rfl⟩

end Diary

namespace Run

variable {plan : Plan} {n m began time : Nat} {d : Diary} {r r' : Run} {s : Settlement} {e : Event}

/-- The attempts so far. -/
def attempts (r : Run) : List Slot := (diary r.journal.entries).slots

/-- When and how the run has ended. -/
def settlements (r : Run) : List (Nat × Settlement) := (diary r.journal.entries).settled

/-- What a run waits for, and when it comes. -/
def awaited (r : Run) : List (Nat × Settlement) :=
  (r.ready.map (r.journal.now, ·)).toList ++ r.timers.map fun t => (t.due, t.wake.settlement)

/-- A loop that has made so many calls and sent so many events, and its diary. -/
structure Told (plan : Plan) (n m : Nat) (d : Diary) (r : Run) : Prop where
  plan : r.plan = plan
  invokes : r.tally.invokes = n
  publishes : r.tally.publishes = m
  diary : diary r.journal.entries = d
  aborted : r.coordinator.isAborted = d.halted.isSome

/-- A loop whose attempts are begun and end when they are due. -/
inductive OnTime (plan : Plan) (r : Run) : Prop where
  | invoking {n began d name} : r.phase = .invoking name → Told plan (n + 1) (plan.sent n) d r →
      d.During plan n began r.journal.now →
      r.awaited = ((plan.called? n).map fun (after, s) => (began + after, s)).toList →
      OnTime plan r
  | publishing {n began d after s} : r.phase = .publishing →
      Told plan (n + 1) (plan.sent n + 1) d r → d.During plan n began r.journal.now →
      plan.called? n = some (after, s) → s.isSuccess = true →
      r.awaited = ((plan.delivered? (plan.sent n)).map fun (more, s) =>
        (began + after + more, s)).toList → OnTime plan r
  | pausing {n : Nat} {d : Diary} {time : Nat} : r.phase = .pausing →
      Told plan n (plan.sent n) d r → d.Between plan n r.journal.now → d.settled = [] →
      d.GoesOnAt plan n time → r.awaited = [(time, .fulfilled .nothing)] → OnTime plan r
  | stopped {n m : Nat} {d : Diary} {time : Nat} : r.phase = .ended (.fulfilled .nothing) →
      Told plan n m d r → d.Between plan n r.journal.now → d.halted ≠ none →
      d.GoesOnAt plan n time → d.settled = [(time, .fulfilled .nothing)] → r.awaited = [] →
      OnTime plan r
  | failed : r.Fails → OnTime plan r

namespace Told

lemma set (h : Told plan n m d r) (hplan : r'.plan = r.plan) (htally : r'.tally = r.tally)
    (hj : r'.journal.entries = r.journal.entries) (hc : r'.coordinator = r.coordinator) :
    Told plan n m d r' :=
  ⟨hplan.trans h.plan, by rw [htally]; exact h.invokes, by rw [htally]; exact h.publishes,
    by rw [hj]; exact h.diary, by rw [hc]; exact h.aborted⟩

lemma halted_eq_none (h : Told plan n m d r) (ha : r.coordinator.isAborted = false) :
    d.halted = none := by
  rw [h.aborted] at ha
  simpa using ha

/-- Most of what happens is not told. -/
lemma journal (h : Told plan n m d r) {k : Journal}
    (hk : r.journal.Extends (fun e => Diary.omits e = true) k) :
    Told plan n m d { r with journal := k } := by
  obtain ⟨new, hnew, homits⟩ := hk.entries
  refine { h with diary := ?_ }
  rw [show ({ r with journal := k } : Run).journal.entries = _ from hnew, Diary.diary_append]
  · exact h.diary
  · intro x hx
    obtain ⟨e, he, rfl⟩ := List.mem_map.mp hx
    exact homits e he

lemma endPause (h : Told plan n m d r) : Told plan n m d r.endPause := by
  obtain ⟨hplan, hj, hc, -⟩ := r.endPause_frame
  refine h.set hplan ?_ (by rw [hj]) hc
  unfold Run.endPause
  split <;> rfl

lemma abort (h : Told plan n m d r) : Told plan n m (d.halt r.journal.now) r.abort := by
  unfold Run.abort
  split
  · next ha =>
    obtain ⟨halt, hhalt⟩ := Option.isSome_iff_exists.mp (h.aborted.symm.trans ha)
    rw [Diary.halt_of_halted hhalt]
    exact h
  · refine Told.endPause { h with diary := ?_, aborted := ?_ }
    · rw [Run.note, Journal.entries_add, diary_cons, h.diary]
      rfl
    · rw [Diary.halt, Option.isSome_or]
      exact (Bool.or_true _).symm

end Told

/-! ### Moves -/

/-- A loop in the middle of a move at this time, when it waits for nothing. -/
structure Busy (plan : Plan) (time n m : Nat) (d : Diary) (r : Run) : Prop
    extends Told plan n m d r where
  now : r.journal.now = time
  ready : r.ready = none
  timers : r.timers = []

namespace Busy

lemma set (h : Busy plan time n m d r) (hplan : r'.plan = r.plan) (htally : r'.tally = r.tally)
    (hj : r'.journal = r.journal) (hc : r'.coordinator = r.coordinator)
    (hready : r'.ready = r.ready) (htimers : r'.timers = r.timers) : Busy plan time n m d r' :=
  ⟨h.toTold.set hplan htally (by rw [hj]) hc, by rw [hj]; exact h.now, hready.trans h.ready,
    htimers.trans h.timers⟩

lemma note (h : Busy plan time n m d r) (e : Event) (hd : (d.add ⟨time, e⟩).halted = d.halted) :
    Busy plan time n m (d.add ⟨time, e⟩) (r.note e) :=
  { h with
    diary := by rw [Run.note, Journal.entries_add, diary_cons, h.now, h.diary]
    aborted := by rw [hd]; exact h.aborted }

lemma aside (h : Busy plan time n m d r) (he : Diary.omits e = true) :
    Busy plan time n m d (r.note e) := by
  have hadd : d.add ⟨time, e⟩ = d := Diary.add_of_omits he d
  have hnoted := h.note e (by rw [hadd])
  rwa [hadd] at hnoted

lemma abort (h : Busy plan time n m d r) (hphase : r.phase ≠ .pausing) :
    Busy plan time n m (d.halt time) r.abort := by
  have hi := interrupted_abort (.inl hphase)
  have htold := h.toTold.abort
  rw [h.now] at htold
  exact ⟨htold, hi.journal.now.trans h.now, hi.ready.trans h.ready, hi.timers.trans h.timers⟩

lemma awaited_eq_nil (h : Busy plan time n m d r) : r.awaited = [] := by
  rw [awaited, h.ready, h.timers]
  rfl

lemma perform {α : Type} {act : Act α} {fail : Run → Value → Run} {next : Run → α → Run}
    (h : Busy plan time n m d r) (hw : act.Writes fun e => Diary.omits e = true)
    (hfail : ∀ r' e, Busy plan time n m d r' → OnTime plan (fail r' e))
    (hnext : ∀ r' a, Busy plan time n m d r' → OnTime plan (next r' a)) :
    OnTime plan (r.perform act fail next) := by
  have hj := hw r.journal
  unfold Run.perform
  rcases hact : act.exec r.journal with ⟨e | a, k⟩ <;> rw [hact] at hj
  · exact hfail _ e ⟨h.toTold.journal hj, hj.now.trans h.now, h.ready, h.timers⟩
  · exact hnext _ a ⟨h.toTold.journal hj, hj.now.trans h.now, h.ready, h.timers⟩

lemma abortAt {k : Nat} (h : Busy plan time n m d r) (hd : d.During plan k began time)
    (hphase : r.phase ≠ .pausing) (due : Option Nat) (i : Nat) :
    ∃ d', Busy plan time n m d' (r.abortAt due i) ∧ d'.During plan k began time := by
  unfold Run.abortAt
  split
  · exact ⟨_, h.abort hphase, hd.halt⟩
  · exact ⟨_, h, hd⟩

/-- The answer to a call of an attempt is awaited. The work may be aborted during the call. -/
lemma await {k : Nat} (h : Busy plan time n m d r) (hd : d.During plan k began time)
    (hphase : r.phase ≠ .pausing) (due : Option Nat) (i : Nat) (reply : Option (Nat × Settlement))
    (hnext : ∀ r' d', Told plan n m d' r' → d'.During plan k began r'.journal.now →
      r'.phase = r.phase → r'.awaited = (reply.map fun (after, s) => (time + after, s)).toList →
      OnTime plan r') :
    OnTime plan ((r.abortAt due i).await reply) := by
  have hphase' := (interrupted_abortAt (.inl hphase) due i).phase
  obtain ⟨d', h', hd'⟩ := h.abortAt hd hphase due i
  generalize r.abortAt due i = r' at h' hphase'
  obtain ⟨hframe, hj⟩ := r'.await_frame reply
  refine hnext _ d' ?_ (by rw [hj, h'.now]; exact hd') (hframe.trans hphase') ?_
  · match reply with
    | none | some (0, s) | some (after + 1, s) => exact h'.toTold.set rfl rfl rfl rfl
  · match reply with
    | none | some (0, s) | some (after + 1, s) =>
      simp [awaited, Run.await, h'.ready, h'.timers, h'.now, Timers.add, Alarm.settlement]

section

variable (hscope : plan.scope = .loop)
include hscope

lemma breakLoop (h : Busy plan time n m d r) (e : Value) : OnTime plan (r.breakLoop e) :=
  .failed (fails_breakLoop (by rw [h.plan, hscope]) e)

/-- A loop that is aborted ends when it goes on after its last attempt. -/
lemma leaveLoop (h : Busy plan time n m d r) (hd : d.Between plan n time)
    (hsettled : d.settled = []) (hhalted : d.halted ≠ none) (hgoes : d.GoesOnAt plan n time) :
    OnTime plan (r.leaveLoop none) := by
  obtain rfl := h.plan
  have hended : Busy r.plan time n m d { r with phase := .ended (.fulfilled .nothing) } :=
    h.set rfl rfl rfl rfl rfl rfl
  have hnoted := hended.note (.settled r.plan.name (.fulfilled .nothing)) rfl
  have hsettled' : (d.add ⟨time, .settled r.plan.name (.fulfilled .nothing)⟩).settled =
      [(time, .fulfilled .nothing)] := by
    simp [Diary.add, hsettled]
  simp only [Run.leaveLoop, Run.finish, hscope]
  refine .stopped rfl hnoted.toTold ?_ hhalted ?_ hsettled' hnoted.awaited_eq_nil
  · rw [hnoted.now]
    exact ⟨hd.slots, hd.ended⟩
  · cases hgoes with
    | due hnone => exact absurd hnone hhalted
    | waiting hhalt hpast hnext => exact .waiting hhalt hpast hnext
    | underWay hn hhalt hbegan ha hdue => exact .underWay hn hhalt hbegan ha hdue

variable (hpace : plan.pace = .timed)
include hpace

omit hscope in
/-- The pause of a loop that is aborted is over at once. -/
lemma pause (h : Busy plan time n (plan.sent n) d r) (hd : d.Between plan n time)
    (hsettled : d.settled = [])
    (hnext : d.halted = none →
      plan.slot? n = some (plan.slotAt n (time + Timers.effectiveDelay plan.interval)))
    (hstop : d.halted ≠ none → d.GoesOnAt plan n time) : OnTime plan r.pause := by
  obtain rfl := h.plan
  rw [← h.now] at hd
  simp only [Run.pause, hpace]
  split
  · next ha =>
    have hhalted : d.halted ≠ none := by
      rw [h.aborted] at ha
      exact Option.isSome_iff_ne_none.mp ha
    refine .pausing rfl (h.toTold.set rfl rfl rfl rfl) hd hsettled (hstop hhalted) ?_
    simp [awaited, h.timers, h.now]
  · next ha =>
    have hnone := h.halted_eq_none (Bool.eq_false_iff.mpr ha)
    refine .pausing rfl (h.toTold.set rfl rfl rfl rfl) hd hsettled (.due hnone (hnext hnone)) ?_
    simp [awaited, h.timers, h.ready, h.now, Timers.start, Timers.add, Alarm.settlement]

lemma endAttempt {outcome : Outcome} (h : Busy plan time (n + 1) (plan.sent (n + 1)) d r)
    (hd : d.During plan n began time)
    (hend : plan.slotAt n began = ⟨began, some (time, outcome)⟩) :
    OnTime plan (r.endAttempt outcome) := by
  have hdue : plan.slot? n = some ⟨began, some (time, outcome)⟩ := by rw [hd.due, hend]
  have hnoted := h.note (.attemptEnded outcome) rfl
  have hslots : (d.add ⟨time, .attemptEnded outcome⟩).slots = plan.slots (n + 1) := by
    rw [Plan.slots_succ hdue, Diary.add, hd.slots]
    rfl
  have hbetween : (d.add ⟨time, .attemptEnded outcome⟩).Between plan (n + 1) time := by
    refine ⟨hslots, fun s hs => ?_⟩
    rw [hslots, Plan.slots_succ hdue] at hs
    rcases List.mem_cons.mp hs with rfl | hs
    · exact ⟨time, outcome, rfl, Nat.le_refl _⟩
    · obtain ⟨earlier, outcome', hended, hle⟩ := Plan.ended_before hdue hs
      exact ⟨earlier, outcome', hended, Nat.le_trans hle hd.began_le⟩
  have hpaused : OnTime plan (r.note (.attemptEnded outcome)).pause := by
    have hnext := Plan.slot?_succ hdue rfl
    refine hnoted.pause hpace hbetween hd.settled (fun _ => hnext) fun hhalted => ?_
    obtain ⟨⟨a, before⟩, hhalt⟩ := Option.ne_none_iff_exists'.mp hhalted
    obtain ⟨hbegan, hle, hbefore⟩ := hd.halted a before hhalt
    refine .underWay rfl ?_ hbegan hle hdue
    rw [← hd.slots, ← hbefore]
    exact hhalt
  have hscope' : r.plan.scope = .loop := by rw [h.plan, hscope]
  simp only [Run.endAttempt, Run.note, hscope']
  exact hpaused

lemma failAttempt (h : Busy plan time (n + 1) (plan.sent (n + 1)) d r)
    (hd : d.During plan n began time) (hend : plan.slotAt n began = ⟨began, some (time, .failed)⟩)
    (hphase : r.phase ≠ .pausing) (stage : Stage) (e : Value) :
    OnTime plan (r.failAttempt stage e) := by
  have hasked : Busy plan time (n + 1) (plan.sent (n + 1)) d
      { r with consults := r.consults + 1 } :=
    h.set rfl rfl rfl rfl rfl rfl
  have hnoted : Busy plan time (n + 1) (plan.sent (n + 1)) d
      ({ r with consults := r.consults + 1 }.note (.consulted stage e)) := hasked.aside rfl
  obtain ⟨d', h', hd'⟩ := hnoted.abortAt hd hphase r.plan.abortOnConsult (r.consults + 1)
  exact h'.perform (writes_consult (fun _ _ => rfl) (fun _ _ _ => rfl) _ _ _ _)
    (fun _ e hr => hr.breakLoop hscope e) fun _ _ hr => hr.endAttempt hscope hpace hd' hend

omit hscope hpace in
lemma invoke (h : Busy plan time n (plan.sent n) d r) (hd : d.During plan n time time) :
    OnTime plan r.invoke := by
  obtain rfl := h.plan
  obtain rfl := h.invokes
  have hcalled : ∀ shown (e : Event), Diary.omits e = true →
      Busy r.plan time (r.tally.invokes + 1) (r.plan.sent r.tally.invokes) d ({ r with
        phase := .invoking shown
        tally := { r.tally with invokes := r.tally.invokes + 1 } }.note e) := fun _ e he =>
    aside (r := { r with phase := .invoking _, tally := _ })
      ⟨⟨rfl, rfl, h.publishes, h.diary, h.aborted⟩, h.now, h.ready, h.timers⟩ he
  simp only [Run.invoke]
  refine (hcalled _ _ ?_).await hd Phase.noConfusion _ _ _ fun r' d' htold hd' hphase hawaited =>
    .invoking hphase htold hd' hawaited
  cases r.plan.link <;> rfl

omit hpace in
lemma beginAttempt (h : Busy plan time n (plan.sent n) d r) (hd : d.Between plan n time)
    (hsettled : d.settled = []) (hnone : d.halted = none)
    (hdue : plan.slot? n = some (plan.slotAt n time)) : OnTime plan r.beginAttempt := by
  have hbegun : (d.add ⟨time, .attemptBegan⟩).During plan n time time :=
    { due := hdue
      slots := by rw [Diary.add, hd.slots]
      began_le := Nat.le_refl _
      halted := fun a before ha => absurd (hnone.symm.trans ha) (by simp)
      settled := hsettled }
  exact (h.note .attemptBegan rfl).perform (Act.writes_tell (fun _ => rfl) _ _)
    (fun _ e hr => hr.breakLoop hscope e) fun _ _ hr => hr.invoke hbegun

omit hscope hpace in
lemma publish {after : Nat} {answer : Settlement} (h : Busy plan time (n + 1) (plan.sent n) d r)
    (hd : d.During plan n began time) (hcalled : plan.called? n = some (after, answer))
    (hsuccess : answer.isSuccess = true) (htime : began + after = time) :
    OnTime plan r.publish := by
  obtain rfl := h.plan
  have hsent : ∀ e : Event, Diary.omits e = true →
      Busy r.plan time (n + 1) (r.plan.sent n + 1) d ({ r with
        phase := .publishing
        tally := { r.tally with publishes := r.tally.publishes + 1 } }.note e) := fun e he =>
    aside (r := { r with phase := .publishing, tally := _ })
      ⟨⟨rfl, h.invokes, congrArg Nat.succ h.publishes, h.diary, h.aborted⟩, h.now, h.ready,
        h.timers⟩ he
  simp only [Run.publish]
  refine (hsent _ ?_).await hd Phase.noConfusion _ _ _ fun r' d' htold hd' hphase hawaited =>
    .publishing hphase htold hd' hcalled hsuccess ?_
  · cases r.plan.link <;> rfl
  · rw [hawaited, h.publishes, htime]
    rfl

lemma invoked {after : Nat} {methodName status payload : Value}
    (h : Busy plan time (n + 1) (plan.sent n) d r) (hd : d.During plan n began time)
    (hcalled : plan.called? n = some (after, .fulfilled (.response status payload)))
    (htime : began + after = time) : OnTime plan (r.invoked methodName status) := by
  unfold Run.invoked
  cases hsuccess : isSuccess status with
  | true =>
    exact h.perform (Act.writes_tell (fun _ => rfl) _ _) (fun _ e hr => hr.breakLoop hscope e)
      fun _ _ hr => hr.publish hd hcalled hsuccess htime
  | false =>
    obtain ⟨hspan, hsent⟩ := Plan.span?_of_answer hcalled hsuccess
    have hend := Plan.slotAt_of_span? hspan began
    rw [htime] at hend
    rw [← hsent] at h
    exact h.perform (Act.writes_tell (fun _ => rfl) _ _) (fun _ e hr => hr.breakLoop hscope e)
      fun _ _ hr => hr.endAttempt hscope hpace hd hend

lemma published (h : Busy plan time (n + 1) (plan.sent (n + 1)) d r)
    (hd : d.During plan n began time)
    (hend : plan.slotAt n began = ⟨began, some (time, .published)⟩) : OnTime plan r.published :=
  h.perform (Act.writes_tell (fun _ => rfl) _ _) (fun _ e hr => hr.breakLoop hscope e)
    fun _ _ hr => hr.endAttempt hscope hpace hd hend

omit hpace in
lemma turn (h : Busy plan time n (plan.sent n) d r) (hd : d.Between plan n time)
    (hsettled : d.settled = []) (hgoes : d.GoesOnAt plan n time) : OnTime plan r.turn := by
  unfold Run.turn
  cases hhalted : d.halted with
  | some halt =>
    rw [if_pos (by rw [h.aborted, hhalted]; rfl)]
    exact h.perform (Act.writes_say (fun _ => rfl) _) (fun _ e hr => hr.breakLoop hscope e)
      fun _ _ hr => hr.leaveLoop hscope hd hsettled (by simp [hhalted]) hgoes
  | none =>
    rw [if_neg (by rw [h.aborted, hhalted]; simp)]
    cases hgoes with
    | due _ hdue => exact h.beginAttempt hscope hd hsettled hhalted hdue
    | waiting hhalt | underWay _ hhalt => simp [hhalted] at hhalt

end

end Busy

/-! ### Steps -/

lemma awaited_of_ready (hready : r.ready = some s) (htimers : r.timers = []) :
    r.awaited = [(r.journal.now, s)] := by
  rw [awaited, hready, htimers]
  rfl

/-- An answer that has come is the one that was due. -/
lemma exists_answer {now : Nat} {reply : Option (Nat × Settlement)}
    (h : [(now, s)] = (reply.map fun (after, s) => (time + after, s)).toList) :
    ∃ after, reply = some (after, s) ∧ time + after = now := by
  cases reply with
  | none => simp at h
  | some answer =>
    obtain ⟨htime, rfl⟩ : now = time + answer.1 ∧ s = answer.2 := by simpa using h
    exact ⟨answer.1, rfl, htime.symm⟩

/-- What a run waits for that has no answer yet comes with its timer. -/
lemma awaited_of_timer {t : Timer Alarm} (hready : r.ready = none) (htimers : r.timers = [t]) :
    r.awaited = [(t.due, t.wake.settlement)] := by
  rw [awaited, hready, htimers]
  rfl

section

variable (hr : r.Sound plan) (hscope : plan.scope = .loop)
include hr hscope

/-- The program around a loop does not end. -/
lemma Step.exit_loop (h : Step r r') (hexit : r.exit = none) : r'.exit = none := by
  have hplan := hr.plan_eq
  cases h with
  | @goOn s _ hready =>
    have hgoes : GoesOnFrom { r with ready := none } s := hr.goesOnFrom hscope hready
    exact (hgoes.exit_resume (by rw [← hscope, ← hplan])).trans hexit
  | fire =>
    unfold Run.fire
    split
    · exact hexit
    · next t rest hnext =>
      obtain ⟨-, -, hgrace⟩ := hr.timers_eq_singleton hscope hnext
      cases hwake : t.wake with
      | grace => simp [hwake, Alarm.isGrace] at hgrace
      | pause | answer s => exact hexit
  | wait => exact hexit
  | signal name =>
    rw [hr.deliver_loop hscope]
    exact hexit
  | abort => exact r.abort_frame.2.1.trans hexit

/-- A pause that lasts has its timer. -/
lemma Sound.exists_pause (hphase : r.phase = .pausing) (hready : r.ready = none) :
    r.coordinator.isAborted = false ∧ ∃ due, r.timers = [⟨due, .pause⟩] := by
  rw [(hr.timers_loop hscope).2]
  cases hr with
  | awaiting _ hat => exact absurd hphase hat.ne_pausing
  | ended _ hended => simp [hphase] at hended
  | pausing _ _ hpauses =>
    cases hpauses with
    | elapsed hsome => simp [hready] at hsome
    | lasting _ ha _ hdrives => exact ⟨ha, _, hdrives⟩

/-- An abort ends a pause. -/
lemma Sound.awaited_abort (hphase : r.phase = .pausing) (ha : r.coordinator.isAborted = false)
    (hawaited : r.awaited = [(time, .fulfilled .nothing)]) :
    r.abort.awaited = [(r.journal.now, .fulfilled .nothing)] := by
  cases hready : r.ready with
  | none =>
    obtain ⟨-, due, htimers⟩ := hr.exists_pause hscope hphase hready
    simp [Run.abort, ha, endPause, Run.note, hphase, hready, htimers, Timers.cancel, awaited,
      Journal.add]
  | some s =>
    have htimers := hr.timers_of_ready hscope hready
    have hi := interrupted_abort (r := r) (.inr (by simp [hready]))
    have hs : s = .fulfilled .nothing := by
      rw [awaited_of_ready hready htimers] at hawaited
      exact (Prod.mk.inj (List.cons.inj hawaited).1).2
    rw [awaited_of_ready (hi.ready.trans hready) (hi.timers.trans htimers), hi.journal.now, hs]

omit hscope in
/-- What a loop waits for does not lie in the past. -/
lemma Sound.le_of_awaited (hexit : r.exit = none) {x : Nat × Settlement} (hx : x ∈ r.awaited) :
    r.journal.now ≤ x.1 := by
  obtain ⟨p, hp⟩ := hr.exists_stands
  rcases List.mem_append.mp hx with hx | hx
  · obtain ⟨s, -, rfl⟩ := Option.map_eq_some_iff.mp (Option.mem_toList.mp hx)
    exact Nat.le_refl _
  · obtain ⟨t, ht, rfl⟩ := List.mem_map.mp hx
    exact hp.due hexit t ht

end

namespace OnTime

/-- Time may pass, if what is waited for still comes when it did. -/
lemma later (h : OnTime plan r) (hphase : r'.phase = r.phase) (hplan : r'.plan = r.plan)
    (htally : r'.tally = r.tally) (hj : r'.journal.entries = r.journal.entries)
    (hc : r'.coordinator = r.coordinator) (hnow : r.journal.now ≤ r'.journal.now)
    (hawaited : r'.awaited = r.awaited) : OnTime plan r' := by
  cases h with
  | invoking hp htold hd hcoming =>
    exact .invoking (hphase.trans hp) (htold.set hplan htally hj hc) (hd.later hnow)
      (hawaited.trans hcoming)
  | publishing hp htold hd hcalled hsuccess hcoming =>
    exact .publishing (hphase.trans hp) (htold.set hplan htally hj hc) (hd.later hnow) hcalled
      hsuccess (hawaited.trans hcoming)
  | pausing hp htold hd hsettled hgoes hcoming =>
    exact .pausing (hphase.trans hp) (htold.set hplan htally hj hc) (hd.later hnow) hsettled hgoes
      (hawaited.trans hcoming)
  | stopped hp htold hd hhalted hgoes hsettled hcoming =>
    exact .stopped (hphase.trans hp) (htold.set hplan htally hj hc) (hd.later hnow) hhalted hgoes
      hsettled (hawaited.trans hcoming)
  | failed hfails =>
    obtain ⟨e, he⟩ := hfails
    exact .failed ⟨e, hphase.trans he⟩

section

variable (hr : r.Sound plan) (hscope : plan.scope = .loop)
include hr hscope

lemma resume (h : OnTime plan r) (hpace : plan.pace = .timed) (hready : r.ready = some s) :
    OnTime plan ({ r with ready := none }.resume s) := by
  have htimers := hr.timers_of_ready hscope hready
  have hawaited := awaited_of_ready hready htimers
  have hbusy : ∀ {n m d}, Told plan n m d r →
      Busy plan r.journal.now n m d { r with ready := none } := fun htold =>
    ⟨htold.set rfl rfl rfl rfl, rfl, rfl, htimers⟩
  cases h with
  | @invoking n began d name hphase htold hd hcoming =>
    obtain ⟨after, hcalled, htime⟩ := exists_answer (hawaited.symm.trans hcoming)
    have hheard := (hbusy htold).aside (e := .answered .invoke s) rfl
    have hnot : ({ r with ready := none }.note (.answered .invoke s)).phase ≠ .pausing := by
      simp [Run.note, hphase]
    simp only [Run.resume, hphase] at hheard hnot ⊢
    cases s with
    | rejected e =>
      obtain ⟨hspan, hsent⟩ := Plan.span?_of_answer hcalled rfl
      have hend := Plan.slotAt_of_span? hspan began
      rw [htime] at hend
      rw [← hsent] at hheard
      exact hheard.failAttempt hscope hpace hd hend hnot _ _
    | fulfilled a =>
      obtain rfl := Reply.answer_of_fulfilled hcalled
      exact hheard.invoked hscope hpace hd hcalled htime
  | @publishing n began d after answer hphase htold hd hcalled hsuccess hcoming =>
    obtain ⟨hspan, hsent⟩ := Plan.span?_of_success hcalled hsuccess
    obtain ⟨more, hdelivered, htime⟩ := exists_answer (hawaited.symm.trans hcoming)
    have hheard := (hbusy htold).aside (e := .answered .publish s) rfl
    have hnot : ({ r with ready := none }.note (.answered .publish s)).phase ≠ .pausing := by
      simp [Run.note, hphase]
    rw [← hsent] at hheard
    rw [hdelivered] at hspan
    have hend := Plan.slotAt_of_span? hspan began
    rw [← Nat.add_assoc, htime] at hend
    simp only [Run.resume, hphase] at hheard hnot ⊢
    cases s with
    | rejected e => exact hheard.failAttempt hscope hpace hd hend hnot _ _
    | fulfilled a => exact hheard.published hscope hpace hd hend
  | @pausing n d time hphase htold hd hsettled hgoes hcoming =>
    obtain ⟨rfl, rfl⟩ : r.journal.now = time ∧ s = .fulfilled .nothing := by
      simpa [hawaited] using hcoming
    have hrested := hbusy htold
    simp only [Run.resume, hphase] at hrested ⊢
    exact hrested.turn hscope hd hsettled hgoes
  | stopped _ _ _ _ _ _ hcoming => simp [hawaited] at hcoming
  | failed hfails =>
    obtain ⟨e, he⟩ := hfails
    obtain ⟨p, hfree, -⟩ := hr.exists_ends he
    simp [hfree.ready] at hready

/-- A timer brings what is waited for. -/
lemma fire (h : OnTime plan r) (hexit : r.exit = none) : OnTime plan r.fire := by
  obtain ⟨p, hp⟩ := hr.exists_stands
  unfold Run.fire
  split
  · exact h
  · next t rest hnext =>
    obtain ⟨hrest, hsingle, hgrace⟩ := hr.timers_eq_singleton hscope hnext
    have hready : r.ready = none := by
      by_contra hready
      obtain ⟨s, hs⟩ := Option.ne_none_iff_exists'.mp hready
      simp [hr.timers_of_ready hscope hs] at hsingle
    have hawaited := awaited_of_timer hready hsingle
    have hdue := (hp.due_next hexit hnext).1
    subst hrest
    cases hwake : t.wake with
    | grace => simp [hwake, Alarm.isGrace] at hgrace
    | pause | answer s =>
      rw [hwake] at hawaited
      exact h.later rfl rfl rfl rfl rfl hdue (hawaited ▸ awaited_of_ready rfl rfl)

omit hr hscope in
lemma wait (h : OnTime plan r) (htime : r.journal.now ≤ time)
    (hready : r.journal.now < time → r.ready = none) : OnTime plan (r.moveTo time) := by
  refine h.later rfl rfl rfl rfl rfl htime ?_
  rcases Nat.eq_or_lt_of_le htime with rfl | hlt
  · rfl
  · simp [awaited, Run.moveTo, hready hlt]

/-- An abort lets an attempt come to its end, and a pause come to an end at once. -/
lemma abort (h : OnTime plan r) (hexit : r.exit = none) : OnTime plan r.abort := by
  have hnow : r.abort.journal.now = r.journal.now := r.abort_frame.1
  have hphase' : r.abort.phase = r.phase := (undergoes_abort r).phase
  have hsame : r.phase ≠ .pausing → r.abort.awaited = r.awaited := fun hnot => by
    have hi := interrupted_abort (.inl hnot)
    rw [awaited, awaited, hi.ready, hi.timers, hnow]
  cases h with
  | invoking hphase htold hd hcoming =>
    exact .invoking (hphase'.trans hphase) htold.abort (hnow.symm ▸ hd.halt)
      ((hsame (by simp [hphase])).trans hcoming)
  | publishing hphase htold hd hcalled hsuccess hcoming =>
    exact .publishing (hphase'.trans hphase) htold.abort (hnow.symm ▸ hd.halt) hcalled hsuccess
      ((hsame (by simp [hphase])).trans hcoming)
  | @pausing n d time hphase htold hd hsettled hgoes hcoming =>
    cases ha : r.coordinator.isAborted with
    | true =>
      rw [abort_of_isAborted ha]
      exact .pausing hphase htold hd hsettled hgoes hcoming
    | false =>
      have hnone := htold.halted_eq_none ha
      have hle : r.journal.now ≤ time :=
        hr.le_of_awaited hexit (by rw [hcoming]; exact List.mem_singleton_self _)
      have hhalt : (d.halt r.journal.now).halted = some (r.journal.now, d.slots) := by
        rw [Diary.halt, hnone]
        rfl
      refine .pausing (hphase'.trans hphase) htold.abort (hnow.symm ▸ ⟨hd.slots, hd.ended⟩)
        hsettled (.waiting hhalt (fun s hs => hd.began_le hs) fun s hs => ?_)
        (hr.awaited_abort hscope hphase ha hcoming)
      cases hgoes with
      | due _ hdue =>
        obtain rfl := Option.some.inj (hdue.symm.trans hs)
        exact hle
      | waiting hhalted | underWay _ hhalted => simp [hnone] at hhalted
  | @stopped n m d time hphase htold hd hhalted hgoes hsettled hcoming =>
    have ha : r.coordinator.isAborted = true :=
      htold.aborted.trans (Option.isSome_iff_ne_none.mpr hhalted)
    rw [abort_of_isAborted ha]
    exact .stopped hphase htold hd hhalted hgoes hsettled hcoming
  | failed hfails =>
    obtain ⟨e, he⟩ := hfails
    exact .failed ⟨e, hphase'.trans he⟩

/-- One step of the world around a loop. -/
lemma step (h : OnTime plan r) (hpace : plan.pace = .timed) (hexit : r.exit = none)
    (hstep : Step r r') (hprompt : r.journal.now < r'.journal.now → r.ready = none) :
    OnTime plan r' := by
  cases hstep with
  | goOn _ hready => exact h.resume hr hscope hpace hready
  | fire => exact h.fire hr hscope hexit
  | wait htime => exact h.wait htime hprompt
  | signal name =>
    rw [hr.deliver_loop hscope]
    exact h
  | abort => exact h.abort hr hscope hexit

end

end OnTime

lemma Begins.onTime (h : Begins plan r) (hscope : plan.scope = .loop) :
    OnTime plan r ∧ r.exit = none := by
  have hcreate : ∀ console epoch, Busy plan 0 0 0 {} (create plan (.start console epoch)) :=
    fun _ _ => ⟨⟨rfl, rfl, rfl, rfl, rfl⟩, rfl, rfl, rfl⟩
  have hbetween : ∀ d : Diary, d.slots = [] → d.Between plan 0 0 := fun d hd =>
    ⟨hd, by simp [hd]⟩
  have hbegin : ∀ r' d, Busy plan 0 0 0 d r' → r'.exit = none → d.slots = [] → d.settled = [] →
      d.GoesOnAt plan 0 0 → OnTime plan r'.begin ∧ r'.begin.exit = none := by
    intro r' d h' hexit hslots hsettled hgoes
    have hscope' : r'.plan.scope = .loop := by rw [h'.plan, hscope]
    constructor
    · simp only [begin, hscope']
      exact h'.turn hscope (hbetween d hslots) hsettled hgoes
    · rw [r'.proceeds_self.begin.exit (by rw [hscope']; exact Scope.noConfusion), hexit]
  cases h with
  | @fresh console epoch => exact hbegin _ _ (hcreate console epoch) rfl rfl rfl (.due rfl rfl)
  | @aborted console epoch _ =>
    refine hbegin _ _ ((hcreate console epoch).abort Phase.noConfusion) ?_ rfl rfl
      (.waiting rfl (fun _ hs => absurd hs List.not_mem_nil) fun _ _ => Nat.zero_le _)
    exact (abort_frame (create plan (.start console epoch))).2.1

/-- A prompt loop is on time at every moment. -/
theorem Prompt.onTime (h : Prompt plan r) (hscope : plan.scope = .loop)
    (hpace : plan.pace = .timed) : OnTime plan r ∧ r.exit = none := by
  induction h with
  | begins hbegins => exact hbegins.onTime hscope
  | step hprompt hstep hnow ih =>
    have hr := hprompt.reached.sound
    exact ⟨ih.1.step hr hscope hpace ih.2 hstep hnow, hstep.exit_loop hr hscope ih.2⟩

end Run

end EdgeCaller.Sender

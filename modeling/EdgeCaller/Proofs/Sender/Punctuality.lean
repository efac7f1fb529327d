import EdgeCaller.Proofs.Sender.Cadence
/-!
What a timetable says of a loop.

A loop that is not aborted has begun, at every moment of rest, just the attempts that are due by
then. One that is aborted has begun those that it had begun before, and goes through them as it
would have done otherwise: so it has had the first of the attempts of a loop that is not aborted,
and ends at the abort, or with the attempt that was under way.
-/

namespace EdgeCaller.Sender

namespace Slot

variable {s : Slot} {now : Nat}

lemma asOf_of_ended {time : Nat} {outcome : Outcome} (h : s.ended = some (time, outcome))
    (hle : time ≤ now) : s.asOf now = s := by
  rw [asOf, h, Option.filter_some, if_pos (decide_eq_true hle), ← h]

lemma asOf_of_lt (h : ∀ time outcome, s.ended = some (time, outcome) → now < time) :
    s.asOf now = ⟨s.began, none⟩ := by
  rw [asOf, Option.filter_eq_none_iff.mpr]
  intro e he
  rw [decide_eq_true_eq, Nat.not_le]
  exact h e.1 e.2 he

end Slot

namespace Plan

variable {plan : Plan}

/-- The plan, without an abort of its own. -/
def unprompted (plan : Plan) : Plan :=
  { plan with
    abortOnInvoke := none, abortOnPublish := none, abortOnConsult := none, abortOnWait := none }

lemma Benign.unprompted (h : plan.Benign) : plan.unprompted.Benign :=
  ⟨h.statuses, h.invokes, h.publishes⟩

lemma sent_unprompted (plan : Plan) (n : Nat) : plan.unprompted.sent n = plan.sent n := by
  induction n with
  | zero => rfl
  | succ n ih => rw [sent, sent, ih]; rfl

lemma slot?_unprompted (plan : Plan) (n : Nat) : plan.unprompted.slot? n = plan.slot? n := by
  have hat : ∀ n began, plan.unprompted.slotAt n began = plan.slotAt n began := fun n began => by
    rw [slotAt, slotAt, span?, span?, sent_unprompted]
    rfl
  induction n with
  | zero => rw [slot?, slot?, hat]
  | succ n ih => simp only [slot?, ih, hat]; rfl

lemma slots_unprompted (plan : Plan) (n : Nat) : plan.unprompted.slots n = plan.slots n := by
  induction n with
  | zero => rfl
  | succ n ih => rw [Plan.slots, Plan.slots, ih, slot?_unprompted]

lemma timetable_unprompted (plan : Plan) (now : Nat) :
    plan.unprompted.timetable now = plan.timetable now := by
  rw [timetable, timetable, slots_unprompted]

end Plan

namespace Diary

variable {plan : Plan} {n m began now : Nat} {d : Diary}

lemma Between.begun (h : d.Between plan n now) : plan.Begun n now d.slots := by
  refine ⟨?_, fun s hs => h.began_le (h.slots ▸ hs)⟩
  have hpast : ∀ s ∈ d.slots, s.asOf now = id s := fun s hs => by
    obtain ⟨time, outcome, hended, hle⟩ := h.ended s hs
    exact Slot.asOf_of_ended hended hle
  rw [← h.slots, List.map_congr_left hpast, List.map_id]

/-- The attempt that is under way is still to end. -/
lemma During.begun (h : d.During plan n began now)
    (hahead : ∀ time outcome, (plan.slotAt n began).ended = some (time, outcome) → now < time) :
    plan.Begun (n + 1) now d.slots := by
  rw [h.slots]
  constructor
  · have hpast : ∀ s ∈ plan.slots n, s.asOf now = id s := fun s hs => by
      obtain ⟨time, outcome, hended, hle⟩ := Plan.ended_before h.due hs
      exact Slot.asOf_of_ended hended (Nat.le_trans hle h.began_le)
    rw [Plan.slots_succ h.due, List.map_cons, Slot.asOf_of_lt hahead, List.map_congr_left hpast,
      List.map_id]
    rfl
  · intro s hs
    rw [Plan.slots_succ h.due] at hs
    rcases List.mem_cons.mp hs with rfl | hs
    · exact h.began_le
    · exact Nat.le_trans (Plan.began_le_of_mem h.due hs) h.began_le

/-- The attempt after the one that is under way is still to begin. -/
lemma During.lt_next (h : d.During plan n began now)
    (hahead : ∀ time outcome, (plan.slotAt n began).ended = some (time, outcome) → now < time)
    {s : Slot} (hs : plan.slot? (n + 1) = some s) : now < s.began := by
  obtain ⟨before, hbefore, time, outcome, hended, hbegan⟩ := Plan.exists_follows hs
  obtain rfl := Option.some.inj (h.due.symm.trans hbefore)
  have hlt := hahead time outcome hended
  omega

lemma During.isChain (h : d.During plan n began now) :
    d.slots.IsChain (Slot.Follows (Timers.effectiveDelay plan.interval)) := by
  have hchain := plan.isChain_slots (n + 1)
  rw [Plan.slots_succ h.due] at hchain
  rw [h.slots]
  cases hbefore : plan.slots n with
  | nil => exact .singleton _
  | cons s before =>
    rw [hbefore, List.isChain_cons_cons] at hchain
    exact .cons_cons hchain.1 hchain.2

/-- What the diary of a loop says at a moment of rest. -/
inductive Rests (plan : Plan) (now : Nat) (d : Diary) : Prop where
  | during {n began : Nat} : d.During plan n began now →
      (∀ time outcome, (plan.slotAt n began).ended = some (time, outcome) → now < time) →
      Rests plan now d
  | pausing {n time : Nat} : d.Between plan n now → d.halted = none →
      plan.slot? n = some (plan.slotAt n time) → now < time → Rests plan now d
  | stopped {n time : Nat} : d.Between plan n now → d.halted ≠ none → d.GoesOnAt plan n time →
      d.settled = [(time, .fulfilled .nothing)] → Rests plan now d

namespace Rests

/-- Which attempts have begun at a moment of rest. The next one is still to come, or, if the work is
aborted, would not have come before the abort. -/
lemma exists_begun (h : d.Rests plan now) : ∃ n, plan.Begun n now d.slots ∧
    (d.halted = none → ∀ s, plan.slot? n = some s → now < s.began) ∧
    ∀ a before, d.halted = some (a, before) → ∀ s, plan.slot? n = some s → a ≤ s.began := by
  cases h with
  | @during n began hd hahead =>
    refine ⟨n + 1, hd.begun hahead, fun _ s hs => hd.lt_next hahead hs, fun a before ha s hs => ?_⟩
    obtain ⟨-, hle, -⟩ := hd.halted a before ha
    have hlt := hd.lt_next hahead hs
    exact Nat.le_of_lt (Nat.lt_of_le_of_lt hle hlt)
  | @pausing n time hd hnone hdue hlt =>
    refine ⟨n, hd.begun, fun _ s hs => ?_, fun a before ha => by simp [hnone] at ha⟩
    obtain rfl := Option.some.inj (hdue.symm.trans hs)
    exact hlt
  | @stopped n time hd hhalted hgoes hsettled =>
    refine ⟨n, hd.begun, fun hnone => absurd hnone hhalted, fun a before ha s hs => ?_⟩
    cases hgoes with
    | due hnone => exact absurd hnone hhalted
    | waiting hhalt _ hnext =>
      obtain ⟨rfl, -⟩ := Prod.mk.inj (Option.some.inj (hhalt.symm.trans ha))
      exact hnext s hs
    | underWay hn hhalt _ hle hdue =>
      obtain ⟨rfl, -⟩ := Prod.mk.inj (Option.some.inj (hhalt.symm.trans ha))
      rw [hn, Plan.slot?_succ hdue rfl] at hs
      rw [← Option.some.inj hs]
      exact Nat.le_trans hle (Nat.le_add_right _ _)

/-- What has begun in a loop that is aborted had begun by the abort. -/
lemma began_le_of_halted {a : Nat} {before : List Slot} (h : d.Rests plan now)
    (ha : d.halted = some (a, before)) {s : Slot} (hs : s ∈ d.slots) : s.began ≤ a := by
  cases h with
  | @during n began hd _ =>
    obtain ⟨hbegan, -, -⟩ := hd.halted a before ha
    rw [hd.slots] at hs
    rcases List.mem_cons.mp hs with rfl | hs
    · exact hbegan
    · exact Nat.le_trans (Plan.began_le_of_mem hd.due hs) hbegan
  | pausing _ hnone => simp [hnone] at ha
  | stopped hd hhalted hgoes =>
    cases hgoes with
    | due hnone => exact absurd hnone hhalted
    | waiting hhalt hpast =>
      obtain ⟨rfl, -⟩ := Prod.mk.inj (Option.some.inj (hhalt.symm.trans ha))
      exact hpast s hs
    | underWay hn hhalt hbegan _ hdue =>
      obtain ⟨rfl, -⟩ := Prod.mk.inj (Option.some.inj (hhalt.symm.trans ha))
      rw [hd.slots, hn, Plan.slots_succ hdue] at hs
      rcases List.mem_cons.mp hs with rfl | hs
      · exact hbegan
      · exact Nat.le_trans (Plan.began_le_of_mem hdue hs) hbegan

/-- A loop that is aborted between two attempts has ended then. -/
lemma settled_of_not_underWay {a : Nat} {before : List Slot} (h : d.Rests plan now)
    (ha : d.halted = some (a, before)) (hnot : isUnderWay before = false) :
    d.settled = [(a, .fulfilled .nothing)] := by
  cases h with
  | during hd =>
    obtain ⟨-, -, rfl⟩ := hd.halted a before ha
    rw [hd.slots] at hnot
    simp [isUnderWay] at hnot
  | pausing _ hnone => simp [hnone] at ha
  | stopped _ hhalted hgoes hsettled =>
    cases hgoes with
    | due hnone => exact absurd hnone hhalted
    | waiting hhalt =>
      obtain ⟨rfl, -⟩ := Prod.mk.inj (Option.some.inj (hhalt.symm.trans ha))
      exact hsettled
    | underWay _ hhalt =>
      obtain ⟨-, rfl⟩ := Prod.mk.inj (Option.some.inj (hhalt.symm.trans ha))
      simp [isUnderWay] at hnot

/-- A loop that is aborted during an attempt ends with it. -/
lemma settled_of_underWay {a : Nat} {before : List Slot} (h : d.Rests plan now)
    (ha : d.halted = some (a, before)) (hunderWay : isUnderWay before = true) :
    d.settled = ((d.slots.head?.bind Slot.ended).map fun (time, _) =>
      (time, Settlement.fulfilled .nothing)).toList := by
  cases h with
  | during hd =>
    rw [hd.slots, hd.settled]
    rfl
  | pausing _ hnone => simp [hnone] at ha
  | stopped hd hhalted hgoes hsettled =>
    cases hgoes with
    | due hnone => exact absurd hnone hhalted
    | waiting hhalt =>
      obtain ⟨-, rfl⟩ := Prod.mk.inj (Option.some.inj (hhalt.symm.trans ha))
      unfold isUnderWay at hunderWay
      split at hunderWay
      · simp at hunderWay
      · next s rest hslots =>
        obtain ⟨time, outcome, hended, -⟩ := hd.ended s (by rw [hslots]; exact List.mem_cons_self)
        simp [hended] at hunderWay
    | underWay hn _ _ _ hdue =>
      rw [hsettled, hd.slots, hn, Plan.slots_succ hdue]
      rfl

end Rests

end Diary

namespace Run

variable {plan : Plan} {r : Run}

/-- A loop that nothing goes wrong with, at a moment at which it has done all that is due. -/
structure Rested (plan : Plan) (r : Run) : Prop where
  prompt : Prompt plan r
  undisturbed : r.journal.Undisturbed
  ready : r.ready = none
  ahead : ∀ t ∈ r.timers, r.journal.now < t.due

lemma Sound.not_fails (h : r.Sound plan) (hscope : plan.scope = .loop) (hb : plan.Benign)
    (hu : r.journal.Undisturbed) : ¬ r.Fails := by
  have hplan := h.plan_eq
  obtain ⟨p, -, hp⟩ := h.rests (by rw [hplan, hscope]) ⟨hu, by rw [hplan]; exact hb⟩
  rintro ⟨e, he⟩
  have hs := (hp.ended he).1
  simp at hs

/-- Once the work is aborted there is no pause. -/
lemma Sound.not_mem_pause (h : r.Sound plan) (hscope : plan.scope = .loop)
    (ha : r.coordinator.isAborted = true) (due : Nat) : ⟨due, .pause⟩ ∉ r.timers := by
  intro hmem
  rw [(h.timers_loop hscope).2] at hmem
  cases h with
  | awaiting _ _ hawaits =>
    cases hawaits with
    | never _ hdrives | answered _ hdrives | coming _ hdrives => simp [hdrives] at hmem
  | pausing _ _ hpauses =>
    cases hpauses with
    | elapsed _ hdrives => simp [hdrives] at hmem
    | lasting _ hfalse => simp [hfalse] at ha
  | ended hfree => simp [hfree.drives] at hmem

section

variable (hscope : plan.scope = .loop) (hpace : plan.pace = .timed) (hb : plan.Benign)
include hscope hpace hb

lemma Prompt.isChain_attempts (h : Prompt plan r) (hu : r.journal.Undisturbed) :
    r.attempts.IsChain (Slot.Follows (Timers.effectiveDelay plan.interval)) := by
  cases (h.onTime hscope hpace).1 with
  | invoking _ htold hd | publishing _ htold hd =>
    rw [attempts, htold.diary]
    exact hd.isChain
  | pausing _ htold hd | stopped _ htold hd =>
    rw [attempts, htold.diary, hd.slots]
    exact plan.isChain_slots _
  | failed hfails => exact absurd hfails (h.reached.sound.not_fails hscope hb hu)

lemma Rested.rests (h : Rested plan r) :
    (diary r.journal.entries).Rests plan r.journal.now := by
  have hahead : ∀ x ∈ r.awaited, r.journal.now < x.1 := by
    intro x hx
    rw [awaited, h.ready] at hx
    obtain ⟨t, ht, rfl⟩ := List.mem_map.mp hx
    exact h.ahead t ht
  have hr := h.prompt.reached.sound
  cases (h.prompt.onTime hscope hpace).1 with
  | @invoking n began d name _ htold hd hcoming =>
    rw [htold.diary]
    refine .during hd fun time outcome hended => ?_
    obtain ⟨after, hspan, htime⟩ := Plan.exists_span hended
    obtain ⟨first, answer, hcalled, hle⟩ := Plan.exists_called hspan
    have hlt := hahead (began + first, answer) (by rw [hcoming, hcalled]; simp)
    omega
  | @publishing n began d after answer _ htold hd hcalled hsuccess hcoming =>
    rw [htold.diary]
    refine .during hd fun time outcome hended => ?_
    obtain ⟨total, hspan, htime⟩ := Plan.exists_span hended
    rw [(Plan.span?_of_success hcalled hsuccess).1] at hspan
    obtain ⟨⟨more, answer'⟩, hdelivered, heq⟩ := Option.map_eq_some_iff.mp hspan
    have hlt := hahead (began + after + more, answer') (by rw [hcoming, hdelivered]; simp)
    have htotal : after + more = total := congrArg Prod.fst heq
    omega
  | @pausing n d time hphase htold hd hsettled hgoes hcoming =>
    rw [htold.diary]
    have hnone := htold.halted_eq_none (hr.exists_pause hscope hphase h.ready).1
    cases hgoes with
    | due _ hdue =>
      have hlt := hahead (time, .fulfilled .nothing) (by rw [hcoming]; simp)
      exact .pausing hd hnone hdue hlt
    | waiting hhalt | underWay _ hhalt => simp [hnone] at hhalt
  | stopped _ htold hd hhalted hgoes hsettled _ =>
    rw [htold.diary]
    exact .stopped hd hhalted hgoes hsettled
  | failed hfails => exact absurd hfails (hr.not_fails hscope hb h.undisturbed)

/-- A loop that is not aborted has begun what is due. -/
lemma Rested.attempts_eq (h : Rested plan r) (ha : r.coordinator.isAborted = false) :
    r.attempts = plan.timetable r.journal.now := by
  obtain ⟨n, hbegun, hnext, -⟩ := (h.rests hscope hpace hb).exists_begun
  refine (hbegun.timetable_eq (hnext ?_)).symm
  obtain ⟨p, hp⟩ := h.prompt.reached.sound.exists_stands
  refine Diary.halted_eq_none fun hmem => ?_
  have htrue := hp.history.aborted_of_mem hmem
  rw [ha] at htrue
  simp at htrue

/-- A loop that is aborted has had the first of the attempts in the timetable. -/
lemma Rested.timetable_append (h : Rested plan r) {a : Nat} {before : List Slot}
    (ha : (diary r.journal.entries).halted = some (a, before)) :
    ∃ later, plan.timetable r.journal.now = later ++ r.attempts ∧ ∀ s ∈ later, a ≤ s.began := by
  obtain ⟨n, hbegun, -, hnext⟩ := (h.rests hscope hpace hb).exists_begun
  obtain ⟨later, heq, hlater⟩ := hbegun.timetable_append
  refine ⟨later, heq, fun s hs => ?_⟩
  obtain ⟨-, next, hdue, hbegan⟩ := hlater s hs
  exact Nat.le_trans (hnext a before ha next hdue) hbegan

end

/-- **A timed loop keeps to its timetable.** At whatever moment it comes to rest, a loop that is not
aborted has begun what is due, and no attempt begins but after a pause, as long as the delay of its
timer, that follows the end of the one before. A loop that is aborted has begun those attempts only
that it had begun when that happened, at the same times at which a loop begins them that is not
aborted, and with the same outcomes. It ends at the abort if no attempt was under way then, and else
with that attempt, and no timer of a pause is left.

That an attempt ends with the answer to the last of its calls is what `Plan.span?` says. -/
theorem keeps_timetable (plan : Plan) (hscope : plan.scope = .loop) (hpace : plan.pace = .timed)
    (hb : plan.Benign) :
    (∀ console epoch aborted past,
      (course plan console epoch aborted past).journal.Undisturbed →
      Rested plan (course plan console epoch aborted past)) ∧
    (∀ r, Prompt plan r → r.journal.Undisturbed →
      r.attempts.IsChain (Slot.Follows (Timers.effectiveDelay plan.interval))) ∧
    (∀ r, Rested plan r → r.coordinator.isAborted = false →
      r.attempts = plan.timetable r.journal.now) ∧
    (∀ r, Prompt plan r → r.coordinator.isAborted = true → ∀ due, ⟨due, .pause⟩ ∉ r.timers) ∧
    ∀ r new a id past, Rested plan r → r.journal.entries = new ++ ⟨a, .abort id⟩ :: past →
      r.attempts.map Slot.began = (diary past).slots.map Slot.began ∧
      (∀ s ∈ r.attempts, s.began ≤ a) ∧
      (∀ u, Rested plan.unprompted u → u.coordinator.isAborted = false →
        u.journal.now = r.journal.now →
        ∃ later, u.attempts = later ++ r.attempts ∧ ∀ s ∈ later, a ≤ s.began) ∧
      (isUnderWay (diary past).slots = false → r.settlements = [(a, .fulfilled .nothing)]) ∧
      (isUnderWay (diary past).slots = true →
        r.settlements = ((r.attempts.head?.bind Slot.ended).map fun (time, _) =>
          (time, Settlement.fulfilled .nothing)).toList) := by
  refine ⟨fun console epoch aborted past hu => ?_,
    fun _ hprompt hu => hprompt.isChain_attempts hscope hpace hb hu,
    fun _ hr ha => hr.attempts_eq hscope hpace hb ha,
    fun _ hprompt ha due => hprompt.reached.sound.not_mem_pause hscope ha due,
    fun r new a id past hr hentries => ?_⟩
  · obtain ⟨htimely, hready⟩ := timely_course hscope hpace console epoch aborted past
    exact ⟨htimely.prompt, hu, hready, htimely.ahead⟩
  · obtain ⟨p, -, hhistory⟩ := hr.prompt.reached.sound.exists_history
    rw [hentries] at hhistory
    have hhalted := Diary.halted_of_abort hhistory
    have hmem : .abort ∈ marks (⟨a, .abort id⟩ :: past) := List.mem_cons_self
    have hbegan := Diary.map_began_append hhistory hmem
    rw [← hentries] at hhalted hbegan
    have hrests := hr.rests hscope hpace hb
    refine ⟨hbegan, fun s hs => hrests.began_le_of_halted hhalted hs, fun u hu hua hnow => ?_,
      hrests.settled_of_not_underWay hhalted, hrests.settled_of_underWay hhalted⟩
    have hscope' : plan.unprompted.scope = .loop := hscope
    have hpace' : plan.unprompted.pace = .timed := hpace
    rw [hu.attempts_eq hscope' hpace' hb.unprompted hua, hnow, Plan.timetable_unprompted]
    exact hr.timetable_append hscope hpace hb hhalted

/-- A connection that takes its time over every call. -/
def leisurely : Plan where
  scope := .loop
  link := .direct
  script := {
    invokes := [{ course := .succeeds 20 }]
    publishes := [{ course := .succeeds 5 }] }
  target := ⟨"device", "module"⟩
  interval := 1000

lemma leisurely_benign : leisurely.Benign where
  statuses reply hreply := ⟨successStatus, by rw [List.mem_singleton.mp hreply]⟩
  invokes reply hreply e he := by
    rw [List.mem_singleton.mp hreply] at he
    simp [Reply.failure?] at he
  publishes reply hreply e he := by
    rw [List.mem_singleton.mp hreply] at he
    simp [Reply.failure?] at he

/-- Its loop, under a console that prints errors only. -/
def strolling (past : List Stimulus) : Run :=
  course leisurely ⟨.from .error, none, 0⟩ 0 false past

/-- A loop over it that is aborted during its second attempt ends with that. If it were not, there
would be a third one by now. -/
theorem keeps_timetable_leisurely :
    (∃ later, (strolling [.pass 3030]).attempts =
        later ++ (strolling [.pass 2000, .abort, .pass 1030]).attempts ∧
      ∀ s ∈ later, 1030 ≤ s.began) ∧
    (strolling [.pass 3030]).attempts.map Slot.began = [2050, 1025, 0] ∧
    (strolling [.pass 2000, .abort, .pass 1030]).attempts =
      [⟨1025, some (1050, .published)⟩, ⟨0, some (25, .published)⟩] ∧
    (strolling [.pass 2000, .abort, .pass 1030]).settlements = [(1050, .fulfilled .nothing)] := by
  obtain ⟨hrested, -, -, -, haborted⟩ := keeps_timetable leisurely rfl rfl leisurely_benign
  have hr : Rested leisurely (strolling [.pass 2000, .abort, .pass 1030]) :=
    hrested _ _ _ _ ⟨by decide +kernel, by decide +kernel, by decide +kernel⟩
  have hu : Rested leisurely.unprompted (strolling [.pass 3030]) :=
    hrested _ _ _ _ ⟨by decide +kernel, by decide +kernel, by decide +kernel⟩
  have hattempts : (strolling [.pass 2000, .abort, .pass 1030]).attempts =
      [⟨1025, some (1050, .published)⟩, ⟨0, some (25, .published)⟩] := by
    decide +kernel
  have hhalted : (diary (strolling [.pass 2000, .abort, .pass 1030]).journal.entries).halted =
      some (1030, [⟨1025, none⟩, ⟨0, some (25, .published)⟩]) := by
    decide +kernel
  obtain ⟨new, id, past, hentries, hslots⟩ := Diary.exists_abort hhalted
  obtain ⟨-, -, hlater, -, hends⟩ := haborted _ new 1030 id past hr hentries
  rw [hattempts, hslots] at hends
  exact ⟨hlater _ hu (by decide +kernel) (by decide +kernel), by decide +kernel, hattempts,
    hends rfl⟩

end Run

end EdgeCaller.Sender

import EdgeCaller.Proofs.Sender.Failures
import EdgeCaller.Proofs.Sender.Residue
import EdgeCaller.Proofs.Shutdown.Requests
/-!
When the exit of a sender is forced.

A sender that hears a signal has the grace period from then on to close its connection. Its exit is
forced at the end of that time, once, unless the connection was closed before the turn of the timer
came, and signals that come later change nothing. `Hearing` are the runs of a sender with the times
of the signals that were heard, and `Grace` says how its grace period stands.
-/

namespace EdgeCaller.Sender

/-- Closing the connection never fails. A module client sees to a failure itself, if it has words
for it. -/
def Plan.ClosesWell (plan : Plan) : Prop :=
  ∀ reply ∈ plan.script.closes, ∀ e, reply.failure? = some e → plan.link = .client ∧
    ∀ j, Journal.Undisturbed j → (Client.closeAnswered (.rejected e)).Succeeds j

/-- The connection was closed no later than this, and before the exit was forced. What a module
client answers does not matter. -/
def ClosedInTime (plan : Plan) (past : List Entry) (due : Nat) : Prop :=
  ∃ later x before s, past = later ++ x :: before ∧ x.event.mark = .answered .close s ∧
    (plan.link = .direct → s.isFulfilled = true) ∧ x.time ≤ due ∧ count Mark.isForced before = 0

namespace Run

/-- The runs of a plan that nothing but signals reaches, with the times at which one was heard, the
latest first. -/
inductive Hearing (plan : Plan) : List Nat → Run → Prop where
  | begins {r} : Begins plan r → Hearing plan [] r
  | goOn {times r s} : Hearing plan times r → r.exit = none → r.ready = some s →
      Hearing plan times ({ r with ready := none }.resume s)
  | fire {times r} : Hearing plan times r → r.exit = none → Hearing plan times r.fire
  | wait {times r time} : Hearing plan times r → r.journal.now ≤ time →
      (r.exit = none → ∀ t ∈ r.timers, time ≤ t.due) → Hearing plan times (r.moveTo time)
  | signal {times r} (name) : Hearing plan times r →
      Hearing plan (if r.hears name then r.journal.now :: times else times) (r.deliver name)

variable {plan : Plan} {r r' : Run} {times : List Nat} {s : Settlement}

lemma Hearing.reached (h : Hearing plan times r) : Reached plan r := by
  induction h with
  | begins hbegins => exact ⟨_, hbegins, .refl⟩
  | goOn _ hexit hready ih => exact ih.step (.goOn hexit hready)
  | fire _ hexit ih => exact ih.step (.fire hexit)
  | wait _ htime hdue ih => exact ih.step (.wait htime hdue)
  | signal name _ ih => exact ih.step (.signal name)

lemma Hearing.drainFor (h : Hearing plan times r) (fuel : Nat) :
    Hearing plan times (r.drainFor fuel) := by
  induction fuel generalizing r with
  | zero => exact h
  | succ fuel ih =>
    unfold Run.drainFor
    split
    · next hexit hready => exact ih (h.goOn hexit hready)
    · exact h

lemma Hearing.drain (h : Hearing plan times r) : Hearing plan times r.drain := h.drainFor _

/-- Every run of a sender is one that hears signals at some times. -/
lemma Reached.hearing (h : Reached plan r) (hscope : plan.scope.tearsDown = true) :
    ∃ times, Hearing plan times r := by
  obtain ⟨r₀, hbegins, hsteps⟩ := h
  suffices hheard : Reached plan r ∧ ∃ times, Hearing plan times r from hheard.2
  induction hsteps with
  | refl => exact ⟨⟨r₀, hbegins, .refl⟩, [], .begins hbegins⟩
  | @tail r r' _ hstep ih =>
    obtain ⟨hreached, times, hr⟩ := ih
    refine ⟨hreached.step hstep, ?_⟩
    cases hstep with
    | goOn hexit hready => exact ⟨times, hr.goOn hexit hready⟩
    | fire hexit => exact ⟨times, hr.fire hexit⟩
    | wait htime hdue => exact ⟨times, hr.wait htime hdue⟩
    | signal name => exact ⟨_, hr.signal name⟩
    | abort hdown =>
      rw [hreached.sound.plan_eq, hscope] at hdown
      simp at hdown

/-- How the grace period of a run stands: no signal was heard, its timer is pending, the exit was
forced by it, or the connection was closed in time. -/
inductive Grace (plan : Plan) (times : List Nat) (r : Run) : Prop where
  | unheard : times = [] → r.timers.graces = [] → count Mark.isForced r.journal.entries = 0 →
      Grace plan times r
  | pending {began} : times.getLast? = some began →
      r.timers.graces = [⟨began + Timers.effectiveDelay plan.gracePeriod, .grace⟩] →
      count Mark.isForced r.journal.entries = 0 → r.coordinator.latch.isSet = false →
      Grace plan times r
  | forced {began} (later x before) : times.getLast? = some began → r.timers.graces = [] →
      r.journal.entries = later ++ x :: before → x.event.mark = .forced →
      x.time = began + Timers.effectiveDelay plan.gracePeriod →
      count Mark.isForced later = 0 → count Mark.isForced before = 0 →
      (∀ s, .answered .close s ∉ marks before) → Grace plan times r
  | spared {began} : times.getLast? = some began → r.timers.graces = [] →
      count Mark.isForced r.journal.entries = 0 → r.coordinator.latch.isSet = true →
      ClosedInTime plan r.journal.entries (began + Timers.effectiveDelay plan.gracePeriod) →
      Grace plan times r

/-- A sender that heard signals at some times, and its grace period. -/
structure Graced (plan : Plan) (times : List Nat) (r : Run) : Prop where
  exit : r.exit = none
  aborted : r.coordinator.isAborted = true ↔ times ≠ []
  closed : (∃ s, .answered .close s ∈ marks r.journal.entries) ↔ r.coordinator.latch.isSet = true
  grace : Grace plan times r

/-! ### What changes nothing -/

lemma count_append (kind : Mark → Bool) (new past : List Entry) :
    count kind (new ++ past) = count kind new + count kind past := List.countP_append

lemma closedInTime_append {past : List Entry} {due : Nat} (h : ClosedInTime plan past due)
    (new : List Entry) : ClosedInTime plan (new ++ past) due := by
  obtain ⟨later, x, before, s, rfl, hx, hs, hdue, hnone⟩ := h
  exact ⟨new ++ later, x, before, s, by rw [List.append_assoc], hx, hs, hdue, hnone⟩

/-- `r'` is `r` after events none of which forces the exit or answers a call to close. -/
structure Idles (r r' : Run) : Prop where
  entries : ∃ new, r'.journal.entries = new ++ r.journal.entries ∧
    ∀ x ∈ new, x.event.mark.isForced = false ∧ x.event.mark.closure? = none
  latch : r'.coordinator.latch = r.coordinator.latch
  reason : r'.coordinator.reason = r.coordinator.reason
  graces : r'.timers.graces = r.timers.graces
  exit : r'.exit = r.exit

namespace Idles

lemma of_entries (hentries : r'.journal.entries = r.journal.entries)
    (hcoordinator : r'.coordinator = r.coordinator) (hgraces : r'.timers.graces = r.timers.graces)
    (hexit : r'.exit = r.exit) : r.Idles r' :=
  ⟨⟨[], hentries, by simp⟩, by rw [hcoordinator], by rw [hcoordinator], hgraces, hexit⟩

lemma of_proceeds (h : r.Proceeds r') (hscope : r.plan.scope ≠ .program)
    (hunprompted : r.plan.Unprompted) : r.Idles r' := by
  obtain ⟨new, hnew, hallowed⟩ := h.journal.entries
  refine ⟨⟨_, hnew, fun x hx => ?_⟩, h.latch, h.reason hunprompted, h.graces, h.exit hscope⟩
  obtain ⟨e, he, rfl⟩ := List.mem_map.mp hx
  have hown := (hallowed e he).resolve_right fun hprompted => hprompted.2 hunprompted
  cases hm : e.mark <;> simp_all [Mark.isOwn, Mark.isForced, Mark.closure?]

lemma count_forced (h : r.Idles r') :
    count Mark.isForced r'.journal.entries = count Mark.isForced r.journal.entries := by
  obtain ⟨new, hnew, hidle⟩ := h.entries
  have hnone : count Mark.isForced new = 0 := by
    rw [count, List.countP_eq_zero]
    exact fun x hx => by simp [(hidle x hx).1]
  rw [hnew, count_append, hnone, Nat.zero_add]

lemma mem_closures_iff (h : r.Idles r') :
    .answered .close s ∈ marks r'.journal.entries ↔
      .answered .close s ∈ marks r.journal.entries := by
  obtain ⟨new, hnew, hidle⟩ := h.entries
  have hnone : closures new = [] :=
    List.filterMap_eq_nil_iff.mpr fun x hx => (hidle x hx).2
  rw [← mem_closures, ← mem_closures, hnew, closures, List.filterMap_append]
  change s ∈ closures new ++ closures r.journal.entries ↔ _
  rw [hnone, List.nil_append]

lemma grace (h : r.Idles r') (hr : Grace plan times r) : Grace plan times r' := by
  obtain ⟨new, hnew, hidle⟩ := h.entries
  cases hr with
  | unheard hheard hgraces hcount =>
    exact .unheard hheard (h.graces.trans hgraces) (h.count_forced.trans hcount)
  | pending hheard hgraces hcount hlatch =>
    exact .pending hheard (h.graces.trans hgraces) (h.count_forced.trans hcount)
      (by rw [h.latch]; exact hlatch)
  | forced later x before hheard hgraces hentries hx htime hlater hbefore hclose =>
    have hnone : count Mark.isForced new = 0 := by
      rw [count, List.countP_eq_zero]
      exact fun x hx => by simp [(hidle x hx).1]
    refine .forced (new ++ later) x before hheard (h.graces.trans hgraces) ?_ hx htime ?_ hbefore
      hclose
    · rw [hnew, hentries, List.append_assoc]
    · rw [count_append, hnone, hlater]
  | spared hheard hgraces hcount hlatch hclosed =>
    refine .spared hheard (h.graces.trans hgraces) (h.count_forced.trans hcount)
      (by rw [h.latch]; exact hlatch) ?_
    rw [hnew]
    exact closedInTime_append hclosed new

lemma graced (h : r.Idles r') (hr : Graced plan times r) : Graced plan times r' where
  exit := h.exit.trans hr.exit
  aborted := by
    rw [Coordinator.isAborted, h.reason]
    exact hr.aborted
  closed := by
    rw [h.latch, ← hr.closed]
    exact exists_congr fun s => h.mem_closures_iff
  grace := h.grace hr.grace

end Idles

/-! ### The end of teardown -/

/-- A connection that closes well is closed by whatever answer comes, and the run is released. -/
lemma exists_released (hclose : r.plan.ClosesWell) {failure : Option Value}
    (hphase : r.phase = .closing failure) (hf : r.plan.Foresees (.closing failure) s)
    (hu : r.journal.Undisturbed) :
    (r.plan.link = .direct → s.isFulfilled = true) ∧
      ∃ r₁, (r.note (.answered .close s)).Remarked r₁ ∧ r₁.exit = r.exit ∧
        r₁.release.Proceeds (r.resume s) := by
  have hrejected : ∀ e, s = .rejected e → r.plan.link = .client ∧
      ∀ j, Journal.Undisturbed j → (Client.closeAnswered (.rejected e)).Succeeds j := by
    rintro e rfl
    obtain ⟨after, n, hreply⟩ := hf
    obtain ⟨reply, hmem, hfailure⟩ := Reply.mem_of_nth_rejected hreply
    exact hclose reply hmem e hfailure
  have hnoted : (r.note (.answered .close s)).journal.Undisturbed := ⟨hu.fault, hu.epoch, hu.now⟩
  refine ⟨fun hlink => ?_, ?_⟩
  · cases s with
    | fulfilled a => rfl
    | rejected e => exact absurd (hlink.symm.trans (hrejected e rfl).1) Link.noConfusion
  simp only [Run.resume, hphase, plan_note]
  cases hlink : r.plan.link with
  | direct =>
    cases s with
    | fulfilled a => exact ⟨_, ⟨rfl, .refl _ _, rfl, rfl, id⟩, rfl, proceeds_closed _ _⟩
    | rejected e => exact absurd (hlink.symm.trans (hrejected e rfl).1) Link.noConfusion
  | client =>
    obtain ⟨a, k, hact⟩ :
        (Client.closeAnswered s).Succeeds (r.note (.answered .close s)).journal := by
      cases s with
      | fulfilled a => exact ⟨(), _, rfl⟩
      | rejected e => exact (hrejected e rfl).2 _ hnoted
    have hj := Client.writes_closeAnswered (P := fun e => e.mark = .remark) (fun _ _ => rfl) s
      (r.note (.answered .close s)).journal
    rw [hact] at hj
    simp only [perform, hact]
    exact ⟨{ r.note (.answered .close s) with journal := k }, ⟨rfl, hj, rfl, rfl, id⟩, rfl,
      proceeds_closed _ _⟩

lemma entries_release (r : Run) : r.release.journal.entries =
    ⟨r.journal.now, .detached r.coordinator.id⟩ :: ⟨r.journal.now, .completed r.coordinator.id⟩ ::
      r.journal.entries := rfl

/-- What is added from the answer to the call to close until the run is released. -/
lemma exists_entries_release (hr : (r.note (.answered .close s)).Remarked r') :
    ∃ later, r'.release.journal.entries =
      later ++ ⟨r.journal.now, .answered .close s⟩ :: r.journal.entries ∧
        count Mark.isForced later = 0 := by
  obtain ⟨new, hnew, hremark⟩ := hr.journal.entries
  have hnone : count Mark.isForced (new.map (Entry.mk r.journal.now)) = 0 := by
    rw [count, List.countP_eq_zero]
    intro x hx
    obtain ⟨e, he, rfl⟩ := List.mem_map.mp hx
    simp [hremark e he, Mark.isForced]
  rw [entries_release, hnew]
  refine ⟨_ :: _ :: new.map (Entry.mk r.journal.now), rfl, ?_⟩
  rw [count_cons, count_cons, hnone]
  rfl

/-- Once the connection is closed the grace period is over, and was called off if it was pending. -/
lemma Graced.release (h : Graced plan times r) (hlatch : r.coordinator.latch.isSet = false)
    (hdue : ∀ t ∈ r.timers.graces, r.journal.now ≤ t.due)
    (hs : plan.link = .direct → s.isFulfilled = true)
    (hr : (r.note (.answered .close s)).Remarked r') (hexit : r'.exit = r.exit) :
    Graced plan times r'.release := by
  obtain ⟨later, hentries, hlater⟩ := exists_entries_release hr
  have hgraces : r'.release.timers.graces = [] := by
    rw [timers_release]
    exact Timers.graces_cancel_grace rfl _
  have hset : r'.release.coordinator.latch.isSet = true := r'.coordinator.latch.isSet_set
  have hcount : count Mark.isForced r'.release.journal.entries =
      count Mark.isForced r.journal.entries := by
    rw [hentries, count_append, hlater, count_cons, Nat.zero_add]
    rfl
  exact
    { exit := hexit.trans h.exit
      aborted := by
        have hreason : r'.release.coordinator.isAborted = r'.coordinator.isAborted := rfl
        rw [hreason, hr.coordinator]
        exact h.aborted
      closed := by
        refine iff_of_true ⟨s, ?_⟩ hset
        rw [hentries, marks, List.map_append]
        exact List.mem_append_right _ List.mem_cons_self
      grace := by
        cases h.grace with
        | unheard hheard _ hnone => exact .unheard hheard hgraces (hcount.trans hnone)
        | pending hheard hpending hnone _ =>
          refine .spared hheard hgraces (hcount.trans hnone) hset
            ⟨later, _, _, s, hentries, rfl, hs, ?_, hnone⟩
          exact hdue _ (by rw [hpending]; exact List.mem_singleton_self _)
        | forced later' x before hheard _ hforced hx htime hlater' hbefore hclosed =>
          refine .forced (later ++ ⟨r.journal.now, .answered .close s⟩ :: later') x before hheard
            hgraces ?_ hx htime ?_ hbefore hclosed
          · rw [hentries, hforced, List.append_assoc, List.cons_append]
          · rw [count_append, count_cons, hlater, hlater']
            rfl
        | spared _ _ _ hlatch' => exact absurd (hlatch.symm.trans hlatch') Bool.noConfusion }

/-! ### Steps -/

lemma idles_heard (h : ∀ failure, r.phase ≠ .closing failure) (s : Settlement) :
    r.Idles (r.heard s) := by
  have hnote : ∀ e : Event, e.mark.isForced = false → e.mark.closure? = none →
      r.Idles (r.note e) := fun e hforced hclosure =>
    ⟨⟨[⟨r.journal.now, e⟩], rfl, by simp [hforced, hclosure]⟩, rfl, rfl, rfl, rfl⟩
  cases hphase : r.phase with
  | closing failure => exact absurd hphase (h failure)
  | invoking name =>
    simp only [Run.heard, hphase]
    exact hnote _ rfl rfl
  | publishing =>
    simp only [Run.heard, hphase]
    exact hnote _ rfl rfl
  | idle | connecting | dialing | pausing | ended =>
    simp only [Run.heard, hphase]
    exact .of_entries rfl rfl rfl rfl

lemma Sound.foresees (h : r.Sound plan) (hready : r.ready = some s) (hphase : r.phase ≠ .pausing) :
    r.plan.Foresees r.phase s := by
  cases h with
  | awaiting _ _ hawaits =>
    cases hawaits with
    | never hnone => simp [hready] at hnone
    | coming hnone => simp [hready] at hnone
    | answered hsome _ hf => exact Option.some.inj (hready.symm.trans hsome) ▸ hf
  | pausing _ hpausing => exact absurd hpausing hphase
  | ended hfree =>
    have hnone := hfree.ready
    simp [hready] at hnone

lemma Graced.goOn (h : Graced plan times r) (hr : r.Sound plan) (hscope : plan.scope = .sender)
    (hclose : plan.ClosesWell) (hunprompted : plan.Unprompted) (hready : r.ready = some s)
    (hu : r.journal.Undisturbed) : Graced plan times ({ r with ready := none }.resume s) := by
  obtain rfl := hr.plan_eq
  have hinner : r.plan.scope ≠ .program := by rw [hscope]; exact Scope.noConfusion
  have hidles : r.Idles { r with ready := none } := .of_entries rfl rfl rfl rfl
  have hfree := hidles.graced h
  by_cases hclosing : ∃ failure, r.phase = .closing failure
  · obtain ⟨failure, hphase⟩ := hclosing
    have hf := hr.foresees hready (by rw [hphase]; exact Phase.noConfusion)
    rw [hphase] at hf
    obtain ⟨hs, r₁, hr₁, hexit, hproceeds⟩ :=
      exists_released (r := { r with ready := none }) hclose hphase hf hu
    obtain ⟨p, hp⟩ := hr.exists_stands
    have hreleased := hfree.release (hr.latch_of_closing hphase)
      (fun t ht => hp.due h.exit t (Timers.mem_graces.mp ht).1) hs hr₁ hexit
    have hplan : r₁.release.plan = r.plan := hr₁.plan
    exact (Idles.of_proceeds hproceeds (by rwa [hplan]) (by rwa [hplan])).graced hreleased
  · have hopen : ∀ failure, r.phase ≠ .closing failure := fun failure hphase =>
      hclosing ⟨failure, hphase⟩
    have hproceeds := proceeds_resume (r := { r with ready := none }) hopen s
    have hheard := idles_heard (r := { r with ready := none }) hopen s
    have hplan : (Run.heard { r with ready := none } s).plan = r.plan := by
      unfold Run.heard
      split <;> rfl
    exact (Idles.of_proceeds hproceeds (by rwa [hplan]) (by rwa [hplan])).graced
      (hheard.graced hfree)

lemma mark_of_isLine {e : Event} (h : e.isLine = true) : e.mark = .remark := by
  cases e <;> simp_all [Event.isLine, Event.mark]

/-- Lines change nothing, whenever they are written. -/
lemma idles_lines {time : Nat} {k : Journal}
    (hk : Journal.Extends (·.isLine = true) { r.journal with now := time } k) :
    r.Idles { r with journal := k } := by
  obtain ⟨new, hnew, hline⟩ := hk.entries
  refine ⟨⟨_, hnew, fun x hx => ?_⟩, rfl, rfl, rfl, rfl⟩
  obtain ⟨e, he, rfl⟩ := List.mem_map.mp hx
  rw [mark_of_isLine (hline e he)]
  exact ⟨rfl, rfl⟩

/-- The timer of the grace period forces the exit while the latch is not set. -/
lemma fire_grace (hscope : r.plan.scope = .sender) {due : Nat} {rest : Timers Alarm}
    (hnext : r.timers.next? = some (⟨due, .grace⟩, rest))
    (hlatch : r.coordinator.latch.isSet = false) (hu : r.fire.journal.Undisturbed) :
    ∃ k, Journal.Extends (·.isLine = true) { r.journal with now := due } k ∧ r.fire =
      { r with timers := rest, journal := k.add (.forceExit r.coordinator.id) } := by
  have hfire : r.fire = ({ r with timers := rest }.moveTo due).wake .grace := by
    unfold Run.fire
    rw [hnext]
  have hmoved : Journal.Undisturbed { r.journal with now := due } := by
    rw [hfire] at hu
    exact (undergoes_wake _ _).undisturbed hu
  obtain ⟨k, hk, hact⟩ := Coordinator.exec_graceEnded hlatch hmoved
  refine ⟨k, hk, ?_⟩
  rw [hfire]
  simp only [Run.wake, Run.moveTo, perform, hact, hscope, if_true]
  rfl

lemma Graced.force (h : Graced plan times r) {began : Nat} {rest : Timers Alarm} {k : Journal}
    {id : String} (hheard : times.getLast? = some began) (hrest : rest.graces = [])
    (hnone : count Mark.isForced r.journal.entries = 0)
    (hlatch : r.coordinator.latch.isSet = false)
    (hk : Journal.Extends (·.isLine = true)
      { r.journal with now := began + Timers.effectiveDelay plan.gracePeriod } k) :
    Graced plan times { r with timers := rest, journal := k.add (.forceExit id) } := by
  have hidles := idles_lines hk
  have hopen : ∀ s, .answered .close s ∉ marks k.entries := fun s hs => by
    have hset := h.closed.mp ⟨s, hidles.mem_closures_iff.mp hs⟩
    simp [hlatch] at hset
  refine ⟨h.exit, h.aborted, ?_, .forced [] ⟨k.now, .forceExit id⟩ k.entries hheard hrest rfl rfl
    hk.now rfl (hidles.count_forced.trans hnone) hopen⟩
  refine iff_of_false ?_ (by simp [hlatch])
  rintro ⟨s, hs⟩
  exact hopen s ((List.mem_cons.mp hs).resolve_left Mark.noConfusion)

lemma Graced.fire (h : Graced plan times r) (hscope : r.plan.scope = .sender)
    (hu : r.fire.journal.Undisturbed) : Graced plan times r.fire := by
  cases hnext : r.timers.next? with
  | none =>
    have hfire : r.fire = r := by
      unfold Run.fire
      rw [hnext]
    rwa [hfire]
  | some next =>
    obtain ⟨⟨due, wake⟩, rest⟩ := next
    have hfire : r.fire = ({ r with timers := rest }.moveTo due).wake wake := by
      unfold Run.fire
      rw [hnext]
    cases wake with
    | pause | answer s =>
      have hgraces := (Timers.drives_of_next? hnext rfl).1
      rw [hfire]
      refine Idles.graced ?_ h
      exact .of_entries rfl rfl hgraces rfl
    | grace =>
      have hmem : ⟨due, .grace⟩ ∈ r.timers.graces :=
        Timers.mem_graces.mpr ⟨(Timers.next?_eq_some hnext).1, rfl⟩
      cases h.grace with
      | unheard _ hnil | forced _ _ _ _ hnil | spared _ hnil =>
        rw [hnil] at hmem
        simp at hmem
      | pending hheard hpending hnone hlatch =>
        rw [hpending, List.mem_singleton, Timer.mk.injEq] at hmem
        obtain ⟨rfl, -⟩ := hmem
        have hlength := (Timers.graces_of_next? hnext rfl).2
        rw [hpending, List.length_singleton] at hlength
        obtain ⟨k, hk, hforced⟩ := fire_grace hscope hnext hlatch hu
        rw [hforced]
        exact h.force hheard (List.eq_nil_of_length_eq_zero (Nat.succ.inj hlength)) hnone hlatch hk

/-! ### Signals -/

lemma Sound.latch_of_listening (h : r.Sound plan) (hl : r.coordinator.listening = true) :
    r.coordinator.latch.isSet = false := by
  have hplace : ∀ p, p ≠ .completed → r.Stands plan p → r.coordinator.latch.isSet = false := by
    intro p hp hstands
    have hlistens := hstands.listening
    rw [hl] at hlistens
    have hp' : p.listens = true := (Bool.and_eq_true_iff.mp hlistens.symm).2
    rw [hstands.latch]
    cases p with
    | completed => exact absurd rfl hp
    | detached => simp [Place.listens] at hp'
    | _ => rfl
  cases h with
  | awaiting hstands hat =>
    refine hplace _ ?_ hstands
    generalize r.phase = phase at hat
    cases hat <;> exact Place.noConfusion
  | pausing hstands => exact hplace _ Place.noConfusion hstands
  | ended hfree _ hends =>
    refine hplace _ ?_ hfree.toStands
    rintro rfl
    cases hends with
    | broken _ hleave => simp [Place.mayLeave] at hleave
    | unopened hunarmed => simp [Place.unarmed] at hunarmed

/-- A later signal leaves the grace period as it is. -/
lemma Grace.again (h : Grace plan times r) (hheard : times ≠ []) (time : Nat) :
    Grace plan (time :: times) r := by
  have hlast : (time :: times).getLast? = times.getLast? := by
    cases times with
    | nil => exact absurd rfl hheard
    | cons u times => exact List.getLast?_cons_cons
  cases h with
  | unheard hnil => exact absurd hnil hheard
  | pending hfirst hgraces hcount hlatch =>
    exact .pending (hlast.trans hfirst) hgraces hcount hlatch
  | forced later x before hfirst hgraces hentries hx htime hlater hbefore hclose =>
    exact .forced later x before (hlast.trans hfirst) hgraces hentries hx htime hlater hbefore
      hclose
  | spared hfirst hgraces hcount hlatch hclosed =>
    exact .spared (hlast.trans hfirst) hgraces hcount hlatch hclosed

lemma Graced.request_again (h : Graced plan times r) (ha : r.coordinator.isAborted = true)
    (hu : r.journal.Undisturbed) (reason : String) :
    Graced plan (r.journal.now :: times) (r.request reason) := by
  obtain ⟨k, hk, hact⟩ := Coordinator.exec_request_again ha hu reason
  have hrequest : r.request reason = { r with journal := k } := by
    simp only [Run.request, perform, hact]
    rfl
  have hagain := (idles_lines hk).graced h
  have hheard := h.aborted.mp ha
  rw [hrequest]
  exact
    { exit := hagain.exit
      aborted := iff_of_true ha (List.cons_ne_nil _ _)
      closed := hagain.closed
      grace := hagain.grace.again hheard _ }

/-- The run after the first request to shut down. -/
lemma request_first_eq (ha : r.coordinator.isAborted = false)
    (hlatch : r.coordinator.latch.isSet = false) (hu : r.journal.Undisturbed) (reason : String) :
    ∃ k r₁, r.journal.Extends (·.isLine = true) k ∧ r.request reason = r₁ ∧
      r₁.journal = k.add (.abort r.coordinator.id) ∧
      r₁.coordinator = { r.coordinator with reason := some reason } ∧ r₁.exit = r.exit ∧
      r₁.timers.graces = r.timers.graces ++
        [⟨r.journal.now + Timers.effectiveDelay r.coordinator.gracePeriod, .grace⟩] := by
  obtain ⟨k, hk, hact⟩ := Coordinator.exec_request ha hu reason
  refine ⟨k, _, hk, rfl, ?_⟩
  obtain ⟨-, hj, hc, hgraces⟩ := endPause_frame { r with
    journal := k.add (.abort r.coordinator.id)
    coordinator := { r.coordinator with reason := some reason } }
  simp only [Run.request, perform, hact, if_true]
  rw [if_neg (by simp [hlatch])]
  refine ⟨hj, hc, ?_, ?_⟩
  · simp only [Run.endPause]
    split <;> rfl
  · rw [Timers.start, Timers.graces_add_grace, hgraces, hj, ← hk.now]
    rfl

/-- The first signal lets the grace period begin. -/
lemma Graced.request_first (h : Graced plan times r) (ha : r.coordinator.isAborted = false)
    (hlatch : r.coordinator.latch.isSet = false)
    (hperiod : r.coordinator.gracePeriod = plan.gracePeriod) (hu : r.journal.Undisturbed)
    (reason : String) : Graced plan (r.journal.now :: times) (r.request reason) := by
  obtain ⟨k, r₁, hk, hrequest, hj, hc, hexit, hstarted⟩ := request_first_eq ha hlatch hu reason
  obtain rfl : times = [] := by
    by_contra hheard
    simp [h.aborted.mpr hheard] at ha
  obtain ⟨hgraces, hnone⟩ : r.timers.graces = [] ∧ count Mark.isForced r.journal.entries = 0 := by
    cases h.grace with
    | unheard _ hnil hnone => exact ⟨hnil, hnone⟩
    | pending hfirst | forced _ _ _ hfirst | spared hfirst => simp at hfirst
  have hidles := idles_lines (r := r) hk
  rw [hrequest]
  exact
    { exit := hexit.trans h.exit
      aborted := iff_of_true (by rw [hc]; rfl) (List.cons_ne_nil _ _)
      closed := by
        rw [hc, ← h.closed, hj]
        refine exists_congr fun s => ?_
        rw [← hidles.mem_closures_iff]
        exact List.mem_cons.trans (or_iff_right Mark.noConfusion)
      grace := by
        have hfirst : [r.journal.now].getLast? = some r.journal.now := rfl
        refine .pending hfirst ?_ ?_ (by rw [hc]; exact hlatch)
        · rw [hstarted, hgraces, hperiod, List.nil_append]
        · rw [hj, Journal.entries_add, count_cons]
          exact hidles.count_forced.trans hnone }

lemma Graced.signal (h : Graced plan times r) (hr : r.Sound plan) (name : String)
    (hu : r.journal.Undisturbed) :
    Graced plan (if r.hears name then r.journal.now :: times else times) (r.deliver name) := by
  rw [Run.deliver]
  cases hhears : r.hears name with
  | false => exact h
  | true =>
    have hl : r.coordinator.listening = true := by
      by_contra hl
      simp [hears, Coordinator.listeners, hl] at hhears
    cases ha : r.coordinator.isAborted with
    | true => exact h.request_again ha hu name
    | false =>
      obtain ⟨p, hp⟩ := hr.exists_stands
      exact h.request_first ha (hr.latch_of_listening hl) hp.origin.2.2.2 hu name

/-! ### Every run of a sender -/

lemma Begins.graced (h : Begins plan r) (hscope : plan.scope = .sender)
    (hunprompted : plan.Unprompted) : Graced plan [] r := by
  cases h with
  | @fresh console epoch =>
    have hcreated : Graced plan [] (create plan (.start console epoch)) :=
      { exit := rfl
        aborted := iff_of_false Bool.noConfusion (not_not_intro rfl)
        closed := iff_of_false (fun ⟨_, hs⟩ => List.not_mem_nil hs) Bool.noConfusion
        grace := .unheard rfl rfl rfl }
    have hbegun := (create plan (.start console epoch)).proceeds_self.begin
    have hinner : plan.scope ≠ .program := by rw [hscope]; exact Scope.noConfusion
    exact (Idles.of_proceeds hbegun hinner hunprompted).graced hcreated
  | aborted hloop => exact absurd (hscope.symm.trans hloop) Scope.noConfusion

lemma Hearing.graced (h : Hearing plan times r) (hscope : plan.scope = .sender)
    (hclose : plan.ClosesWell) (hunprompted : plan.Unprompted) (hu : r.journal.Undisturbed) :
    Graced plan times r := by
  induction h with
  | begins hbegins => exact hbegins.graced hscope hunprompted
  | @goOn times r s hr hexit hready ih =>
    have hu₀ : r.journal.Undisturbed :=
      (extends_resume { r with ready := none } s).undisturbed_iff.mp hu
    exact (ih hu₀).goOn hr.reached.sound hscope hclose hunprompted hready hu₀
  | fire hr hexit ih =>
    have hsound := hr.reached.sound
    refine (ih ((undergoes_fire hsound hexit).undisturbed hu)).fire ?_ hu
    rw [hsound.plan_eq, hscope]
  | wait hr htime _ ih =>
    refine Idles.graced ?_ (ih ((undergoes_moveTo htime).undisturbed hu))
    exact .of_entries rfl rfl rfl rfl
  | @signal times r name hr ih =>
    have hu₀ := (undergoes_deliver r name).undisturbed hu
    exact (ih hu₀).signal hr.reached.sound name hu₀

/-- A sender whose connection closes well is quiet once it has ended. -/
lemma Graced.quiet (h : Graced plan times r) (hr : r.Sound plan) (hscope : plan.scope = .sender)
    (hu : r.journal.Undisturbed) (hs : r.phase = .ended s) : r.Quiet := by
  have hdown : r.plan.scope.tearsDown = true := by rw [hr.plan_eq, hscope]; rfl
  obtain ⟨p, hfree, hends⟩ := hr.exists_ends hs
  cases hends with
  | attempt hattempt =>
    rw [hattempt] at hdown
    simp [Scope.tearsDown] at hdown
  | stopped hloop | broken hloop =>
    rw [hloop] at hdown
    simp at hdown
  | unopened hunarmed =>
    have hdeaf : r.coordinator.listening = false := by
      rw [hfree.listening, Bool.and_eq_false_iff]
      right
      cases p <;> simp_all [Place.unarmed, Place.listens]
    exact ⟨hdown, hdeaf, hfree.ready, (hfree.timers_eq_drives hdeaf).trans hfree.drives⟩
  | unstarted _ hdisturbed => exact absurd hu hdisturbed
  | @unclosed s' =>
    have hclosures : closures r.journal.entries = [s'] := hfree.history.recalls
    have hset := h.closed.mp ⟨s', mem_closures.mp (by simp [hclosures])⟩
    rw [hfree.latch] at hset
    simp [Place.isComplete] at hset
  | failed | finished => exact hfree.quiet

/-- The exit of a sender that heard signals at some times is forced as it should be. -/
structure ForcesExit (plan : Plan) (times : List Nat) (r : Run) : Prop where
  unheard : times = [] → count Mark.isForced r.journal.entries = 0
  once : count Mark.isForced r.journal.entries ≤ 1
  onTime : ∀ x ∈ r.journal.entries, x.event.mark = .forced → ∃ began,
    times.getLast? = some began ∧ x.time = began + Timers.effectiveDelay plan.gracePeriod
  /-- While the timer is pending its turn has not come, and the connection is not closed. -/
  pending : ∀ t ∈ r.timers, t.wake = .grace → ∃ began, times.getLast? = some began ∧
    t.due = began + Timers.effectiveDelay plan.gracePeriod ∧ r.journal.now ≤ t.due ∧
    count Mark.isForced r.journal.entries = 0 ∧ ∀ s, .answered .close s ∉ marks r.journal.entries
  /-- Once a signal was heard and no timer is pending any more, either the exit was forced or the
  connection was closed before. -/
  exact : ∀ began, times.getLast? = some began → (∀ t ∈ r.timers, t.wake ≠ .grace) →
    (count Mark.isForced r.journal.entries = 1 ↔ ¬ ClosedInTime plan r.journal.entries
      (began + Timers.effectiveDelay plan.gracePeriod))
  /-- Once the run has ended nothing happens any more. -/
  quiet : ∀ s, r.phase = .ended s → ∀ r', Relation.ReflTransGen Step r r' →
    r'.journal.entries = r.journal.entries

lemma ne_forced_of_count {past : List Entry} (h : count Mark.isForced past = 0) :
    ∀ x ∈ past, x.event.mark ≠ .forced := by
  intro x hx hmark
  have hpos : 0 < count Mark.isForced past :=
    List.countP_pos_iff.mpr ⟨x, hx, by rw [hmark]; rfl⟩
  exact absurd h (Nat.ne_of_gt hpos)

lemma Grace.count_le_one (h : Grace plan times r) : count Mark.isForced r.journal.entries ≤ 1 := by
  cases h with
  | unheard _ _ hnone => rw [hnone]; exact Nat.zero_le _
  | pending _ _ hnone => rw [hnone]; exact Nat.zero_le _
  | spared _ _ hnone => rw [hnone]; exact Nat.zero_le _
  | forced later x before _ _ hentries hx _ hlater hbefore =>
    rw [hentries, count_append, hlater, count_cons, hbefore, hx]
    exact Nat.le_refl _

lemma Grace.time_of_forced (h : Grace plan times r) {x : Entry} (hx : x ∈ r.journal.entries)
    (hmark : x.event.mark = .forced) : ∃ began,
      times.getLast? = some began ∧ x.time = began + Timers.effectiveDelay plan.gracePeriod := by
  cases h with
  | unheard _ _ hnone => exact absurd hmark (ne_forced_of_count hnone x hx)
  | pending _ _ hnone => exact absurd hmark (ne_forced_of_count hnone x hx)
  | spared _ _ hnone => exact absurd hmark (ne_forced_of_count hnone x hx)
  | @forced began later y before hheard _ hentries _ htime hlater hbefore =>
    rw [hentries] at hx
    rcases List.mem_append.mp hx with hx | hx
    · exact absurd hmark (ne_forced_of_count hlater x hx)
    · rcases List.mem_cons.mp hx with rfl | hx
      · exact ⟨began, hheard, htime⟩
      · exact absurd hmark (ne_forced_of_count hbefore x hx)

/-- A connection whose closing was not answered before the exit was forced was not closed in time:
what comes after comes after the exit. -/
lemma not_closedInTime {later before : List Entry} {x : Entry} {due : Nat}
    (hx : x.event.mark = .forced) (hclose : ∀ s, .answered .close s ∉ marks before) :
    ¬ ClosedInTime plan (later ++ x :: before) due := by
  rintro ⟨later', y, before', s, hentries, hy, -, -, hnone⟩
  rcases List.append_eq_append_iff.mp hentries with ⟨mid, -, hmid⟩ | ⟨mid, hlater, hmid⟩
  · cases mid with
    | nil =>
      obtain ⟨rfl, rfl⟩ := List.cons.inj hmid
      simp [hx] at hy
    | cons z mid =>
      obtain ⟨rfl, rfl⟩ := List.cons.inj hmid
      refine hclose s (List.mem_map.mpr ⟨y, ?_, hy⟩)
      exact List.mem_append_right _ List.mem_cons_self
  · cases mid with
    | nil =>
      obtain ⟨rfl, rfl⟩ := List.cons.inj hmid
      simp [hx] at hy
    | cons z mid =>
      obtain ⟨rfl, rfl⟩ := List.cons.inj hmid
      exact absurd hx (ne_forced_of_count hnone x (List.mem_append_right _ List.mem_cons_self))

/-- **The exit is forced exactly when it should be.** Over a connection that closes well, a sender
that nothing but signals reaches is forced to exit at the end of the grace period that the first of
them began, once, and only if the connection was not closed before. -/
theorem Hearing.forcesExit (h : Hearing plan times r) (hscope : plan.scope = .sender)
    (hclose : plan.ClosesWell) (hunprompted : plan.Unprompted) (hu : r.journal.Undisturbed) :
    ForcesExit plan times r := by
  have hgraced := h.graced hscope hclose hunprompted hu
  have hsound := h.reached.sound
  refine
    { unheard := fun hnil => ?_
      once := hgraced.grace.count_le_one
      onTime := fun x => hgraced.grace.time_of_forced
      pending := fun t ht hwake => ?_
      exact := fun began hfirst hover => ?_
      quiet := fun s hs r' hsteps => ((hgraced.quiet hsound hscope hu hs).steps hsteps).2 }
  · cases hgraced.grace with
    | unheard _ _ hnone => exact hnone
    | pending hfirst | forced _ _ _ hfirst | spared hfirst =>
      rw [hnil] at hfirst
      simp at hfirst
  · have hmem : t ∈ r.timers.graces := Timers.mem_graces.mpr ⟨ht, by rw [hwake]; rfl⟩
    cases hgraced.grace with
    | unheard _ hnil | forced _ _ _ _ hnil | spared _ hnil =>
      rw [hnil] at hmem
      simp at hmem
    | @pending began hfirst hpending hnone hlatch =>
      rw [hpending] at hmem
      obtain rfl := List.mem_singleton.mp hmem
      obtain ⟨p, hp⟩ := hsound.exists_stands
      refine ⟨began, hfirst, rfl, hp.due hgraced.exit _ ht, hnone, fun s hs => ?_⟩
      have hset := hgraced.closed.mp ⟨s, hs⟩
      simp [hlatch] at hset
  · cases hgraced.grace with
    | unheard hnil =>
      rw [hnil] at hfirst
      simp at hfirst
    | pending _ hpending =>
      have hmem := Timers.mem_graces.mp (hpending ▸ List.mem_singleton_self _)
      exact absurd rfl (hover _ hmem.1)
    | forced later x before _ _ hentries hx _ hlater hbefore hopen =>
      rw [hentries]
      refine iff_of_true ?_ (not_closedInTime hx hopen)
      rw [count_append, hlater, count_cons, hbefore, hx]
      rfl
    | @spared began' hfirst' _ hnone _ hclosed =>
      obtain rfl := Option.some.inj (hfirst.symm.trans hfirst')
      exact iff_of_false (by rw [hnone]; exact Nat.zero_ne_one) (not_not_intro hclosed)

/-- A sender over a connection on which closing hangs. -/
def stuck : Plan where
  scope := .sender
  link := .direct
  script := { closes := [{ course := .never }] }
  target := ⟨"device", "module"⟩

lemma hearing_stuck : Hearing stuck [0] (signalled stuck).fire := by
  have hbegun : Hearing stuck [] (create stuck (.start { threshold := .from .error } 0)).begin :=
    .begins .fresh
  have hsignalled := hbegun.drain.signal "SIGTERM"
  have hears : (create stuck (.start { threshold := .from .error } 0)).begin.drain.hears
      "SIGTERM" = true := by decide +kernel
  have hnow : (create stuck (.start { threshold := .from .error } 0)).begin.drain.journal.now =
      0 := by decide +kernel
  rw [if_pos hears, hnow] at hsignalled
  have hexit : (signalled stuck).exit = none := by decide +kernel
  exact hsignalled.drain.fire hexit

/-- A signal during the first pause, and the end of the grace period. -/
theorem forcesExit_stuck : ForcesExit stuck [0] (signalled stuck).fire ∧
    ∃ x ∈ (signalled stuck).fire.journal.entries, x.event.mark = .forced ∧ x.time = 5000 := by
  have hclose : stuck.ClosesWell := by
    intro reply hreply e hfailure
    rw [List.mem_singleton.mp hreply] at hfailure
    simp [Reply.failure?] at hfailure
  have hforced := hearing_stuck.forcesExit rfl hclose ⟨rfl, rfl, rfl, rfl⟩
    ⟨by decide +kernel, by decide +kernel, by decide +kernel⟩
  obtain ⟨x, hx, hmark⟩ : ∃ x ∈ (signalled stuck).fire.journal.entries,
      x.event.mark.isForced = true := List.countP_pos_iff.mp
    (show 0 < count Mark.isForced (signalled stuck).fire.journal.entries by decide +kernel)
  have hmark : x.event.mark = .forced := by
    cases hm : x.event.mark <;> simp_all [Mark.isForced]
  obtain ⟨began, hbegan, htime⟩ := hforced.onTime x hx hmark
  have hzero : began = 0 := (Option.some.inj hbegan).symm
  have hdelay : Timers.effectiveDelay stuck.gracePeriod = 5000 := by decide +kernel
  exact ⟨hforced, x, hx, hmark, by rw [htime, hzero, hdelay]⟩

end Run

end EdgeCaller.Sender

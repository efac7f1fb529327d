import EdgeCaller.Proofs.Sender.Steps
/-!
The order of a teardown.

A sender closes its connection once, after its last call, then sets the latch, then removes its
listeners, and only then ends. Where no connection opens there is nothing to tear down.
-/

namespace EdgeCaller.Sender.Run

/-- A sender whose connection will not open. It was not armed, and no timer was created but the one
that brings the failure. -/
structure Unopened (r : Run) (e : Value) : Prop where
  unarmed : .armed ∉ marks r.journal.entries
  deaf : r.coordinator.listening = false
  awaited : r.phase = .connecting → r.ready = some (.rejected e) ∧ r.timers = [] ∨
    r.ready = none ∧ ∃ due, r.timers = [⟨due, .answer (.rejected e)⟩]
  /-- With this failure it ends, if it came as far as to ask for the connection. -/
  ended : r.phase ≠ .connecting → r.timers = [] ∧ ∃ e', r.phase = .ended (.rejected e') ∧
    (.dial ∈ marks r.journal.entries → e' = e)

/-- The order in which a sender tears down. -/
structure TearsDownInOrder (r : Run) : Prop where
  closesOnce : count Mark.isClose r.journal.entries ≤ 1
  closeAfterCalls : ∀ x past, x :: past <:+ r.journal.entries → x.event.mark.isClose = true →
    count Mark.isCall past = count Mark.isAnswer past
  callBeforeClose : ∀ x past, x :: past <:+ r.journal.entries → x.event.mark.isCall = true →
    count Mark.isClose past = 0
  latchAfterClose : ∀ x past, x :: past <:+ r.journal.entries → x.event.mark = .completed →
    Place.ClosedWell r.plan past
  detachAfterLatch : ∀ x past, x :: past <:+ r.journal.entries → x.event.mark = .detached →
    .completed ∈ marks past
  latch : r.coordinator.latch.isSet = true → .completed ∈ marks r.journal.entries
  listening : r.coordinator.listening = false → .armed ∈ marks r.journal.entries →
    .detached ∈ marks r.journal.entries
  ended : ∀ a, r.phase = .ended (.fulfilled a) → a = .code 0 ∧
    .detached ∈ marks r.journal.entries ∧ r.coordinator.latch.isSet = true ∧
    r.coordinator.listening = false
  unopened : r.plan.link = .direct → ∀ after e,
    r.plan.opening.settlement? .nothing = some (after, .rejected e) → r.Unopened e

variable {plan : Plan} {r : Run} {p : Place}

lemma Sound.unopened (h : r.Sound plan) (hscope : plan.scope.tearsDown = true)
    (hlink : plan.link = .direct) {after : Nat} {e : Value}
    (hopening : plan.opening.settlement? .nothing = some (after, .rejected e)) : r.Unopened e := by
  obtain ⟨p₀, hp₀, hhistory⟩ := h.exists_history
  have hplan := h.plan_eq
  have hunarmed : .armed ∉ marks r.journal.entries := by
    intro hm
    obtain ⟨after', a, hopens⟩ := hhistory.opens_of_armed hm hlink
    rw [hopening] at hopens
    simp at hopens
  have hplace : ∀ p, r.Stands plan p → p.unarmed = 1 := by
    intro p hp
    have hhistory := hp.history
    rw [hplan] at hhistory
    exact hhistory.unarmed_of_not_mem hscope hunarmed
  have hdeaf : r.coordinator.listening = false := by
    rw [hp₀.listening, Place.listens_of_unarmed (hplace p₀ hp₀), Bool.and_false]
  have hdrives : r.timers = r.timers.drives := hp₀.timers_eq_drives hdeaf
  have hforeseen : ∀ s, r.plan.Foresees .connecting s → s = .rejected e := by
    rintro s ⟨after', hreply⟩
    rw [Plan.Replies, hplan, hopening] at hreply
    simpa using (congrArg Prod.snd (Option.some.inj hreply)).symm
  cases h with
  | awaiting hstands hat hawaits =>
    have hp := hplace _ hstands
    generalize hphase : r.phase = phase at hat
    rw [hplan, hlink] at hat
    cases hat with
    | connecting =>
      refine ⟨hunarmed, hdeaf, fun _ => ?_, fun hnot => absurd hphase hnot⟩
      rw [hdrives]
      cases hawaits with
      | never _ _ hreply =>
        rw [hphase, Plan.Replies, hplan, hopening] at hreply
        simp at hreply
      | answered hready hnone hf =>
        rw [hphase] at hf
        obtain rfl := hforeseen _ hf
        exact .inl ⟨hready, hnone⟩
      | coming hready hsome hf =>
        rw [hphase] at hf
        obtain rfl := hforeseen _ hf
        exact .inr ⟨hready, _, hsome⟩
    | creating hclient | opening hclient | discarding hclient => simp at hclient
    | invoking | publishing | closing => simp [Place.unarmed] at hp
  | pausing hstands =>
    have hp := hplace _ hstands
    simp [Place.unarmed] at hp
  | ended hfree hphase hends =>
    have hp := hplace _ hfree.toStands
    refine ⟨hunarmed, hdeaf, fun hconnecting => ?_, fun _ => ⟨hdrives.trans hfree.drives, ?_⟩⟩
    · rw [hphase] at hconnecting
      simp at hconnecting
    · cases hends with
      | attempt | stopped | unstarted | unclosed | failed | finished => simp [Place.unarmed] at hp
      | broken hdown =>
        rw [hplan, hscope] at hdown
        simp at hdown
      | unopened _ hf =>
        refine ⟨_, hphase, fun hdial => ?_⟩
        have hrejected := hforeseen _ (hf (by rw [hplan]; exact hlink) hdial)
        exact Settlement.rejected.inj hrejected

/-- A sender that has ended well has torn down. -/
lemma Sound.torn_down (h : r.Sound plan) (hscope : r.plan.scope.tearsDown = true) {a : Answer}
    (ha : r.phase = .ended (.fulfilled a)) : a = .code 0 ∧ r.Stands plan .detached := by
  obtain ⟨p, hfree, hends⟩ := h.exists_ends ha
  cases hends with
  | attempt hs =>
    rw [hs] at hscope
    simp [Scope.tearsDown] at hscope
  | stopped hs =>
    rw [hs] at hscope
    simp at hscope
  | finished => exact ⟨rfl, hfree.toStands⟩

/-- Whatever is answered and whenever signals come, a sender tears down in order. -/
theorem Reached.tearsDownInOrder (h : Reached plan r) (hscope : plan.scope.tearsDown = true) :
    r.TearsDownInOrder := by
  obtain ⟨p, hp⟩ := h.sound.exists_stands
  have hplan := h.sound.plan_eq
  have hdown : r.plan.scope.tearsDown = true := by rw [hplan]; exact hscope
  have hrecalls := hp.history.recalls
  refine
    { closesOnce := ?_
      closeAfterCalls := fun x past => hp.history.close_after_calls
      callBeforeClose := fun x past => hp.history.call_before_close
      latchAfterClose := fun x past => hp.history.complete_after_close
      detachAfterLatch := fun x past => hp.history.detach_after_complete
      latch := fun hset => ?_
      listening := fun hl harmed => ?_
      ended := fun a ha => ?_
      unopened := fun hlink after e hopening => ?_ }
  · rw [hp.history.count_closings]
    exact p.closings_le_one
  · rw [hp.latch] at hset
    cases p with
    | completed => exact hrecalls.1
    | detached => exact hrecalls.2.1
    | _ => simp [Place.isComplete] at hset
  · rw [hp.listening, hdown, Bool.true_and] at hl
    have hunarmed := hp.history.unarmed_of_mem harmed
    cases p with
    | detached => exact hrecalls.1
    | opening | discarding => simp [Place.unarmed] at hunarmed
    | _ => simp [Place.listens] at hl
  · obtain ⟨rfl, hdetached⟩ := h.sound.torn_down hdown ha
    refine ⟨rfl, hdetached.history.recalls.1, hdetached.latch, ?_⟩
    rw [hdetached.listening, Place.listens, Bool.and_false]
  · rw [hplan] at hlink hopening
    exact h.sound.unopened hscope hlink hopening

/-- A sender over a connection on which every call succeeds. -/
def untroubled : Plan where
  scope := .sender
  link := .direct
  script := {}
  target := ⟨"device", "module"⟩

/-- The run of a plan that is given a signal as soon as it rests. -/
def signalled (plan : Plan) : Run :=
  ((create plan (.start { threshold := .from .error } 0)).begin.drain.deliver "SIGTERM").drain

lemma reached_signalled (plan : Plan) : Reached plan (signalled plan) :=
  ((Reached.begin plan _ 0).drain.step (.signal "SIGTERM")).drain

/-- A signal during the first pause. -/
theorem tearsDownInOrder_untroubled :
    (signalled untroubled).TearsDownInOrder ∧
      count Mark.isClose (signalled untroubled).journal.entries = 1 ∧
      (signalled untroubled).coordinator.latch.isSet = true :=
  ⟨(reached_signalled untroubled).tearsDownInOrder rfl, by decide +kernel, by decide +kernel⟩

end EdgeCaller.Sender.Run

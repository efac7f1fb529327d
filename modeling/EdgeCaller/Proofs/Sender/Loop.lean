import EdgeCaller.Proofs.Sender.Schedule
/-!
The safety of a loop.

Whatever a script answers and whenever the work is aborted, a loop makes one call at a time, sends
the event exactly for the calls that succeeded, asks the policy exactly about those that failed, and
begins nothing after an abort. `LoopSafe` collects this; it holds of all that a loop can come to, if
the policy returns, every status is a number and nothing is wrong with the console and the clock.

Events are newest first, so that what had happened at an earlier moment is a suffix of them. The
answer that is ready has happened already, although the run has not gone on from it.
-/

namespace EdgeCaller.Sender

namespace Run

/-- The answer that has arrived, if the run has not gone on from it. -/
def arrived? (r : Run) : Option Mark :=
  match r.phase, r.ready with
  | .invoking _, some s => some (.answered .invoke s)
  | .publishing, some s => some (.answered .publish s)
  | _, _ => none

/-- What has happened so far, newest first. -/
def happened (r : Run) : List Mark := r.arrived?.toList ++ marks r.journal.entries

/-- What holds of a loop at every moment. -/
structure LoopSafe (r : Run) : Prop where
  /-- At most one call is in flight. -/
  oneInFlight : ∀ past, past <:+ r.journal.entries →
    count Mark.isAnswer past ≤ count Mark.isCall past ∧
      count Mark.isCall past ≤ count Mark.isAnswer past + 1
  /-- After an abort the method is not called, and the event is sent once at most. -/
  afterAbort : ∀ new past, r.journal.entries = new ++ past → .abort ∈ marks past →
    count Mark.isInvoke new = 0 ∧ count Mark.isPublish new ≤ 1
  /-- The event is sent when one call more has succeeded than events were sent. -/
  publishAfterSuccess : ∀ x past, x :: past <:+ r.journal.entries →
    x.event.mark.isPublish = true → count Mark.isSuccess past = count Mark.isPublish past + 1
  /-- The method is called when an event was sent for each call that succeeded. -/
  invokeAfterPublish : ∀ x past, x :: past <:+ r.journal.entries →
    x.event.mark.isInvoke = true → count Mark.isSuccess past = count Mark.isPublish past
  /-- There are as many events as successes, except for a success that has just arrived. -/
  published : r.happened.countP Mark.isPublish ≤ r.happened.countP Mark.isSuccess ∧
    r.happened.countP Mark.isSuccess ≤ r.happened.countP Mark.isPublish + 1 ∧
    (r.ready = none → r.happened.countP Mark.isSuccess = r.happened.countP Mark.isPublish)
  /-- The policy was asked about each failure, at its stage and in order, except for one that has
  just arrived. -/
  consulted : r.happened.filterMap Mark.rejection? =
      (r.arrived?.bind Mark.rejection?).toList ++ r.happened.filterMap Mark.consultation? ∧
    (r.ready = none →
      r.happened.filterMap Mark.rejection? = r.happened.filterMap Mark.consultation?)
  /-- Every call is the standard one to the target. -/
  standardCall : ∀ target call, .invoke target call ∈ marks r.journal.entries →
    target = r.plan.target ∧ call = .standard
  standardEvent : ∀ event, .publish event ∈ marks r.journal.entries → event = .success
  /-- Once it is aborted a loop only awaits the answer to a call that is in flight. -/
  stops : r.coordinator.isAborted = true → r.ready = none →
    r.phase = .ended (.fulfilled .nothing) ∨
      count Mark.isCall r.journal.entries = count Mark.isAnswer r.journal.entries + 1
  oneTimer : r.timers.length ≤ 1
  /-- A loop never fails, it ends only once it is aborted, and it leaves no timer behind. -/
  ended : ∀ s, r.phase = .ended s →
    s = .fulfilled .nothing ∧ r.coordinator.isAborted = true ∧ r.timers = []

end Run

/-! ### What the events of a run say -/

lemma Leads.call_eq {plan : Plan} {past : List Entry} {time : Nat} {aborted : Bool} {p q : Place}
    {target : Target} {call : MethodCall}
    (h : Leads plan past time aborted p (.invoke target call) q) :
    p = .calling ∧ target = plan.target ∧ call = .standard := by
  cases h with
  | invoke _ => exact ⟨rfl, rfl, rfl⟩

lemma Leads.event_eq {plan : Plan} {past : List Entry} {time : Nat} {aborted : Bool} {p q : Place}
    {event : Telemetry} (h : Leads plan past time aborted p (.publish event) q) :
    p = .succeeded ∧ event = .success := by
  cases h with
  | publish => exact ⟨rfl, rfl⟩

namespace History

variable {plan : Plan} {es past : List Entry} {x : Entry} {p : Place} {aborted : Bool}

lemma publish_after_success (hscope : plan.scope.tearsDown = false)
    (h : History plan es p aborted) (hs : x :: past <:+ es)
    (hx : x.event.mark.isPublish = true) :
    count Mark.isSuccess past = count Mark.isPublish past + 1 := by
  obtain ⟨q, q', b, hpast, hl⟩ := h.leads_of_suffix hs
  have hq : q = .succeeded := by
    cases hm : x.event.mark with
    | publish event =>
      rw [hm] at hl
      exact hl.event_eq.1
    | _ =>
      rw [hm] at hx
      simp [Mark.isPublish] at hx
  rw [hpast.count_successes hscope, hq]
  rfl

lemma invoke_after_publish (hscope : plan.scope.tearsDown = false)
    (h : History plan es p aborted) (hs : x :: past <:+ es) (hx : x.event.mark.isInvoke = true) :
    count Mark.isSuccess past = count Mark.isPublish past := by
  obtain ⟨q, q', b, hpast, hl⟩ := h.leads_of_suffix hs
  have hq : q = .calling := by
    cases hm : x.event.mark with
    | invoke target call =>
      rw [hm] at hl
      exact hl.call_eq.1
    | _ =>
      rw [hm] at hx
      simp [Mark.isInvoke] at hx
  rw [hpast.count_successes hscope, hq]
  rfl

end History

namespace Run

variable {plan : Plan} {r : Run} {p : Place}

/-! ### Where a loop can be -/

/-- The places at which a loop rests. -/
inductive Rests (r : Run) : Place → Prop where
  | invoking {name} : r.phase = .invoking name → Rests r .invoking
  | publishing : r.phase = .publishing → Rests r .publishing
  | pausing : r.phase = .pausing → (r.ready = none → r.coordinator.isAborted = false) →
      Rests r .between
  | stopped : r.phase = .ended (.fulfilled .nothing) → r.coordinator.isAborted = true →
      r.ready = none → r.timers.drives = [] → Rests r .between

lemma length_drives_le_one (h : r.Sound plan) : r.timers.drives.length ≤ 1 := by
  cases h with
  | awaiting _ _ hawaits =>
    cases hawaits with
    | never _ hdrives | answered _ hdrives => rw [hdrives]; exact Nat.zero_le _
    | coming _ hdrives => rw [hdrives]; exact Nat.le_refl _
  | pausing _ _ hpauses =>
    cases hpauses with
    | elapsed _ hdrives => rw [hdrives]; exact Nat.zero_le _
    | lasting _ _ _ hdrives => rw [hdrives]; exact Nat.le_refl _
  | ended hfree => rw [hfree.drives]; exact Nat.zero_le _

/-- A loop that nothing goes wrong with rests only at its calls, in its pauses, and when it has been
stopped. -/
lemma Sound.rests (h : r.Sound plan) (hscope : r.plan.scope = .loop) (hc : r.Calm) :
    ∃ p, r.Stands plan p ∧ r.Rests p := by
  have hdown : r.plan.scope.tearsDown = false := by rw [hscope]; rfl
  have hinner : ∀ p, r.Stands plan p → p.isOuter = false := by
    intro p hp
    by_contra hp'
    have hdown' := hp.history.tearsDown_of_isOuter (by simpa using hp')
    rw [hdown] at hdown'
    simp at hdown'
  cases h with
  | awaiting hstands hat hawaits =>
    have hp := hinner _ hstands
    refine ⟨_, hstands, ?_⟩
    generalize hphase : r.phase = phase at hat
    cases hat with
    | invoking => exact .invoking hphase
    | publishing => exact .publishing hphase
    | connecting | creating | opening | discarding | closing => simp [Place.isOuter] at hp
  | pausing hstands hphase hpauses =>
    refine ⟨_, hstands, .pausing hphase fun hready => ?_⟩
    cases hpauses with
    | elapsed hsome => simp [hready] at hsome
    | lasting _ ha => exact ha
  | ended hfree hphase hends =>
    have hp := hinner _ hfree.toStands
    refine ⟨_, hfree.toStands, ?_⟩
    cases hends with
    | attempt hs => rw [hscope] at hs; simp at hs
    | stopped _ ha => exact .stopped hphase ha hfree.ready hfree.drives
    | broken _ _ hbroken => exact absurd hc hbroken
    | unopened hq =>
      rw [Place.isOuter_of_unarmed hq] at hp
      simp at hp
    | unstarted hs => rw [hdown] at hs; simp at hs
    | unclosed | failed | finished => simp [Place.isOuter] at hp

/-! ### The safety of a loop -/

lemma countP_happened (r : Run) (kind : Mark → Bool) :
    r.happened.countP kind = r.arrived?.toList.countP kind + count kind r.journal.entries := by
  rw [happened, List.countP_append, marks, List.countP_map]
  rfl

lemma filterMap_happened {β : Type} (r : Run) (f : Mark → Option β) :
    r.happened.filterMap f =
      (r.arrived?.bind f).toList ++ r.journal.entries.filterMap fun x => f x.event.mark := by
  rw [happened, List.filterMap_append, marks, List.filterMap_map]
  cases h : r.arrived? with
  | none => rfl
  | some m =>
    rw [Option.toList_some, Option.bind_some, List.filterMap_cons, List.filterMap_nil]
    cases f m <;> rfl

/-- What has just arrived is the answer to a call of the method or to the sending of the event. -/
lemma arrived_spec {m : Mark} (h : r.arrived? = some m) :
    r.ready ≠ none ∧ m.isPublish = false ∧ m.consultation? = none := by
  unfold arrived? at h
  split at h
  · next hready =>
    obtain rfl := Option.some.inj h
    exact ⟨by rw [hready]; simp, rfl, rfl⟩
  · next hready =>
    obtain rfl := Option.some.inj h
    exact ⟨by rw [hready]; simp, rfl, rfl⟩
  · simp at h

lemma arrived_of_ready (h : r.ready = none) : r.arrived? = none := by
  cases harrived : r.arrived? with
  | none => rfl
  | some m => exact absurd h (arrived_spec harrived).1

namespace Rests

lemma owed (h : r.Rests p) : p.owed = 0 := by
  cases h <;> rfl

lemma refusal (h : r.Rests p) : p.refusal = [] := by
  cases h <;> rfl

lemma stops (h : r.Rests p) (ha : r.coordinator.isAborted = true) (hready : r.ready = none) :
    r.phase = .ended (.fulfilled .nothing) ∨ p.inFlight = 1 := by
  cases h with
  | invoking | publishing => exact .inr rfl
  | pausing _ hpause =>
    rw [hpause hready] at ha
    simp at ha
  | stopped hphase => exact .inl hphase

lemma ended (h : r.Rests p) {s : Settlement} (hs : r.phase = .ended s) :
    s = .fulfilled .nothing ∧ r.coordinator.isAborted = true ∧ r.timers.drives = [] := by
  cases h with
  | invoking hphase | publishing hphase | pausing hphase =>
    rw [hs] at hphase
    simp at hphase
  | stopped hphase ha _ hdrives =>
    rw [hs] at hphase
    exact ⟨Phase.ended.inj hphase, ha, hdrives⟩

end Rests

lemma published_of_rests (h : History plan r.journal.entries p r.coordinator.isAborted)
    (hscope : plan.scope.tearsDown = false) (hp : r.Rests p) :
    r.happened.countP Mark.isPublish ≤ r.happened.countP Mark.isSuccess ∧
    r.happened.countP Mark.isSuccess ≤ r.happened.countP Mark.isPublish + 1 ∧
    (r.ready = none → r.happened.countP Mark.isSuccess = r.happened.countP Mark.isPublish) := by
  have hcount := h.count_successes hscope
  rw [hp.owed, Nat.add_zero] at hcount
  rw [countP_happened, countP_happened, hcount]
  cases harrived : r.arrived? with
  | none => simp
  | some m =>
    obtain ⟨hready, hpublish, -⟩ := arrived_spec harrived
    have hle : [m].countP Mark.isSuccess ≤ 1 := List.countP_le_length
    have hzero : [m].countP Mark.isPublish = 0 := by simp [hpublish]
    rw [Option.toList_some, hzero]
    refine ⟨by omega, by omega, fun hnone => absurd hnone hready⟩

lemma consulted_of_rests (h : History plan r.journal.entries p r.coordinator.isAborted)
    (hp : r.Rests p) : r.happened.filterMap Mark.rejection? =
      (r.arrived?.bind Mark.rejection?).toList ++ r.happened.filterMap Mark.consultation? := by
  have hrejections := h.rejections_eq
  rw [hp.refusal, List.nil_append, rejections, consultations] at hrejections
  rw [filterMap_happened, filterMap_happened, hrejections]
  cases harrived : r.arrived? with
  | none => rfl
  | some m =>
    rw [Option.bind_some, Option.bind_some, (arrived_spec harrived).2.2]
    rfl

/-- A loop is safe whatever is answered, and whenever it is aborted. -/
theorem Reached.loopSafe (h : Reached plan r) (hscope : plan.scope = .loop) (hb : plan.Benign)
    (hu : r.journal.Undisturbed) : r.LoopSafe := by
  have hplan := h.sound.plan_eq
  have hdown : plan.scope.tearsDown = false := by rw [hscope]; rfl
  obtain ⟨p, hstands, hp⟩ := h.sound.rests (by rw [hplan]; exact hscope)
    ⟨hu, by rw [hplan]; exact hb⟩
  have hhistory := hstands.history
  rw [hplan] at hhistory
  have htimers := hstands.timers_eq_drives (by rw [hstands.listening, hplan, hdown]; rfl)
  refine
    { oneInFlight := ?_
      afterAbort := ?_
      publishAfterSuccess := fun x past => hhistory.publish_after_success hdown
      invokeAfterPublish := fun x past => hhistory.invoke_after_publish hdown
      published := published_of_rests hhistory hdown hp
      consulted := ⟨consulted_of_rests hhistory hp, fun hready => ?_⟩
      standardCall := ?_
      standardEvent := ?_
      stops := fun ha hready => ?_
      oneTimer := by rw [htimers]; exact length_drives_le_one h.sound
      ended := fun s hs => ?_ }
  · intro past hpast
    obtain ⟨q, b, hq⟩ := hhistory.of_suffix hpast
    have hcalls := hq.count_calls
    have hle := q.inFlight_le_one
    omega
  · intro new past hentries hmem
    rw [hentries] at hhistory
    obtain ⟨hinvokes, hpublishes⟩ := hhistory.calls_after_abort hmem
    exact ⟨hinvokes, by omega⟩
  · have hconsulted := consulted_of_rests hhistory hp
    rw [arrived_of_ready hready] at hconsulted
    exact hconsulted
  · intro target call hmem
    obtain ⟨past, time, q, q', b, hl⟩ := hhistory.exists_leads hmem
    rw [hplan]
    exact hl.call_eq.2
  · intro event hmem
    obtain ⟨past, time, q, q', b, hl⟩ := hhistory.exists_leads hmem
    exact hl.event_eq.2
  · refine (hp.stops ha hready).imp id fun hflight => ?_
    rw [hhistory.count_calls, hflight]
  · obtain ⟨rfl, ha, hdrives⟩ := hp.ended hs
    exact ⟨rfl, ha, htimers.trans hdrives⟩

/-- A loop whose first call fails, and that is aborted during its second. The event that follows
that one is lost. -/
def abortedInCall : Plan where
  scope := .loop
  link := .direct
  script := {
    invokes := [{ course := .fails (.text "busy") 5 }, { course := .succeeds 10 }]
    publishes := [{ course := .fails (.text "lost") 3 }] }
  target := ⟨"device", "module"⟩
  interval := 1000
  policy := .record
  abortOnInvoke := some 2

lemma abortedInCall_benign : abortedInCall.Benign where
  statuses reply hreply := by
    simp only [abortedInCall, List.mem_cons, List.not_mem_nil, or_false] at hreply
    rcases hreply with rfl | rfl <;> exact ⟨successStatus, rfl⟩
  invokes reply hreply e he := by
    simp only [abortedInCall, List.mem_cons, List.not_mem_nil, or_false] at hreply
    rcases hreply with rfl | rfl
    · obtain rfl := Option.some.inj he
      exact Policy.returns_record (Value.report_text _) _
    · simp [Reply.failure?] at he
  publishes reply hreply e he := by
    rw [abortedInCall, List.mem_singleton] at hreply
    subst hreply
    obtain rfl := Option.some.inj he
    exact Policy.returns_record (Value.report_text _) _

/-- The policy is asked about the first call. The event of the call during which the work is aborted
is still sent, and the policy is asked about that as well. -/
theorem loopSafe_abortedInCall :
    ∃ r : Run, r.LoopSafe ∧ r.coordinator.isAborted = true ∧
      count Mark.isInvoke r.journal.entries = 2 ∧ count Mark.isPublish r.journal.entries = 1 ∧
      (rejections r.journal.entries).map (·.1) = [.publish, .invoke] ∧
      (consultations r.journal.entries).map (·.1) = [.publish, .invoke] := by
  have hreached := reached_follow (Reached.begin abortedInCall { threshold := .from .error } 0)
    [.goOn, .goOn, .fire, .goOn, .fire, .goOn, .fire, .goOn, .fire]
  exact ⟨_, hreached.loopSafe rfl abortedInCall_benign
    ⟨by decide +kernel, by decide +kernel, by decide +kernel⟩, by decide +kernel,
    by decide +kernel, by decide +kernel, by decide +kernel, by decide +kernel⟩

end Run

end EdgeCaller.Sender

import EdgeCaller.Proofs.Sender.Failures
import EdgeCaller.Proofs.Sender.Schedule
import EdgeCaller.Proofs.Verbosity
/-!
Two runs that print more and fewer lines.

`Alike` says of two runs that one is the other but for the lines that a stricter threshold holds
back. A move keeps it if it minds no threshold, and all but one kind do: the failure of a client to
close is logged as a warning, which may be held back, and what the line says of the failure need not
have a plain form. The moves come in the order in which they rely on one another.
-/

namespace EdgeCaller

/-- What the line about a failure to close says of it has a plain form. -/
def Value.Briefable (e : Value) : Prop := ∀ words, e.brief = .ok words → words.Shown "error"

namespace Script

/-- Every status is a number. -/
def Numeric (script : Script) : Prop := ∀ reply ∈ script.invokes, ∃ x, reply.status = .number x

/-- The warning about a failure to close is printed under both thresholds or under none, or can be
shown whatever the failure is. -/
def ClosesAlike (script : Script) (t u : Threshold) : Prop :=
  t.admits .warn = u.admits .warn ∨
    ∀ reply ∈ script.closes, ∀ e, reply.failure? = some e → e.Briefable

end Script

namespace Sender

/-- Lines that a policy writes on its own account can be shown. -/
def Policy.Legible : Policy → Prop
  | .logAndContinue | .noted _ => True
  | .custom conduct => ∀ n stage e, ∀ line ∈ (conduct n stage e).lines, ∀ m ∈ line.2.2,
      m.2.Shown m.1

/-- What the lines of an attempt are to show can be shown. -/
structure Plan.Legible (plan : Plan) : Prop where
  statuses : plan.script.Numeric
  policy : plan.policy.Legible

variable {t u : Threshold}

/-! ### What a sender says -/

lemma indifferent_tellAll (hu : u.Stricter t)
    {lines : List (Level × String × List (String × Value))}
    (h : ∀ line ∈ lines, ∀ m ∈ line.2.2, m.2.Shown m.1) : (tellAll lines).Indifferent t u := by
  induction lines with
  | nil => exact Act.indifferent_pure _
  | cons line lines ih =>
    obtain ⟨hline, hlines⟩ := List.forall_mem_cons.mp h
    exact Act.indifferent_bind (Act.indifferent_tell hu (.inr hline) _) fun _ => ih hlines

lemma Policy.indifferent_consult (hu : u.Stricter t) {policy : Policy} (h : policy.Legible)
    (n : Nat) (stage : Stage) (e : Value) : (policy.consult n stage e).Indifferent t u := by
  cases policy with
  | logAndContinue => exact Act.indifferent_ofText_bind fun _ _ => Act.indifferent_error hu _ _
  | noted verdict =>
    have hnotes : (notePolicy stage e).Indifferent t u :=
      Act.indifferent_ofText_bind fun _ _ => Act.indifferent_emit rfl
    refine Act.indifferent_bind hnotes fun _ => ?_
    split
    · exact Act.indifferent_throw _
    · exact Act.indifferent_pure _
  | custom conduct =>
    refine Act.indifferent_bind (indifferent_tellAll hu (h n stage e)) fun _ => ?_
    split
    · exact Act.indifferent_throw _
    · exact Act.indifferent_pure _

lemma indifferent_crashDetails (e : Value) : (crashDetails e).Indifferent t u := by
  refine Act.indifferent_ofText_bind fun _ _ => ?_
  split
  · exact Act.indifferent_ofText_bind fun _ _ => Act.indifferent_pure _
  · exact Act.indifferent_pure _

/-- The configuration of a client is made of texts, where it is not missing. -/
lemma shown_configuration (configuration : List (String × Option String)) :
    (Value.record (configuration.map fun (name, v) => (name, Environment.shownValue v))).Shown
      "configuration" := by
  have hmembers : ∀ m ∈ configuration.map fun (name, v) => (name, Environment.shownValue v),
      m.2.Writable := by
    intro m hm
    obtain ⟨⟨name, v⟩, -, rfl⟩ := List.mem_map.mp hm
    cases v with
    | none => exact fun _ _ => ⟨some .null, Value.plainAt.eq_def ..⟩
    | some s => exact Value.writable_text s
  obtain ⟨js, hjs⟩ := Value.plainMembers_ok_iff.mpr fun m hm => hmembers m hm _ _
  exact ⟨_, by rw [Value.plainAt, hjs]; rfl⟩

lemma indifferent_greet (hu : u.Stricter t) (plan : Plan) :
    (Run.greet plan).Indifferent t u := by
  refine Act.indifferent_bind (Act.indifferent_say hu _ _) fun _ =>
    Act.indifferent_bind (Act.indifferent_tell hu (.inr ?_) _) fun _ => Act.indifferent_say hu _ _
  intro m hm
  rw [List.mem_singleton.mp hm]
  exact shown_configuration _

/-- The failure of a client to close is the one thing whose line may be held back and fail. -/
lemma indifferent_closeAnswered (hu : u.Stricter t) {s : Settlement}
    (h : ∀ e, s = .rejected e → t.admits .warn = u.admits .warn ∨ e.Briefable) :
    (Client.closeAnswered s).Indifferent t u := by
  cases s with
  | fulfilled a => exact Act.indifferent_pure _
  | rejected e =>
    refine Act.indifferent_ofText_bind fun words hwords => ?_
    refine Act.indifferent_tell hu ((h e rfl).imp_right fun hbrief m hm => ?_) _
    rw [List.mem_singleton.mp hm]
    exact hbrief words hwords

lemma indifferent_answered (hu : u.Stricter t) (transport : String) {dial : Dial} {s : Settlement}
    (h : ∀ cause e, dial = .discarding cause → s = .rejected e →
      t.admits .warn = u.admits .warn ∨ e.Briefable) :
    (dial.answered transport s).Indifferent t u := by
  have htransport : (Value.text transport).Shown "transport" := (Value.writable_text _).shown _
  cases dial with
  | creating =>
    cases s with
    | rejected e => exact Act.indifferent_throw _
    | fulfilled a =>
      exact Act.indifferent_bind (Act.indifferent_emit rfl) fun _ => Act.indifferent_pure _
  | opening =>
    cases s with
    | rejected e =>
      exact Act.indifferent_bind (Act.indifferent_emit rfl) fun _ => Act.indifferent_pure _
    | fulfilled a =>
      refine Act.indifferent_bind (Act.indifferent_tell hu (.inr ?_) _) fun _ =>
        Act.indifferent_pure _
      intro m hm
      rw [List.mem_singleton.mp hm]
      exact htransport
  | discarding cause =>
    cases s with
    | fulfilled a => exact Act.indifferent_throw _
    | rejected e =>
      refine Act.indifferent_ofText_bind fun words hwords => ?_
      refine Act.indifferent_bind (Act.indifferent_tell hu ?_ _) fun _ => Act.indifferent_throw _
      refine (h cause e rfl rfl).imp_right fun hbrief => ?_
      simpa using ⟨htransport, hbrief words hwords⟩

namespace Run

/-- An answer that is ready, or that a timer will bring. -/
def Pends (r : Run) (s : Settlement) : Prop :=
  r.ready = some s ∨ ∃ due, (⟨due, .answer s⟩ : Timer Alarm) ∈ r.timers

lemma Pends.mono {r r' : Run} {s : Settlement} (h : r'.Pends s) (hready : r'.ready = r.ready)
    (htimers : ∀ due, (⟨due, .answer s⟩ : Timer Alarm) ∈ r'.timers → ⟨due, .answer s⟩ ∈ r.timers) :
    r.Pends s :=
  h.imp hready.symm.trans fun ⟨due, hmem⟩ => ⟨due, htimers due hmem⟩

/-- A client that would not open fails to close only as the script has it for closing. -/
def Discards (r : Run) : Prop :=
  ∀ cause e, r.phase = .dialing (.discarding cause) → r.Pends (.rejected e) →
    ∃ reply ∈ r.plan.script.closes, reply.failure? = some e

/-- What is logged of an answer, where a run goes on from it, can be shown or is logged under both
thresholds. -/
def Tells (t u : Threshold) (r : Run) (s : Settlement) : Prop :=
  match r.phase with
  | .invoking methodName => methodName.Writable ∧
      ∀ status payload, s = .fulfilled (.response status payload) → status.Writable
  | .dialing (.discarding _) => ∀ e, s = .rejected e → t.admits .warn = u.admits .warn ∨ e.Briefable
  | .closing _ => r.plan.link = .client →
      ∀ e, s = .rejected e → t.admits .warn = u.admits .warn ∨ e.Briefable
  | .idle | .connecting | .dialing _ | .publishing | .pausing | .ended _ => True

/-- `r'` is `r` as it is under the threshold `u` in the place of `t`. -/
inductive Alike (t u : Threshold) (r : Run) : Run → Prop
  | mk {k} : r.journal.Narrows t u k → r.plan.Legible →
      (r.plan.link = .client → r.plan.script.ClosesAlike t u) →
      r.Discards → Alike t u r { r with journal := k }

variable {plan : Plan} {r r' : Run} {s : Settlement}

namespace Alike

lemma plan_eq (h : r.Alike t u r') : r'.plan = r.plan := by
  cases h
  rfl

lemma legible (h : r.Alike t u r') : r.plan.Legible := by
  cases h
  assumption

/-- What is changed in both alike, the plan and the journal apart, leaves them alike. -/
lemma set (h : r.Alike t u r') (f : Run → Run)
    (hf : ∀ k, f { r with journal := k } = { f r with journal := k }) (hplan : (f r).plan = r.plan)
    (hdiscards : r.Discards → (f r).Discards) : (f r).Alike t u (f r') := by
  obtain @⟨k, hj, hlegible, hcloses, hr⟩ := h
  have hjournal := congrArg Run.journal (hf r.journal)
  have hmoved := hf k
  rw [hmoved]
  exact ⟨hjournal ▸ hj, by rwa [hplan], by rwa [hplan], hdiscards hr⟩

lemma note (h : r.Alike t u r') {e : Event} (he : e.isSeen u = true) :
    (r.note e).Alike t u (r'.note e) := by
  obtain ⟨hj, hlegible, hcloses, hdiscards⟩ := h
  exact ⟨hj.add he, hlegible, hcloses, hdiscards⟩

lemma perform {α : Type} {act : Act α} {fail : Run → Value → Run} {next : Run → α → Run}
    (h : r.Alike t u r') (hact : act.Indifferent t u)
    (hfail : ∀ k k' e, Alike t u { r with journal := k } { r with journal := k' } →
      (fail { r with journal := k } e).Alike t u (fail { r with journal := k' } e))
    (hnext : ∀ k k' a, Alike t u { r with journal := k } { r with journal := k' } →
      (next { r with journal := k } a).Alike t u (next { r with journal := k' } a)) :
    (r.perform act fail next).Alike t u (r'.perform act fail next) := by
  obtain @⟨k', hj, hlegible, hcloses, hdiscards⟩ := h
  obtain ⟨hsame, hnarrows⟩ := hact _ _ hj
  unfold Run.perform
  simp only
  rcases hx : act.exec r.journal with ⟨x, k⟩
  rcases hx' : act.exec k' with ⟨x', k''⟩
  rw [hx, hx'] at hsame hnarrows
  obtain rfl : x' = x := hsame
  have hr : Alike t u { r with journal := k } { r with journal := k'' } :=
    ⟨hnarrows, hlegible, hcloses, hdiscards⟩
  cases x' with
  | error e => exact hfail k k'' e hr
  | ok a => exact hnext k k'' a hr

/-! ### Ending and waiting -/

lemma exitWith (h : r.Alike t u r') (code : Nat) :
    (r.exitWith code).Alike t u (r'.exitWith code) :=
  (h.set (fun r => { r with exit := some code }) (fun _ => rfl) rfl id).note rfl

lemma escape (h : r.Alike t u r') (e : Value) : (r.escape e).Alike t u (r'.escape e) :=
  h.set (fun r => r.escape e) (fun _ => rfl) rfl id

lemma crash (hu : u.Stricter t) (h : r.Alike t u r') (e : Value) :
    (r.crash e).Alike t u (r'.crash e) :=
  h.perform (Act.indifferent_bind (indifferent_crashDetails e) fun _ =>
    Act.indifferent_error hu _ _) (fun _ _ _ hr => hr) fun _ _ _ hr => hr.exitWith 1

lemma finish (hu : u.Stricter t) (h : r.Alike t u r') (s : Settlement) :
    (r.finish s).Alike t u (r'.finish s) := by
  have hended := h.set (fun r => { r with phase := .ended s }) (fun _ => rfl) rfl
    fun _ _ _ hphase => Phase.noConfusion hphase
  have hplan := h.plan_eq
  cases hscope : r.plan.scope with
  | attempt => simpa only [Run.finish, hplan, hscope] using hended
  | loop | sender => simpa only [Run.finish, hplan, hscope, plan_note] using hended.note rfl
  | program =>
    cases s with
    | fulfilled a => simpa only [Run.finish, hplan, hscope] using hended.exitWith 0
    | rejected e => simpa only [Run.finish, hplan, hscope] using hended.crash hu e

lemma fail (hu : u.Stricter t) (h : r.Alike t u r') (e : Value) :
    (r.fail e).Alike t u (r'.fail e) := h.finish hu _

/-- A failure to come must be one that the script holds, where a client is being discarded. -/
lemma await (h : r.Alike t u r') {reply : Option (Nat × Settlement)}
    (hreply : ∀ cause after e, r.phase = .dialing (.discarding cause) →
      reply = some (after, .rejected e) →
      ∃ reply ∈ r.plan.script.closes, reply.failure? = some e) :
    (r.await reply).Alike t u (r'.await reply) := by
  obtain @⟨k, hj, hlegible, hcloses, hdiscards⟩ := h
  match reply with
  | none => exact ⟨hj, hlegible, hcloses, hdiscards⟩
  | some (0, s) =>
    refine ⟨hj, hlegible, hcloses, fun cause e hphase hpends => ?_⟩
    rcases hpends with hready | htimer
    · exact hreply cause 0 e hphase (by rw [← Option.some.inj hready])
    · exact hdiscards cause e hphase (.inr htimer)
  | some (after + 1, s) =>
    have hnow := hj.now
    simp only [Run.await, hnow]
    refine ⟨hj, hlegible, hcloses, fun cause e hphase hpends => ?_⟩
    rcases hpends with hready | ⟨due, htimer⟩
    · exact hdiscards cause e hphase (.inl hready)
    · rcases List.mem_append.mp htimer with htimer | htimer
      · exact hdiscards cause e hphase (.inr ⟨due, htimer⟩)
      · obtain ⟨-, hsame⟩ := Timer.mk.inj (List.mem_singleton.mp htimer)
        exact hreply cause (after + 1) e hphase (by rw [← Alarm.answer.inj hsame])

lemma endPause (h : r.Alike t u r') : r.endPause.Alike t u r'.endPause := by
  obtain ⟨hj, hlegible, hcloses, hdiscards⟩ := h
  obtain ⟨plan, journal, timers, tally, waits, consults, coordinator, phase, ready, exit,
    escaped⟩ := r
  cases phase with
  | pausing =>
    cases ready with
    | none => exact ⟨hj, hlegible, hcloses, fun _ _ hphase => Phase.noConfusion hphase⟩
    | some s => exact ⟨hj, hlegible, hcloses, hdiscards⟩
  | _ => exact ⟨hj, hlegible, hcloses, hdiscards⟩

lemma abort (h : r.Alike t u r') : r.abort.Alike t u r'.abort := by
  have hcoordinator : r'.coordinator = r.coordinator := by cases h; rfl
  have hcalled := h.set (fun r =>
    { r with coordinator := { r.coordinator with reason := some "abort" } }) (fun _ => rfl) rfl id
  unfold Run.abort
  rw [hcoordinator] at hcalled ⊢
  split
  · exact h
  · exact (hcalled.note rfl).endPause

lemma abortAt (h : r.Alike t u r') (due : Option Nat) (n : Nat) :
    (r.abortAt due n).Alike t u (r'.abortAt due n) := by
  unfold Run.abortAt
  split
  · exact h.abort
  · exact h

/-! ### Leaving the loop -/

lemma beginClose (h : r.Alike t u r') (failure : Option Value) :
    (r.beginClose failure).Alike t u (r'.beginClose failure) := by
  have hset := h.set (fun r => { r with
    phase := .closing failure
    tally := { r.tally with closes := r.tally.closes + 1 } }) (fun _ => rfl) rfl
    fun _ _ _ hphase => Phase.noConfusion hphase
  cases h
  refine await (hset.note ?_) fun _ _ _ hphase => Phase.noConfusion hphase
  cases r.plan.link <;> rfl

lemma leaveLoop (hu : u.Stricter t) (h : r.Alike t u r') (failure : Option Value) :
    (r.leaveLoop failure).Alike t u (r'.leaveLoop failure) := by
  have hplan := h.plan_eq
  unfold Run.leaveLoop
  rw [hplan]
  split
  · exact h.beginClose _
  · exact h.beginClose _
  · exact h.fail hu _
  · exact h.fail hu _
  · exact h.finish hu _
  · exact h.finish hu _

lemma breakLoop (hu : u.Stricter t) (h : r.Alike t u r') (e : Value) :
    (r.breakLoop e).Alike t u (r'.breakLoop e) := h.leaveLoop hu _

/-! ### In the loop -/

lemma pause (h : r.Alike t u r') : r.pause.Alike t u r'.pause := by
  have hlasts := h.set (fun r₁ => { r₁ with
    phase := .pausing
    waits := r₁.waits + 1
    timers := r₁.timers.start r.journal.now r₁.plan.interval .pause }) (fun _ => rfl) rfl
    fun _ _ _ hphase => Phase.noConfusion hphase
  have helapsed := h.set (fun r => { r with
    phase := .pausing
    waits := r.waits + 1
    ready := some (.fulfilled .nothing) }) (fun _ => rfl) rfl
    fun _ _ _ hphase => Phase.noConfusion hphase
  obtain @⟨k, hj, -, -, -⟩ := h
  have hnow := hj.now
  cases hpace : r.plan.pace with
  | timed =>
    simp only [Run.pause, hpace, hnow]
    split
    · exact helapsed
    · exact hlasts
  | immediate =>
    simp only [Run.pause, hpace]
    exact (helapsed.note rfl).abortAt _ _

lemma endAttempt (hu : u.Stricter t) (h : r.Alike t u r') (outcome : Outcome) :
    (r.endAttempt outcome).Alike t u (r'.endAttempt outcome) := by
  have hplan := h.plan_eq
  have hnoted : (r.note (.attemptEnded outcome)).Alike t u (r'.note (.attemptEnded outcome)) :=
    h.note rfl
  unfold Run.endAttempt
  simp only [Run.note, hplan] at hnoted ⊢
  cases r.plan.scope with
  | attempt => exact hnoted.finish hu _
  | loop | sender | program => exact hnoted.pause

/-- The same policy is asked. -/
lemma consult (hu : u.Stricter t) (h : r.Alike t u r') (n : Nat) (stage : Stage) (e : Value) :
    (r.perform (r.plan.policy.consult n stage e) Run.breakLoop fun r _ =>
      r.endAttempt .failed).Alike t u
    (r'.perform (r'.plan.policy.consult n stage e) Run.breakLoop fun r _ =>
      r.endAttempt .failed) := by
  rw [h.plan_eq]
  exact h.perform (Policy.indifferent_consult hu h.legible.policy _ _ _)
    (fun _ _ e hr => hr.breakLoop hu e) fun _ _ _ hr => hr.endAttempt hu _

lemma failAttempt (hu : u.Stricter t) (h : r.Alike t u r') (stage : Stage) (e : Value) :
    (r.failAttempt stage e).Alike t u (r'.failAttempt stage e) := by
  have hasked := h.set (fun r => { r with consults := r.consults + 1 }) (fun _ => rfl) rfl id
  have hnoted := hasked.note (e := .consulted stage e) rfl
  cases h
  exact (hnoted.abortAt r.plan.abortOnConsult (r.consults + 1)).consult hu r.consults stage e

lemma invoke (h : r.Alike t u r') : r.invoke.Alike t u r'.invoke := by
  have hset := fun shown => h.set (fun r => { r with
    phase := .invoking shown
    tally := { r.tally with invokes := r.tally.invokes + 1 } }) (fun _ => rfl) rfl
    fun _ _ _ hphase => Phase.noConfusion hphase
  cases h
  refine await (((hset _).note ?_).abortAt _ _) fun _ _ _ hphase => ?_
  · cases r.plan.link <;> rfl
  · rw [phase_abortAt] at hphase
    exact Phase.noConfusion hphase

lemma beginAttempt (hu : u.Stricter t) (h : r.Alike t u r') :
    r.beginAttempt.Alike t u r'.beginAttempt := by
  have hplan := h.plan_eq
  have hnoted : (r.note .attemptBegan).Alike t u (r'.note .attemptBegan) := h.note rfl
  unfold Run.beginAttempt
  rw [hplan]
  refine hnoted.perform (Act.indifferent_tell hu (.inr ?_) _) (fun _ _ e hr => hr.breakLoop hu e)
    fun _ _ _ hr => hr.invoke
  simpa using ⟨(Value.writable_text _).shown _, (Value.writable_text _).shown _⟩

lemma publish (h : r.Alike t u r') : r.publish.Alike t u r'.publish := by
  have hset := h.set (fun r => { r with
    phase := .publishing
    tally := { r.tally with publishes := r.tally.publishes + 1 } }) (fun _ => rfl) rfl
    fun _ _ _ hphase => Phase.noConfusion hphase
  cases h
  refine await ((hset.note ?_).abortAt _ _) fun _ _ _ hphase => ?_
  · cases r.plan.link <;> rfl
  · rw [phase_abortAt] at hphase
    exact Phase.noConfusion hphase

lemma invoked (hu : u.Stricter t) (h : r.Alike t u r') {methodName status : Value}
    (hname : methodName.Writable) (hstatus : status.Writable) :
    (r.invoked methodName status).Alike t u (r'.invoked methodName status) := by
  have hshown : ∀ m ∈ [("methodName", methodName), ("status", status)], m.2.Shown m.1 := by
    simpa using ⟨hname.shown _, hstatus.shown _⟩
  unfold Run.invoked
  split
  · exact h.perform (Act.indifferent_tell hu (.inr hshown) _) (fun _ _ e hr => hr.breakLoop hu e)
      fun _ _ _ hr => hr.publish
  · exact h.perform (Act.indifferent_tell hu (.inr hshown) _) (fun _ _ e hr => hr.breakLoop hu e)
      fun _ _ _ hr => hr.endAttempt hu _

lemma published (hu : u.Stricter t) (h : r.Alike t u r') : r.published.Alike t u r'.published := by
  refine h.perform (Act.indifferent_tell hu (.inr ?_) _) (fun _ _ e hr => hr.breakLoop hu e)
    fun _ _ _ hr => hr.endAttempt hu _
  simpa using (Value.writable_text _).shown _

lemma turn (hu : u.Stricter t) (h : r.Alike t u r') : r.turn.Alike t u r'.turn := by
  have haborted : r'.coordinator.isAborted = r.coordinator.isAborted := by cases h; rfl
  unfold Run.turn
  rw [haborted]
  split
  · exact h.perform (Act.indifferent_say hu _ _) (fun _ _ e hr => hr.breakLoop hu e)
      fun _ _ _ hr => hr.leaveLoop hu _
  · exact h.beginAttempt hu

/-! ### Opening -/

lemma opened (hu : u.Stricter t) (h : r.Alike t u r') : r.opened.Alike t u r'.opened := by
  have hlistens := h.set (fun r =>
    { r with coordinator := { r.coordinator with listening := true } }) (fun _ => rfl) rfl id
  have harmed := hlistens.note (e := .armed r.coordinator.id) rfl
  cases h
  unfold Run.opened
  refine harmed.perform (Act.indifferent_tell hu (.inr ?_) _) (fun _ _ e hr => hr.fail hu e)
    fun _ _ _ hr => hr.turn hu
  simpa using (Value.writable_number _).shown _

/-- A call on the way to a connection is awaited only where nothing else is. -/
lemma awaitDial (h : r.Alike t u r') (hfree : ∀ s, ¬ r.Pends s) (dial : Dial) :
    (r.awaitDial dial).Alike t u (r'.awaitDial dial) := by
  have hset := h.set (fun r => { r with
    tally := (dial.reply r.plan.script r.tally).2
    phase := .dialing dial }) (fun _ => rfl) rfl
    fun _ _ e _ hpends => absurd hpends (hfree (.rejected e))
  cases h
  refine hset.await fun cause after e hphase hreply => ?_
  obtain rfl : dial = .discarding cause := Phase.dialing.inj hphase
  exact Reply.mem_of_nth_rejected hreply

lemma connect (hu : u.Stricter t) (h : r.Alike t u r') (hfree : ∀ s, ¬ r.Pends s) :
    r.connect.Alike t u r'.connect := by
  have hset := h.set (fun r => { r with phase := .connecting }) (fun _ => rfl) rfl
    fun _ _ _ hphase => Phase.noConfusion hphase
  have hself := h
  cases h
  cases hlink : r.plan.link with
  | direct =>
    simp only [Run.connect, hlink]
    exact (hset.note rfl).await fun _ _ _ hphase => Phase.noConfusion hphase
  | client =>
    simp only [Run.connect, hlink]
    exact hself.perform (Act.indifferent_bind (Act.indifferent_emit rfl) fun _ =>
      Act.indifferent_pure _) (fun _ _ e hr => hr.fail hu e) fun _ _ dial hr =>
      hr.awaitDial hfree dial

lemma begin (hu : u.Stricter t) (h : r.Alike t u r') (hfree : ∀ s, ¬ r.Pends s) :
    r.begin.Alike t u r'.begin := by
  unfold Run.begin
  rw [h.plan_eq]
  split
  · exact h.beginAttempt hu
  · exact h.turn hu
  all_goals
    exact h.perform (indifferent_greet hu _) (fun _ _ e hr => hr.fail hu e)
      fun _ _ _ hr => hr.connect hu hfree

/-! ### Going on -/

lemma release (h : r.Alike t u r') : r.release.Alike t u r'.release := by
  obtain @⟨k, hj, hlegible, hcloses, hdiscards⟩ := h
  unfold Run.release
  simp only
  generalize r.coordinator.latch.set = set
  refine ⟨(hj.add rfl).add rfl, hlegible, hcloses, fun cause e hphase hpends => ?_⟩
  exact hdiscards cause e hphase (hpends.mono rfl fun _ hmem => (List.mem_filter.mp hmem).1)

lemma closed (hu : u.Stricter t) (h : r.Alike t u r') (failure : Option Value) :
    (r.closed failure).Alike t u (r'.closed failure) := by
  cases failure with
  | some e => exact h.release.fail hu e
  | none =>
    unfold Run.closed
    exact h.release.perform (Act.indifferent_say hu _ _) (fun _ _ e hr => hr.fail hu e)
      fun _ _ _ hr => hr.finish hu _

lemma resume (hu : u.Stricter t) (h : r.Alike t u r') (htells : r.Tells t u s)
    (hfree : ∀ s, ¬ r.Pends s) : (r.resume s).Alike t u (r'.resume s) := by
  have hphase : r'.phase = r.phase := by cases h; rfl
  have hplan := h.plan_eq
  unfold Tells at htells
  cases hp : r.phase with
  | idle | ended =>
    simp only [Run.resume, hphase, hp]
    exact h
  | connecting =>
    simp only [Run.resume, hphase, hp]
    cases s with
    | fulfilled a => exact h.opened hu
    | rejected e => exact h.fail hu e
  | dialing dial =>
    simp only [hp] at htells
    simp only [Run.resume, hphase, hp, hplan]
    refine h.perform (indifferent_answered hu _ fun cause e hdial hs => ?_)
      (fun _ _ e hr => hr.fail hu e) fun _ _ next hr => ?_
    · rw [hdial] at htells
      exact htells e hs
    · cases next with
      | some dial => exact hr.awaitDial hfree dial
      | none => exact hr.opened hu
  | invoking methodName =>
    simp only [hp] at htells
    obtain ⟨hname, hstatus⟩ := htells
    simp only [Run.resume, hphase, hp]
    have hnoted : (r.note (.answered .invoke s)).Alike t u (r'.note (.answered .invoke s)) :=
      h.note rfl
    have habsent : Value.absent.Writable := fun _ _ => ⟨none, Value.plainAt.eq_def ..⟩
    cases s with
    | rejected e => exact hnoted.failAttempt hu _ _
    | fulfilled a =>
      cases a with
      | response status payload => exact hnoted.invoked hu hname (hstatus status payload rfl)
      | _ => exact hnoted.invoked hu hname habsent
  | publishing =>
    simp only [Run.resume, hphase, hp]
    have hnoted : (r.note (.answered .publish s)).Alike t u (r'.note (.answered .publish s)) :=
      h.note rfl
    cases s with
    | rejected e => exact hnoted.failAttempt hu _ _
    | fulfilled a => exact hnoted.published hu
  | pausing =>
    simp only [Run.resume, hphase, hp]
    exact h.turn hu
  | closing failure =>
    simp only [hp] at htells
    have hnoted : (r.note (.answered .close s)).Alike t u (r'.note (.answered .close s)) :=
      h.note rfl
    simp only [Run.resume, hphase, hp, Run.plan_note, hplan]
    cases hlink : r.plan.link with
    | direct =>
      cases s with
      | fulfilled a => exact hnoted.closed hu _
      | rejected e => exact hnoted.fail hu e
    | client =>
      exact hnoted.perform (indifferent_closeAnswered hu (htells hlink))
        (fun _ _ e hr => hr.fail hu e) fun _ _ _ hr => hr.closed hu _

/-! ### From outside -/

lemma moveTo (h : r.Alike t u r') {time : Nat} (hdates : (r.moveTo time).journal.Undisturbed) :
    (r.moveTo time).Alike t u (r'.moveTo time) := by
  obtain ⟨hj, hlegible, hcloses, hdiscards⟩ := h
  exact ⟨hj.moveTo hdates, hlegible, hcloses, hdiscards⟩

lemma wake (hu : u.Stricter t) (h : r.Alike t u r') {wake : Alarm}
    (hwake : ∀ cause e, r.phase = .dialing (.discarding cause) → wake = .answer (.rejected e) →
      ∃ reply ∈ r.plan.script.closes, reply.failure? = some e) :
    (r.wake wake).Alike t u (r'.wake wake) := by
  have hself := h
  obtain ⟨hj, hlegible, hcloses, hdiscards⟩ := h
  cases wake with
  | pause =>
    refine ⟨hj, hlegible, hcloses, fun cause e hphase hpends => ?_⟩
    rcases hpends with hready | htimer
    · exact nomatch Option.some.inj hready
    · exact hdiscards cause e hphase (.inr htimer)
  | answer s =>
    refine ⟨hj, hlegible, hcloses, fun cause e hphase hpends => ?_⟩
    rcases hpends with hready | htimer
    · exact hwake cause e hphase (by rw [Option.some.inj hready])
    · exact hdiscards cause e hphase (.inr htimer)
  | grace =>
    unfold Run.wake
    refine hself.perform (Coordinator.indifferent_graceEnded hu _)
      (fun _ _ e hr => hr.escape e) fun _ _ forced hr => ?_
    cases forced with
    | false => exact hr
    | true =>
      simp only [if_true]
      cases r.plan.scope with
      | program => exact hr.exitWith 1
      | attempt | loop | sender => exact hr.note rfl

lemma fire (hu : u.Stricter t) (h : r.Alike t u r') (hdates : r.fire.journal.Undisturbed) :
    r.fire.Alike t u r'.fire := by
  have hself := h
  obtain @⟨k, hj, hlegible, hcloses, hdiscards⟩ := h
  unfold Run.fire at hdates ⊢
  simp only
  split
  · exact hself
  · next timer rest hnext =>
    simp only [hnext] at hdates
    obtain ⟨before, after, htimers, rfl⟩ := Timers.split_of_next? hnext
    have hrest : before ++ after ⊆ r.timers := by
      rw [htimers]
      exact ((List.sublist_cons_self _ _).append_left _).subset
    have htaken := hself.set (fun r => { r with timers := before ++ after }) (fun _ => rfl) rfl
      fun _ cause e hphase hpends =>
        hdiscards cause e hphase (hpends.mono rfl fun _ hmem => hrest hmem)
    refine (htaken.moveTo ((undergoes_wake _ _).undisturbed hdates)).wake hu ?_
    intro cause e hphase hwake
    refine hdiscards cause e hphase (.inr ⟨timer.due, ?_⟩)
    rw [← hwake, htimers]
    exact List.mem_append_right _ List.mem_cons_self

lemma startGrace (h : r.Alike t u r') (period : Number) :
    Alike t u { r with timers := r.timers.start r.journal.now period .grace }
      { r' with timers := r'.timers.start r'.journal.now period .grace } := by
  obtain ⟨hj, hlegible, hcloses, hdiscards⟩ := h
  have hnow := hj.now
  simp only [hnow]
  refine ⟨hj, hlegible, hcloses, fun cause e hphase hpends => ?_⟩
  refine hdiscards cause e hphase (hpends.mono rfl fun _ hmem => ?_)
  rcases List.mem_append.mp hmem with hmem | hmem
  · exact hmem
  · exact nomatch (Timer.mk.inj (List.mem_singleton.mp hmem)).2

lemma request (hu : u.Stricter t) (h : r.Alike t u r') (reason : String) :
    (r.request reason).Alike t u (r'.request reason) := by
  have hcoordinator : r'.coordinator = r.coordinator := by cases h; rfl
  unfold Run.request
  rw [hcoordinator]
  refine h.perform (Coordinator.indifferent_request hu _ _) (fun _ _ e hr => hr.escape e)
    fun k k' answer hr => ?_
  obtain ⟨c, aborted⟩ := answer
  cases aborted with
  | false => exact hr
  | true =>
    have hcalled := hr.set (fun r => { r with coordinator := c }) (fun _ => rfl) rfl id
    simp only [if_true]
    split
    · exact hcalled.endPause
    · exact hcalled.endPause.startGrace _

lemma deliver (hu : u.Stricter t) (h : r.Alike t u r') (signal : String) :
    (r.deliver signal).Alike t u (r'.deliver signal) := by
  have hhears : r'.hears signal = r.hears signal := by cases h; rfl
  unfold Run.deliver
  rw [hhears]
  split
  · exact h.request hu signal
  · exact h

/-- What a run at rest goes on from can be logged alike, and it waits for nothing else. -/
lemma tells (h : r.Alike t u r') (hr : r.Sound plan) (hready : r.ready = some s) :
    r.Tells t u s ∧ ∀ s', ¬ { r with ready := none }.Pends s' := by
  obtain ⟨-, hlegible, hcloses, hdiscards⟩ := h
  have hbrief : ∀ e, (∃ reply ∈ r.plan.script.closes, reply.failure? = some e) →
      r.plan.link = .client → t.admits .warn = u.admits .warn ∨ e.Briefable := by
    rintro e ⟨reply, hmem, he⟩ hlink
    exact (hcloses hlink).imp_right fun hbrief => hbrief reply hmem e he
  have hfree : r.timers.drives = [] → ∀ s', ¬ { r with ready := none }.Pends s' := by
    rintro hdrives s' (hready | ⟨due, hmem⟩)
    · exact nomatch hready
    · have hdrive : (⟨due, .answer s'⟩ : Timer Alarm) ∈ r.timers.drives :=
        Timers.mem_drives.mpr ⟨hmem, rfl⟩
      simp [hdrives] at hdrive
  unfold Tells
  cases hr with
  | awaiting _ hat hawaits =>
    cases hawaits with
    | never hnone => simp [hready] at hnone
    | coming hnone => simp [hready] at hnone
    | answered hsome hdrives hf =>
      obtain rfl := Option.some.inj (hready.symm.trans hsome)
      refine ⟨?_, hfree hdrives⟩
      cases hphase : r.phase with
      | idle | connecting | publishing | pausing | ended => trivial
      | dialing dial =>
        cases dial with
        | creating | opening => trivial
        | discarding cause =>
          rw [hphase] at hat
          cases hat with
          | discarding hlink =>
            rintro e rfl
            exact hbrief e (hdiscards cause e hphase (.inl hready)) hlink
      | invoking name =>
        rw [hphase] at hat hf
        cases hat with
        | invoking =>
          refine ⟨Value.writable_text _, ?_⟩
          rintro status payload rfl
          exact hf.writable_status hlegible.statuses
      | closing failure =>
        rw [hphase] at hf
        obtain ⟨after, n, hn⟩ := hf
        rintro hlink e rfl
        exact hbrief e (Reply.mem_of_nth_rejected hn) hlink
  | pausing _ hphase hpauses =>
    rw [hphase]
    cases hpauses with
    | elapsed _ hdrives => exact ⟨trivial, hfree hdrives⟩
    | lasting hnone => simp [hready] at hnone
  | ended hfree _ =>
    have hnone := hfree.ready
    simp [hready] at hnone

/-- Under the same schedule the two stay alike. Where the run goes on, it goes on from an answer
that can be logged, and waits for nothing else. -/
lemma make (hu : u.Stricter t) (h : r.Alike t u r') (m : Move)
    (hgo : r.exit = none → ∀ s, r.ready = some s →
      r.Tells t u s ∧ ∀ s', ¬ { r with ready := none }.Pends s')
    (hdates : (r.make m).journal.Undisturbed) : (r.make m).Alike t u (r'.make m) := by
  have hself := h
  obtain ⟨hj, -, -, -⟩ := h
  cases m with
  | goOn =>
    simp only [Run.make]
    split
    · next s hexit hready =>
      obtain ⟨htells, hfree⟩ := hgo hexit s hready
      have htaken := hself.set (fun r => { r with ready := none }) (fun _ => rfl) rfl
        fun _ _ e _ hpends => absurd hpends (hfree (.rejected e))
      exact htaken.resume hu htells hfree
    · exact hself
  | fire =>
    simp only [Run.make] at hdates ⊢
    split
    · next hexit =>
      rw [if_pos hexit] at hdates
      exact hself.fire hu hdates
    · exact hself
  | wait time =>
    have hnow := hj.now
    simp only [Run.make, hnow] at hdates ⊢
    split
    · next htime =>
      rw [if_pos htime] at hdates
      exact hself.moveTo hdates
    · exact hself
  | signal name => exact hself.deliver hu name
  | abort =>
    simp only [Run.make]
    split
    · exact hself.abort
    · exact hself

end Alike

end Run

end Sender

end EdgeCaller

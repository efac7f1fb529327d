import EdgeCaller.Proofs.Sender.Ending
import EdgeCaller.Proofs.Sender.ForcedExit
/-!
What a run has passed.

Under a schedule a sender over a module client comes to certain points only from certain others. It
awaits that the client is opened only after creating it has succeeded, it is armed and calls only
after opening has succeeded, and its work is aborted only by a signal that it heard once it was
armed. Where the exit of a program was forced, that is how it has exited.
-/

namespace EdgeCaller.Sender

lemma History.count_calls_of_unarmed {plan : Plan} {es : List Entry} {p : Place} {aborted : Bool}
    (h : History plan es p aborted) (hp : p.unarmed = 1) : count Mark.isCall es = 0 := by
  induction h with
  | nil => rfl
  | @cons past p q aborted time e m _ hm hl ih =>
    have harmed := hl.unarmed
    have hone := p.unarmed_le_one
    have hcall : m.isCall = false := by
      cases hl with
      | invoke | publish => simp [Place.unarmed] at hp
      | _ => rfl
    rw [count_cons, hm, hcall]
    exact ih (by omega)

/-- Whether a run is on the way to a connection. -/
def Phase.isOpening : Phase → Bool
  | connecting | dialing _ => true
  | idle | invoking _ | publishing | pausing | closing _ | ended _ => false

namespace Run

/-- Under this schedule a call on the way to a connection has succeeded and the run has gone on from
it, before the first call over the connection. -/
def Obtains (r : Run) (moves : List Move) (dial : Dial) : Prop :=
  ∃ after before a, moves = after ++ .goOn :: before ∧ (r.follow before).exit = none ∧
    (r.follow before).phase = .dialing dial ∧ (r.follow before).ready = some (.fulfilled a) ∧
    count Mark.isCall (r.follow before).journal.entries = 0

variable {plan : Plan} {r r' : Run} {s : Settlement} {moves : List Move}

/-! ### Steps -/

/-- Whatever a move brings, it comes from outside, or the run goes on from an answer. -/
lemma Sound.make_cases (hr : r.Sound plan) (m : Move) : r.Undergoes (r.make m) ∨
    m = .goOn ∧ r.exit = none ∧ ∃ s, r.ready = some s ∧
      r.make m = { r with ready := none }.resume s := by
  cases m with
  | goOn =>
    simp only [Run.make]
    split
    · next s hexit hready => exact .inr ⟨trivial, hexit, s, hready, rfl⟩
    · exact .inl r.undergoes_self
  | fire =>
    simp only [Run.make]
    split
    · next hexit => exact .inl (undergoes_fire hr hexit)
    · exact .inl r.undergoes_self
  | wait time =>
    simp only [Run.make]
    split
    · next h => exact .inl (undergoes_moveTo h.1)
    · exact .inl r.undergoes_self
  | signal name => exact .inl (undergoes_deliver r name)
  | abort =>
    simp only [Run.make]
    split
    · exact .inl (undergoes_abort r)
    · exact .inl r.undergoes_self

lemma Sound.make (hr : r.Sound plan) (m : Move) : (r.make m).Sound plan := by
  rcases r.make_cases m with hsame | hstep
  · rwa [hsame]
  · exact hstep.sound hr

lemma Sound.follow (hr : r.Sound plan) (moves : List Move) : (r.follow moves).Sound plan := by
  induction moves with
  | nil => exact hr
  | cons m past ih => exact ih.make m

lemma Sound.undisturbed_make (hr : r.Sound plan) {m : Move} (hu : (r.make m).journal.Undisturbed) :
    r.journal.Undisturbed := by
  rcases hr.make_cases m with hworld | ⟨-, -, s, -, hmade⟩
  · exact hworld.undisturbed hu
  · rw [hmade] at hu
    exact (extends_resume { r with ready := none } s).undisturbed_iff.mp hu

lemma Sound.undisturbed_follow (hr : r.Sound plan) (moves : List Move)
    (hu : (r.follow moves).journal.Undisturbed) : r.journal.Undisturbed := by
  induction moves with
  | nil => exact hu
  | cons m past ih => exact ih ((hr.follow past).undisturbed_make hu)

/-! ### Opening -/

lemma Undergoes.mem_marks (h : r.Undergoes r') {m : Mark} (hm : m.isForeign = false)
    (hmem : m ∈ marks r'.journal.entries) : m ∈ marks r.journal.entries := by
  obtain ⟨new, hnew, hforeign⟩ := h.entries
  rw [marks, hnew, List.map_append, List.mem_append] at hmem
  rcases hmem with hmem | hmem
  · obtain ⟨x, hx, rfl⟩ := List.mem_map.mp hmem
    rw [hforeign x hx] at hm
    simp at hm
  · exact hmem

lemma unarmed_of_isOpening (h : r.Sound plan) (hphase : r.phase.isOpening = true) :
    .armed ∉ marks r.journal.entries := by
  intro harmed
  cases h with
  | awaiting hstands hat =>
    have hunarmed := hstands.history.unarmed_of_mem harmed
    generalize r.phase = phase at hat hphase
    cases hat <;> simp [Place.unarmed, Phase.isOpening] at hunarmed hphase
  | pausing _ hpausing => simp [hpausing, Phase.isOpening] at hphase
  | ended _ hended => simp [hended, Phase.isOpening] at hphase

/-- Until it is armed, a sender goes on only from what it is answered on the way to a connection. -/
lemma Sound.of_unarmed (h : r.Sound plan) (hdown : plan.scope.tearsDown = true)
    (hnot : .armed ∉ marks r.journal.entries) (hready : r.ready = some s) :
    (plan.link = .direct ∧ r.phase = .connecting ∨
      plan.link = .client ∧ ∃ dial, r.phase = .dialing dial) ∧
    count Mark.isCall r.journal.entries = 0 := by
  obtain rfl := h.plan_eq
  cases h with
  | awaiting hstands hat =>
    have hunarmed := hstands.history.unarmed_of_not_mem hdown hnot
    refine ⟨?_, hstands.history.count_calls_of_unarmed hunarmed⟩
    generalize r.phase = phase at hat
    cases hat with
    | connecting hlink => exact .inl ⟨hlink, rfl⟩
    | creating hlink | opening hlink | discarding hlink => exact .inr ⟨hlink, _, rfl⟩
    | invoking | publishing | closing => simp [Place.unarmed] at hunarmed
  | pausing hstands =>
    have hunarmed := hstands.history.unarmed_of_not_mem hdown hnot
    simp [Place.unarmed] at hunarmed
  | ended hfree => simp [hfree.ready] at hready

/-- How a sender goes on from what a module client answers: a client that was created is opened, one
that would not open is closed, and every other failure ends the run. -/
lemma resume_dialing {dial : Dial} (hphase : r.phase = .dialing dial) (s : Settlement) :
    (∃ next, (r.resume s).phase = .dialing next ∧
      (next = .opening → dial = .creating ∧ ∃ a, s = .fulfilled a) ∧
      (r.resume s).journal.console = r.journal.console ∧
      (r.resume s).journal.epoch = r.journal.epoch) ∨
    (dial = .opening ∧ ∃ a, s = .fulfilled a) ∨
    ∃ r' e, r.Remarked r' ∧ r.resume s = r'.fail e := by
  have hawaits : ∀ (e : Event) (next : Dial), ((r.note e).awaitDial next).phase = .dialing next ∧
      ((r.note e).awaitDial next).journal.console = r.journal.console ∧
      ((r.note e).awaitDial next).journal.epoch = r.journal.epoch := by
    intro e next
    have hawaited : ((r.note e).awaitDial next).phase = .dialing next ∧
        ((r.note e).awaitDial next).journal = (r.note e).journal := await_frame _ _
    rw [hawaited.2]
    exact ⟨hawaited.1, rfl, rfl⟩
  simp only [Run.resume, hphase]
  cases dial with
  | creating =>
    cases s with
    | fulfilled a =>
      obtain ⟨hnext, hj⟩ := hawaits .clientOpen .opening
      exact .inl ⟨.opening, hnext, fun _ => ⟨rfl, a, rfl⟩, hj⟩
    | rejected e => exact .inr (.inr ⟨r, _, ⟨rfl, .refl _ _, rfl, rfl, id⟩, rfl⟩)
  | opening =>
    cases s with
    | fulfilled a => exact .inr (.inl ⟨rfl, a, rfl⟩)
    | rejected e =>
      obtain ⟨hnext, hj⟩ := hawaits .clientClose (.discarding e)
      exact .inl ⟨.discarding e, hnext, by simp, hj⟩
  | discarding cause =>
    have hw : ((Dial.discarding cause).answered r.plan.transport s).Writes
        fun e => e.mark = .remark := by
      cases s with
      | fulfilled a => exact Act.writes_throw _
      | rejected e =>
        exact Act.writes_bind (Act.writes_ofText _) fun _ =>
          Act.writes_bind (Act.writes_tell (fun _ => rfl) _ _) fun _ => Act.writes_throw _
    have hj := hw r.journal
    unfold perform
    rcases hact : ((Dial.discarding cause).answered r.plan.transport s).exec r.journal
      with ⟨e | next, k⟩ <;> rw [hact] at hj
    · exact .inr (.inr ⟨{ r with journal := k }, e, ⟨rfl, hj, rfl, rfl, id⟩, rfl⟩)
    · exact absurd hact (discarding_ne_ok _ _ _ _ _ _)

/-- A sender at its beginning: it asks for a connection, or has failed before. -/
lemma begin_cases (hscope : r.plan.scope.tearsDown = true) :
    (∃ k, (greet r.plan).exec r.journal = (.ok (), k) ∧ r.begin = { r with journal := k }.connect) ∨
    ∃ r' e, r.Remarked r' ∧ r.begin = r'.fail e := by
  have hgreets : r.begin = r.perform (greet r.plan) Run.fail fun r _ => r.connect := by
    unfold Run.begin
    cases hs : r.plan.scope with
    | attempt | loop => simp [hs, Scope.tearsDown] at hscope
    | sender | program => rfl
  have hj := writes_greet (P := fun e => e.mark = .remark) (fun _ _ => rfl) r.plan r.journal
  rw [hgreets]
  unfold perform
  rcases hact : (greet r.plan).exec r.journal with ⟨e | next, k⟩ <;> rw [hact] at hj
  · exact .inr ⟨{ r with journal := k }, e, ⟨rfl, hj, rfl, rfl, id⟩, rfl⟩
  · exact .inl ⟨k, rfl, rfl⟩

lemma connect_frame (r : Run) :
    (r.connect.phase = .connecting ∨ r.connect.phase = .dialing .creating) ∧
    r.connect.journal.console = r.journal.console ∧ r.connect.journal.epoch = r.journal.epoch := by
  cases hlink : r.plan.link with
  | direct =>
    simp only [connect, hlink]
    have hasked := await_frame ({ r with phase := .connecting }.note (.connect r.plan.transport))
      (r.plan.opening.settlement? .nothing)
    rw [hasked.2]
    exact ⟨.inl hasked.1, rfl, rfl⟩
  | client =>
    have hasked : ∀ r' : Run, (r'.awaitDial .creating).phase = .dialing .creating ∧
        (r'.awaitDial .creating).journal = r'.journal := fun r' => await_frame _ _
    simp only [connect, hlink]
    obtain ⟨hphase, hj⟩ := hasked (r.note (.clientCreate (Wire.ofName r.plan.transport)))
    change _ ∧ ((r.note _).awaitDial .creating).journal.console = _ ∧
      ((r.note _).awaitDial .creating).journal.epoch = _
    rw [hj]
    exact ⟨.inr hphase, rfl, rfl⟩

lemma isOpening_connect (r : Run) : r.connect.phase.isOpening = true := by
  rcases r.connect_frame.1 with hphase | hphase <;> rw [hphase] <;> rfl

lemma Remarked.fail (h : r.Remarked r') (e : Value) : r.Remarked (r'.fail e) :=
  h.trans (r'.finish_spec _).1

/-- No sender is armed before its connection is open. -/
lemma unarmed_begin (hdown : plan.scope.tearsDown = true) (console : Console) (epoch : Int) :
    .armed ∉ marks (create plan (.start console epoch)).begin.journal.entries := by
  intro harmed
  rcases begin_cases (r := create plan (.start console epoch)) hdown with
    ⟨k, -, hconnects⟩ | ⟨r', e, hremarked, hfailed⟩
  · refine unarmed_of_isOpening (Begins.sound .fresh) ?_ harmed
    rw [hconnects]
    exact isOpening_connect _
  · rw [hfailed] at harmed
    simpa [create, Journal.start, marks] using
      (hremarked.fail e).mem_marks Mark.noConfusion harmed

/-- A sender is armed only by going on from a connection that is open. -/
lemma Sound.goes_on_of_armed (hr : r.Sound plan) (hdown : plan.scope.tearsDown = true)
    (hnot : .armed ∉ marks r.journal.entries) {m : Move}
    (harmed : .armed ∈ marks (r.make m).journal.entries) :
    m = .goOn ∧ r.exit = none ∧ count Mark.isCall r.journal.entries = 0 ∧
      ∃ a, r.ready = some (.fulfilled a) ∧
        r.make m = { r with ready := none }.resume (.fulfilled a) ∧
        (plan.link = .direct ∧ r.phase = .connecting ∨
          plan.link = .client ∧ r.phase = .dialing .opening) := by
  have hsound := hr.make m
  rcases hr.make_cases m with hworld | ⟨rfl, hexit, s, hready, hresumed⟩
  · exact absurd (hworld.mem_marks rfl harmed) hnot
  · obtain ⟨hphase, hcalls⟩ := hr.of_unarmed hdown hnot hready
    rw [hresumed] at hsound harmed
    have hfailed : ∀ r' e, r.Remarked r' →
        { r with ready := none }.resume s ≠ r'.fail e := by
      intro r' e hremarked hfailed
      rw [hfailed] at harmed
      exact hnot ((hremarked.fail e).mem_marks Mark.noConfusion harmed)
    rcases hphase with ⟨hlink, hphase⟩ | ⟨hlink, dial, hphase⟩
    · cases s with
      | fulfilled a => exact ⟨rfl, hexit, hcalls, a, hready, hresumed, .inl ⟨hlink, hphase⟩⟩
      | rejected e =>
        refine absurd ?_ (hfailed { r with ready := none } e ⟨rfl, .refl _ _, rfl, rfl, id⟩)
        simp only [Run.resume, hphase]
    · rcases resume_dialing (r := { r with ready := none }) hphase s with
        ⟨next, hnext, -⟩ | ⟨rfl, a, rfl⟩ | ⟨r', e, hremarked, hfails⟩
      · exact absurd harmed (unarmed_of_isOpening hsound (by rw [hnext]; rfl))
      · exact ⟨rfl, hexit, hcalls, a, hready, hresumed, .inr ⟨hlink, hphase⟩⟩
      · have hself : r.Remarked { r with ready := none } := ⟨rfl, .refl _ _, rfl, rfl, id⟩
        exact absurd hfails (hfailed r' e (hself.trans hremarked))

/-- Under this schedule a sender over a module client has gone on from a client that is open. -/
lemma obtains_of_armed (hr : r.Sound plan) (hlink : plan.link = .client)
    (hdown : plan.scope.tearsDown = true) (hnot : .armed ∉ marks r.journal.entries)
    (harmed : .armed ∈ marks (r.follow moves).journal.entries) : r.Obtains moves .opening := by
  obtain ⟨after, m, before, rfl, hbefore, hmade⟩ :=
    exists_crossing (Q := fun r => .armed ∈ marks r.journal.entries) hnot harmed
  obtain ⟨rfl, hexit, hcalls, a, hready, -, hphase⟩ :=
    (hr.follow before).goes_on_of_armed hdown hbefore hmade
  rcases hphase with ⟨hdirect, -⟩ | ⟨-, hphase⟩
  · simp [hlink] at hdirect
  · exact ⟨after, before, a, rfl, hexit, hphase, hready, hcalls⟩

/-- A module client is opened only after it was created. -/
lemma obtains_of_opening (hr : r.Sound plan) (hlink : plan.link = .client)
    (hdown : plan.scope.tearsDown = true) (hnot : r.phase ≠ .dialing .opening)
    (hopening : (r.follow moves).phase = .dialing .opening) : r.Obtains moves .creating := by
  obtain ⟨after, m, before, rfl, hbefore, hmade⟩ :=
    exists_crossing (Q := fun r => r.phase = .dialing .opening) hnot hopening
  have hpast := hr.follow before
  rcases hpast.make_cases m with hworld | ⟨rfl, hexit, s, hready, hresumed⟩
  · exact absurd (hworld.phase.symm.trans hmade) hbefore
  · have hunarmed := unarmed_of_isOpening (hpast.make .goOn) (by rw [hmade]; rfl)
    rw [hresumed] at hmade hunarmed
    have hsuffix := (extends_resume { r.follow before with ready := none } s).suffix
    have hnone : .armed ∉ marks (r.follow before).journal.entries := fun harmed =>
      hunarmed ((hsuffix.map fun x => x.event.mark).subset harmed)
    obtain ⟨hphase, hcalls⟩ := hpast.of_unarmed hdown hnone hready
    rcases hphase with ⟨hdirect, -⟩ | ⟨-, dial, hphase⟩
    · simp [hlink] at hdirect
    · rcases resume_dialing (r := { r.follow before with ready := none }) hphase s with
        ⟨next, hnext, hcreated, -⟩ | ⟨rfl, -⟩ | ⟨r', e, -, hfailed⟩
      · obtain ⟨rfl, a, rfl⟩ := hcreated (Phase.dialing.inj (hnext.symm.trans hmade))
        exact ⟨after, before, a, rfl, hexit, hphase, hready, hcalls⟩
      · exact absurd hphase hbefore
      · rw [hfailed, Run.fail, (r'.finish_spec _).2.1] at hmade
        simp at hmade

/-! ### Signals and the grace period -/

lemma reason_resume (hunprompted : r.plan.Unprompted) (s : Settlement) :
    (r.resume s).coordinator.reason = r.coordinator.reason := by
  have hfail : ∀ (r' : Run) (e : Value), r'.coordinator = r.coordinator →
      (r'.fail e).coordinator.reason = r.coordinator.reason := by
    intro r' e hc
    rw [Run.fail, (r'.finish_spec _).1.coordinator, hc]
  have hclosed : ∀ (r' : Run) (failure : Option Value), r'.coordinator = r.coordinator →
      r'.plan = r.plan → (r'.closed failure).coordinator.reason = r.coordinator.reason := by
    intro r' failure hc hplan
    have hrelease : r'.release.coordinator.reason = r'.coordinator.reason := rfl
    have hreleased : r'.release.plan.Unprompted := hplan.symm ▸ hunprompted
    rw [(proceeds_closed r' failure).reason hreleased, hrelease, hc]
  by_cases hclosing : ∃ failure, r.phase = .closing failure
  · obtain ⟨failure, hphase⟩ := hclosing
    simp only [Run.resume, hphase, plan_note]
    cases r.plan.link with
    | direct =>
      cases s with
      | fulfilled a => exact hclosed _ _ rfl rfl
      | rejected e => exact hfail _ _ rfl
    | client =>
      simp only [perform]
      split
      · exact hclosed _ _ rfl rfl
      · exact hfail _ _ rfl
  · have hproceeds := proceeds_resume (fun failure hphase => hclosing ⟨failure, hphase⟩) s
    have hheard : (r.heard s).plan = r.plan ∧ (r.heard s).coordinator = r.coordinator := by
      unfold heard
      split <;> exact ⟨rfl, rfl⟩
    rw [hproceeds.reason (by rw [hheard.1]; exact hunprompted), hheard.2]

lemma coordinator_wake (r : Run) (wake : Alarm) : (r.wake wake).coordinator = r.coordinator := by
  cases wake with
  | pause | answer s => rfl
  | grace =>
    unfold Run.wake perform
    rcases r.coordinator.graceEnded.exec r.journal with ⟨e | forced, k⟩
    · rfl
    · cases forced with
      | false => rfl
      | true =>
        simp only [if_true]
        cases r.plan.scope <;> rfl

lemma coordinator_fire (r : Run) : r.fire.coordinator = r.coordinator := by
  unfold Run.fire
  split
  · rfl
  · exact coordinator_wake _ _

/-- A signal that is heard is one of the two that a run listens for, and the run was armed. -/
lemma Sound.of_hears (h : r.Sound plan) {name : String} (hhears : r.hears name = true) :
    name ∈ Coordinator.standardSignals ∧ .armed ∈ marks r.journal.entries := by
  obtain ⟨p, hp⟩ := h.exists_stands
  obtain ⟨-, -, hsignals, -⟩ := hp.origin
  simp only [Run.hears, Coordinator.listeners, hsignals, Bool.and_eq_true,
    decide_eq_true_eq] at hhears
  obtain ⟨-, hlisteners⟩ := hhears
  split at hlisteners
  · next hl =>
    refine ⟨List.count_pos_iff.mp hlisteners, ?_⟩
    rw [hp.listening, Bool.and_eq_true] at hl
    have hunarmed : p.unarmed ≠ 1 := fun hone => by simp [p.listens_of_unarmed hone] at hl
    by_contra hnot
    exact hunarmed (hp.history.unarmed_of_not_mem hl.1 hnot)
  · simp at hlisteners

/-- The work of a sender that does not abort it itself is aborted by a signal that was heard. -/
lemma hears_of_isAborted (hr : r.Sound plan) (hdown : plan.scope.tearsDown = true)
    (hunprompted : plan.Unprompted) (hnot : r.coordinator.isAborted = false)
    (haborted : (r.follow moves).coordinator.isAborted = true) :
    ∃ after name before, moves = after ++ .signal name :: before ∧
      (r.follow before).hears name = true := by
  have hnever : ¬ r.coordinator.isAborted = true := by simp [hnot]
  obtain ⟨after, m, before, rfl, hbefore, hmade⟩ :=
    exists_crossing (Q := fun r => r.coordinator.isAborted = true) hnever haborted
  have hplan := (hr.follow before).plan_eq
  have hsame : ((r.follow before).make m).coordinator.reason ≠
      (r.follow before).coordinator.reason := by
    intro hreason
    rw [Coordinator.isAborted, hreason] at hmade
    exact hbefore hmade
  cases m with
  | goOn =>
    refine absurd ?_ hsame
    simp only [Run.make]
    split
    · exact reason_resume (by rw [hplan]; exact hunprompted) _
    · rfl
  | fire =>
    refine absurd ?_ hsame
    simp only [Run.make]
    split
    · rw [coordinator_fire]
    · rfl
  | wait time =>
    refine absurd ?_ hsame
    simp only [Run.make]
    split <;> rfl
  | signal name =>
    refine ⟨after, name, before, rfl, ?_⟩
    by_contra hdeaf
    exact hsame (by simp [Run.make, Run.deliver, hdeaf])
  | abort => exact absurd (by simp [Run.make, hplan, hdown]) hsame

/-- At the end of its grace period a program exits with code 1. -/
lemma exit_of_grace (hr : r.Sound plan) (hscope : plan.scope = .program) {t : Timer Alarm}
    {rest : Timers Alarm} (hnext : r.timers.next? = some (t, rest)) (hgrace : t.wake = .grace)
    (hu : r.fire.journal.Undisturbed) : r.fire.exit = some 1 := by
  obtain ⟨p, hp⟩ := hr.exists_stands
  have hlistening : r.coordinator.listening = true := by
    have hmem : t ∈ r.timers.graces :=
      Timers.mem_graces.mpr ⟨(Timers.next?_eq_some hnext).1, by rw [hgrace]; rfl⟩
    rcases hp.grace with hnil | ⟨u, hl, -⟩
    · simp [hnil] at hmem
    · exact hl
  have hfire : r.fire = ({ r with timers := rest }.moveTo t.due).wake .grace := by
    unfold Run.fire
    rw [hnext]
    simp only [hgrace]
  rw [hfire] at hu ⊢
  have hmoved : Journal.Undisturbed { r.journal with now := t.due } :=
    (undergoes_wake _ _).undisturbed hu
  obtain ⟨k, -, hact⟩ := Coordinator.exec_graceEnded (hr.latch_of_listening hlistening) hmoved
  have hprogram : r.plan.scope = .program := by rw [hr.plan_eq]; exact hscope
  simp only [Run.wake, Run.moveTo, perform, hact, hprogram, if_true, exitWith, Run.note]

end Run

end EdgeCaller.Sender

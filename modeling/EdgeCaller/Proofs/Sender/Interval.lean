import EdgeCaller.Proofs.Delay
import EdgeCaller.Proofs.Sender.Steps
/-!
The interval between two attempts.

Between the end of an attempt and the beginning of the next one the timer of the pause runs. The
interval that is configured is therefore kept to exactly if it is not longer than the longest delay
of a timer: from there on the next attempt begins after a millisecond.
-/

namespace EdgeCaller.Sender

/-- At least this delay passes between the end of an attempt and the beginning of the next one. -/
def Honours (delay : Number) (es : List Entry) : Prop :=
  ∀ x past, x :: past <:+ es → x.event.mark = .began → ∀ u, lastEnd past = some u →
    ∃ passed, x.time = u + passed ∧ delay.AtMost passed

namespace Run

variable {plan : Plan} {r : Run} {p : Place}

/-! ### The earliest beginning -/

/-- An attempt begins when the pause after the last one is rested. -/
lemma Reached.began_after (h : Reached plan r) (hpace : plan.pace = .timed) {x : Entry}
    {past : List Entry} (hs : x :: past <:+ r.journal.entries) (hx : x.event.mark = .began)
    {u : Nat} (hu : lastEnd past = some u) :
    u + Timers.effectiveDelay plan.interval ≤ x.time := by
  obtain ⟨p, -, hhistory⟩ := h.sound.exists_history
  obtain ⟨q, q', b, -, hl⟩ := hhistory.leads_of_suffix hs
  rw [hx] at hl
  cases hl with
  | attempt _ hspaced => exact hspaced hpace u hu

/-! ### The next beginning -/

lemma suffix_beginClose (r : Run) (failure : Option Value) :
    r.journal.entries <:+ (r.beginClose failure).journal.entries := by
  unfold beginClose
  rw [(await_frame _ _).2]
  exact List.suffix_cons _ _

lemma suffix_breakLoop (r : Run) (e : Value) :
    r.journal.entries <:+ (r.breakLoop e).journal.entries := by
  have hfinish : ∀ s, r.journal.entries <:+ (r.finish s).journal.entries := fun s =>
    (r.finish_spec s).1.journal.suffix
  unfold breakLoop leaveLoop
  split
  · exact suffix_beginClose r _
  · exact suffix_beginClose r _
  all_goals exact hfinish _

lemma suffix_invoke (r : Run) : r.journal.entries <:+ r.invoke.journal.entries := by
  unfold Run.invoke
  rw [(await_frame _ _).2]
  refine List.IsSuffix.trans ?_ (interrupted_abortAt (.inl Phase.noConfusion) _ _).journal.suffix
  exact List.suffix_cons _ _

lemma suffix_perform {α : Type} {act : Act α} {fail : Run → Value → Run} {next : Run → α → Run}
    (r : Run) (hw : act.Writes fun _ => True)
    (hfail : ∀ r' e, r'.journal.entries <:+ (fail r' e).journal.entries)
    (hnext : ∀ r' a, r'.journal.entries <:+ (next r' a).journal.entries) :
    r.journal.entries <:+ (r.perform act fail next).journal.entries := by
  have hj := (hw r.journal).suffix
  unfold perform
  rcases hact : act.exec r.journal with ⟨e | a, k⟩ <;> rw [hact] at hj
  · exact hj.trans (hfail { r with journal := k } e)
  · exact hj.trans (hnext { r with journal := k } a)

lemma suffix_beginAttempt (r : Run) :
    ⟨r.journal.now, .attemptBegan⟩ :: r.journal.entries <:+ r.beginAttempt.journal.entries :=
  suffix_perform (r.note .attemptBegan) (Act.writes_tell (fun _ => trivial) _ _)
    suffix_breakLoop fun r' _ => suffix_invoke r'

/-- A run that pauses begins its next attempt when the pause is over, if nothing else happens. -/
theorem Reached.next_attempt (h : Reached plan r) (hphase : r.phase = .pausing)
    (hready : r.ready = none) (hexit : r.exit = none) {u : Nat}
    (hu : lastEnd r.journal.entries = some u) :
    ∃ r', Reached plan r' ∧
      ⟨u + Timers.effectiveDelay plan.interval, .attemptBegan⟩ :: r.journal.entries <:+
        r'.journal.entries := by
  cases h.sound with
  | awaiting _ hat => exact absurd hphase hat.ne_pausing
  | ended _ hended =>
    rw [hended] at hphase
    simp at hphase
  | pausing hstands _ hpauses =>
    cases hpauses with
    | elapsed hsome =>
      rw [hsome] at hready
      simp at hready
    | @lasting v _ ha hend hdrives =>
      obtain rfl : v = u := Option.some.inj (hend.symm.trans hu)
      have htimers := (Timers.drives_eq_self (hstands.graces_eq_nil ha)).symm.trans hdrives
      have hplan : r.plan = plan := hstands.origin.1
      -- The run when the pause is over, before it has gone on from that.
      let rested : Run := { r with
        timers := []
        ready := none
        journal := { r.journal with now := v + Timers.effectiveDelay r.plan.interval } }
      have hfire : r.fire = { rested with ready := some (.fulfilled .nothing) } := by
        unfold Run.fire
        rw [htimers]
        rfl
      have hphase' : rested.phase = .pausing := hphase
      have hgoOn : rested.resume (.fulfilled .nothing) = rested.beginAttempt := by
        simp only [Run.resume, hphase']
        exact if_neg (by simp [rested, ha])
      have hfired := h.step (.fire hexit)
      rw [hfire] at hfired
      have hbegan : Reached plan (rested.resume (.fulfilled .nothing)) :=
        hfired.step (.goOn hexit rfl)
      rw [hgoOn] at hbegan
      exact ⟨_, hbegan, hplan ▸ suffix_beginAttempt rested⟩

/-- A loop over a connection on which every call succeeds. -/
def steady (target : Target) (interval : Number) : Plan where
  scope := .loop
  link := .direct
  script := {}
  target
  interval

lemma pauses_steady (target : Target) (interval : Number) :
    ∃ r, Reached (steady target interval) r ∧ r.phase = .pausing ∧ r.ready = none ∧
      r.exit = none ∧ lastEnd r.journal.entries = some 0 := by
  have hreached :=
    (Reached.begin (steady target interval) { threshold := .from .error } 0).drain
  refine ⟨_, hreached, ?_, ?_, ?_, ?_⟩
  · cbv
  · cbv
  · cbv
  · cbv

/-- Of the settings that are accepted, a loop keeps to the interval exactly where it is not longer
than the longest delay of a timer. -/
theorem honours_interval_iff {tree : FileTree} {place : List String} {env : Environment}
    {config : Config} (h : Settings.load tree place env = .ok config) :
    (∀ plan r, plan.scope = .loop → plan.pace = .timed → plan.interval = config.interval →
      Reached plan r → Honours config.interval r.journal.entries) ↔
      config.interval.AtMost Timers.longestDelay := by
  obtain ⟨hwhole, hpos⟩ := Settings.interval_spec h
  rw [← Timers.atMost_effectiveDelay_iff hwhole hpos]
  constructor
  -- There is a loop that begins again as soon as the timer fires, so that must not be too early.
  · intro hall
    obtain ⟨r, hr, hphase, hready, hexit, hend⟩ := pauses_steady config.target config.interval
    obtain ⟨r', hr', hs⟩ := hr.next_attempt hphase hready hexit hend
    obtain ⟨passed, htime, hmost⟩ := hall _ r' rfl rfl rfl hr' _ _ hs rfl 0 hend
    obtain rfl : Timers.effectiveDelay config.interval = passed := by
      simpa [steady] using htime
    exact hmost
  · intro hmost plan r _ hpace hinterval hr x past hs hx u hu
    have hle := hr.began_after hpace hs hx hu
    rw [hinterval] at hle
    obtain ⟨extra, hextra⟩ := Nat.exists_eq_add_of_le hle
    exact ⟨Timers.effectiveDelay config.interval + extra, by omega,
      hmost.mono (Nat.le_add_right _ _)⟩

/-- An environment in which this delay is set. -/
def delayed (delay : String) : Environment :=
  [(Settings.deviceName, some "device"), (Settings.delayName, some delay)]

/-- A delay of 24 days is kept to. One of 25 days is accepted as well, and is not. -/
theorem honours_interval_days :
    (∃ config : Config, Settings.load {} [] (delayed "24") = .ok config ∧
      ∀ plan r, plan.scope = .loop → plan.pace = .timed → plan.interval = config.interval →
        Reached plan r → Honours config.interval r.journal.entries) ∧
    ∃ (config : Config) (plan : Plan) (r : Run),
      Settings.load {} [] (delayed "25") = .ok config ∧ plan.scope = .loop ∧
        plan.pace = .timed ∧ plan.interval = config.interval ∧ Reached plan r ∧
        ¬ Honours config.interval r.journal.entries := by
  have hshort : Settings.load {} [] (delayed "24") = .ok
      ⟨.finite 2073600000, ⟨"device", "DirectMethodReceiver"⟩, .standard⟩ := by
    decide +kernel
  have hlong : Settings.load {} [] (delayed "25") = .ok
      ⟨.finite 2160000000, ⟨"device", "DirectMethodReceiver"⟩, .standard⟩ := by
    decide +kernel
  refine ⟨⟨_, hshort, (honours_interval_iff hshort).mpr ?_⟩, ?_⟩
  · norm_num [Number.AtMost, Timers.longestDelay]
  · have hexceeds : ¬ (Number.finite 2160000000).AtMost Timers.longestDelay := by
      norm_num [Number.AtMost, Timers.longestDelay]
    have hnot := mt (honours_interval_iff hlong).mp hexceeds
    push Not at hnot
    obtain ⟨plan, r, hscope, hpace, hinterval, hr, hbroken⟩ := hnot
    exact ⟨_, plan, r, hlong, hscope, hpace, hinterval, hr, hbroken⟩

end Run

end EdgeCaller.Sender

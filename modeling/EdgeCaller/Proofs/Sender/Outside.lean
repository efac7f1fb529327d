import EdgeCaller.Proofs.Sender.Moves
import EdgeCaller.Proofs.Shutdown.Requests
/-!
What happens to a run from outside.

Time passes, timers fire, and signals and aborts come, all while the run is at rest. None of them
makes it go on by itself: they bring what it waits for, end its pause, or change nothing for it.
-/

namespace EdgeCaller.Sender.Run

variable {plan : Plan} {r r' : Run} {p : Place}

/-! ### Time -/

lemma undisturbed_earlier {j : Journal} {time : Nat} (h : j.now ≤ time)
    (hu : Journal.Undisturbed { j with now := time }) : j.Undisturbed := hu.earlier h

lemma Sound.moveTo (h : r.Sound plan) {time : Nat} (htime : r.journal.now ≤ time)
    (hdue : r.exit = none → ∀ t ∈ r.timers, time ≤ t.due) : (r.moveTo time).Sound plan := by
  have hlater : r.Later (r.moveTo time) :=
    { plan := rfl
      aborted := id
      drives := rfl
      now := htime
      undisturbed := undisturbed_earlier htime
      lastEnd := rfl
      dialed := id
      stands := fun _ p hp =>
        ⟨hp.history, hp.listening, hp.latch, hp.origin, hp.grace, hdue⟩ }
  exact hlater.sound rfl rfl rfl h

/-! ### Timers -/

/-- The run at the moment at which its next timer fires, before it is woken. -/
lemma Stands.due_next (h : r.Stands plan p) (hexit : r.exit = none) {t : Timer Alarm}
    {rest : Timers Alarm} (hnext : r.timers.next? = some (t, rest)) :
    r.journal.now ≤ t.due ∧ Stands plan ({ r with timers := rest }.moveTo t.due) p := by
  obtain ⟨hmem, hmin, -⟩ := Timers.next?_eq_some hnext
  obtain ⟨before, after, hts, hrest⟩ := Timers.split_of_next? hnext
  refine ⟨h.due hexit t hmem, h.history, h.listening, h.latch, h.origin, ?_, fun _ u hu => ?_⟩
  · rcases ht : t.wake.isGrace with _ | _
    · have hgraces : Timers.graces rest = r.timers.graces := (Timers.drives_of_next? hnext ht).1
      exact hgraces ▸ h.grace
    · have hlength := (Timers.graces_of_next? hnext ht).2
      refine .inl (List.eq_nil_of_length_eq_zero ?_)
      rcases h.grace with hg | ⟨u, -, -, hg⟩
      · rw [hg] at hlength
        simp at hlength
      · rw [hg, List.length_singleton] at hlength
        exact Nat.succ.inj hlength
  · refine hmin u ?_
    rw [hts]
    rw [hrest] at hu
    rcases List.mem_append.mp hu with hu | hu
    · exact List.mem_append_left _ hu
    · exact List.mem_append_right _ (List.mem_cons_of_mem _ hu)

lemma Sound.fire_drive (h : r.Sound plan) (hexit : r.exit = none) {t : Timer Alarm}
    {rest : Timers Alarm} (hnext : r.timers.next? = some (t, rest))
    (ht : t.wake.isGrace = false) :
    (({ r with timers := rest }.moveTo t.due).wake t.wake).Sound plan := by
  obtain ⟨hgraces, hmem, hlength⟩ := Timers.drives_of_next? hnext ht
  have hempty : ∀ u, r.timers.drives = [u] → t = u ∧ Timers.drives rest = [] := by
    intro u hu
    rw [hu] at hmem hlength
    exact ⟨List.mem_singleton.mp hmem, List.eq_nil_of_length_eq_zero (Nat.succ.inj hlength)⟩
  -- A run waits for one timer at most, so this is the one, and none is left.
  have hnil : r.timers.drives ≠ [] := List.ne_nil_of_mem hmem
  cases h with
  | awaiting hstands hat hawaits =>
    obtain ⟨-, hfired⟩ := hstands.due_next hexit hnext
    cases hawaits with
    | never _ hdrives => exact absurd hdrives hnil
    | answered _ hdrives => exact absurd hdrives hnil
    | coming _ hdrives hf =>
      obtain ⟨rfl, hrest⟩ := hempty _ hdrives
      exact .awaiting ⟨hfired.history, hfired.listening, hfired.latch, hfired.origin,
        hfired.grace, hfired.due⟩ hat (.answered rfl hrest hf)
  | pausing hstands hphase hpauses =>
    obtain ⟨-, hfired⟩ := hstands.due_next hexit hnext
    cases hpauses with
    | elapsed _ hdrives => exact absurd hdrives hnil
    | lasting _ _ hend hdrives =>
      obtain ⟨rfl, hrest⟩ := hempty _ hdrives
      refine .pausing ⟨hfired.history, hfired.listening, hfired.latch, hfired.origin,
        hfired.grace, hfired.due⟩ hphase (.elapsed rfl hrest (.inr fun _ u hu => ?_))
      obtain rfl := Option.some.inj (hend.symm.trans hu)
      exact Nat.le_refl _
  | ended hfree => exact absurd hfree.drives hnil

lemma Stands.isAborted_of_grace (h : r.Stands plan p) {t : Timer Alarm}
    (hmem : t ∈ r.timers.graces) :
    r.coordinator.isAborted = true := by
  rcases h.grace with hg | ⟨u, -, hu, -⟩
  · rw [hg] at hmem
    simp at hmem
  · have hsome := h.history.isSome_abortTime
    rw [hu] at hsome
    exact hsome.symm

lemma later_forceExit (ha : r.coordinator.isAborted = true)
    (hset : r.coordinator.latch.isSet = false) (id : String) :
    r.Later (r.note (.forceExit id)) where
  plan := rfl
  aborted _ := ha
  drives := rfl
  now := Nat.le_refl _
  undisturbed hu := ⟨hu.fault, hu.epoch, hu.now⟩
  lastEnd := by rw [Run.note, Journal.entries_add, lastEnd_cons]; rfl
  dialed hmem := (List.mem_cons.mp hmem).resolve_left Mark.noConfusion
  stands _ p hp := hp.note (.forced ha (hp.latch.symm.trans hset)) rfl rfl rfl

/-- The end of the grace period changes nothing for the run itself. -/
lemma Sound.wake_grace (h : r.Sound plan) (ha : r.coordinator.isAborted = true) :
    (r.wake .grace).Sound plan := by
  obtain ⟨k, hk, hcases⟩ := Coordinator.exec_graceEnded_cases (P := fun e => e.mark = .remark)
    (fun _ _ => rfl) r.coordinator r.journal
  have hr : r.Remarked { r with journal := k } := ⟨rfl, hk, rfl, rfl, id⟩
  have hsound : Sound plan { r with journal := k } := hr.later.sound rfl rfl rfl h
  unfold wake perform
  rcases hcases with ⟨e, hact⟩ | ⟨-, hact⟩ | ⟨hset, hact⟩ <;> rw [hact]
  · have hr : r.Remarked ({ r with journal := k }.escape e) := ⟨rfl, hk, rfl, rfl, id⟩
    exact hr.later.sound rfl rfl rfl h
  · exact hsound
  · cases hscope : r.plan.scope with
    | program =>
      simp only [hscope, if_true]
      exact (remarked_exitWith { r with journal := k } 1).later.sound rfl rfl rfl hsound
    | attempt | loop | sender =>
      simp only [hscope, if_true]
      exact (later_forceExit (r := { r with journal := k }) ha hset _).sound rfl rfl rfl hsound

lemma Sound.fire (h : r.Sound plan) (hexit : r.exit = none) : r.fire.Sound plan := by
  unfold Run.fire
  split
  · exact h
  · next t rest hnext =>
    rcases ht : t.wake.isGrace with _ | _
    · exact h.fire_drive hexit hnext ht
    · obtain ⟨p, hp⟩ := h.exists_stands
      have hmem := Timers.mem_graces.mpr ⟨(Timers.next?_eq_some hnext).1, ht⟩
      have hgrace : t.wake = .grace := by
        cases hwake : t.wake with
        | grace => rfl
        | pause | answer s =>
          rw [hwake] at ht
          simp [Alarm.isGrace] at ht
      have hlater : r.Later ({ r with timers := rest }.moveTo t.due) :=
        { plan := rfl
          aborted := id
          drives := (Timers.graces_of_next? hnext ht).1
          now := (hp.due_next hexit hnext).1
          undisturbed := undisturbed_earlier (hp.due_next hexit hnext).1
          lastEnd := rfl
          dialed := id
          stands := fun _ q hq => (hq.due_next hexit hnext).2 }
      rw [hgrace]
      exact (hlater.sound rfl rfl rfl h).wake_grace (hp.isAborted_of_grace hmem)

/-! ### Aborts and signals -/

lemma Halted.later (h : r.Halted r') (ha : r.coordinator.isAborted = false) : r.Later r' := by
  obtain ⟨id, hj⟩ := h.journal
  have hentries : r'.journal.entries = ⟨r.journal.now, .abort id⟩ :: r.journal.entries := by
    rw [hj, Journal.entries_add]
  exact
    { plan := h.plan
      aborted := fun _ => h.isAborted
      drives := by rw [h.timers]
      now := Nat.le_of_eq h.extends_journal.now.symm
      undisturbed := h.extends_journal.undisturbed_iff.mp
      lastEnd := by rw [hentries, lastEnd_cons]; rfl
      dialed := fun hmem => by
        rw [hentries] at hmem
        exact (List.mem_cons.mp hmem).resolve_left Mark.noConfusion
      stands := fun _ p => h.stands ha }

lemma endPause_of_pausing (hphase : r.phase = .pausing) (hready : r.ready = none) :
    ∃ off : Alarm → Bool, off .pause = true ∧ off .grace = false ∧
      r.endPause = { r with
        ready := some (.fulfilled .nothing), timers := r.timers.cancel off } := by
  unfold endPause
  rw [hphase, hready]
  exact ⟨_, rfl, rfl, rfl⟩

/-- An abort ends a pause, and nothing else. -/
lemma Sound.halt (h : r.Sound plan) (ha : r.coordinator.isAborted = false) (hr : r.Halted r') :
    r'.endPause.Sound plan := by
  have hlater := hr.later ha
  cases h with
  | awaiting hstands hat hawaits =>
    rw [endPause_eq (.inl (by rw [hr.phase]; exact hat.ne_pausing))]
    refine .awaiting (hlater.stands _ _ hstands) ?_ (hlater.awaits hr.phase hr.ready hawaits)
    rw [hr.plan, hr.phase]
    exact hat.mono hlater.aborted
  | pausing hstands hphase hpauses =>
    have hpausing := hr.phase.trans hphase
    have hstands' := hlater.stands _ _ hstands
    cases hpauses with
    | elapsed hsome hdrives =>
      rw [endPause_eq (.inr (by rw [hr.ready, hsome]; simp))]
      exact .pausing hstands' hpausing (.elapsed (hr.ready.trans hsome)
        (hlater.drives.trans hdrives) (.inl hr.isAborted))
    | lasting hnone _ _ hdrives =>
      obtain ⟨off, hpause, hgrace, hend⟩ := endPause_of_pausing hpausing (hr.ready.trans hnone)
      rw [hend]
      refine .pausing ⟨hstands'.history, hstands'.listening, hstands'.latch,
        hstands'.origin, ?_, ?_⟩ hpausing (.elapsed rfl ?_ (.inl hr.isAborted))
      · rw [Timers.graces_cancel hgrace]; exact hstands'.grace
      · exact fun he t ht => hstands'.due he t (List.mem_filter.mp ht).1
      · exact Timers.drives_cancel_pause hpause (hlater.drives.trans hdrives)
  | ended hfree hphase hends =>
    rw [endPause_eq (.inl (by rw [hr.phase, hphase]; exact Phase.noConfusion))]
    exact .ended (hlater.free hfree hr.ready) (hr.phase.trans hphase) (hlater.ends hends)

lemma Sound.abort (h : r.Sound plan) : r.abort.Sound plan := by
  rcases ha : r.coordinator.isAborted with _ | _
  · obtain ⟨r', hr, habort⟩ := exists_halted_abort ha
    rw [habort]
    exact h.halt ha hr
  · rw [abort_of_isAborted ha]
    exact h

lemma endPause_frame (r : Run) : r.endPause.plan = r.plan ∧ r.endPause.journal = r.journal ∧
    r.endPause.coordinator = r.coordinator ∧ r.endPause.timers.graces = r.timers.graces := by
  unfold endPause
  split
  · refine ⟨rfl, rfl, rfl, ?_⟩
    rw [Timers.graces_cancel rfl]
  · exact ⟨rfl, rfl, rfl, rfl⟩

/-- The grace period begins in the instant of the abort. -/
lemma later_startGrace (hl : r.coordinator.listening = true) (hg : r.timers.graces = [])
    (hu : abortTime r.journal.entries = some r.journal.now) {period : Number}
    (hperiod : r.coordinator.gracePeriod = period) :
    r.Later { r with timers := r.timers.start r.journal.now period .grace } where
  plan := rfl
  aborted := id
  drives := Timers.drives_add_grace _ _
  now := Nat.le_refl _
  undisturbed := id
  lastEnd := rfl
  dialed := id
  stands _ p hp := by
    refine ⟨hp.history, hp.listening, hp.latch, hp.origin, .inr ⟨_, hl, hu, ?_⟩, ?_⟩
    · obtain ⟨hplan, -, -, hgrace⟩ := hp.origin
      rw [Timers.start, Timers.graces_add_grace, hg, ← hperiod, hgrace, hplan, List.nil_append]
    · intro he t ht
      rcases List.mem_append.mp ht with ht | ht
      · exact hp.due he t ht
      · rw [List.mem_singleton.mp ht]
        exact Nat.le_add_right _ _

lemma request_of_isAborted (ha : r.coordinator.isAborted = true) (reason : String) :
    r.Remarked (r.request reason) ∧ (r.request reason).phase = r.phase ∧
      (r.request reason).ready = r.ready := by
  obtain ⟨k, hk, hcases⟩ := Coordinator.exec_request_cases (P := fun e => e.mark = .remark)
    (fun _ _ => rfl) r.coordinator reason r.journal
  unfold Run.request perform
  rcases hcases with ⟨e, hact⟩ | ⟨-, hact⟩ | ⟨hfirst, -⟩
  · rw [hact]
    exact ⟨⟨rfl, hk, rfl, rfl, id⟩, rfl, rfl⟩
  · rw [hact]
    exact ⟨⟨rfl, hk, rfl, rfl, id⟩, rfl, rfl⟩
  · simp [ha] at hfirst

/-- The first request to shut down: its line may fail, and then it has no effect. Otherwise the work
is aborted, and the grace period begins unless teardown is over. -/
lemma request_cases (ha : r.coordinator.isAborted = false) (reason : String) :
    ∃ r₁, r.Remarked r₁ ∧ r₁.phase = r.phase ∧ r₁.ready = r.ready ∧
      (r.request reason = r₁ ∨ ∃ r₂, r₁.Halted r₂ ∧ (r.request reason = r₂.endPause ∨
        r.request reason = { r₂.endPause with
          timers := r₂.endPause.timers.start r₂.endPause.journal.now r₂.coordinator.gracePeriod
            .grace })) := by
  obtain ⟨k, hk, hcases⟩ := Coordinator.exec_request_cases (P := fun e => e.mark = .remark)
    (fun _ _ => rfl) r.coordinator reason r.journal
  unfold Run.request perform
  rcases hcases with ⟨e, hact⟩ | ⟨hagain, -⟩ | ⟨-, hact⟩
  · rw [hact]
    exact ⟨{ r with journal := k }.escape e, ⟨rfl, hk, rfl, rfl, id⟩, rfl, rfl, .inl rfl⟩
  · simp [ha] at hagain
  · rw [hact]
    refine ⟨{ r with journal := k }, ⟨rfl, hk, rfl, rfl, id⟩, rfl, rfl, .inr ⟨{ r with
      journal := k.add (.abort r.coordinator.id),
      coordinator := { r.coordinator with reason := some reason } },
      ⟨rfl, rfl, rfl, rfl, rfl, rfl, ⟨_, rfl⟩, ⟨_, rfl⟩⟩, ?_⟩⟩
    simp only [if_true]
    split
    · exact .inl rfl
    · exact .inr rfl

lemma Sound.request (h : r.Sound plan) (hl : r.coordinator.listening = true) (reason : String) :
    (r.request reason).Sound plan := by
  rcases ha : r.coordinator.isAborted with _ | _
  · obtain ⟨r₁, hr, hphase, hready, hrequest⟩ := request_cases ha reason
    have hsound : r₁.Sound plan := hr.later.sound hphase hready (by rw [hr.coordinator]) h
    have ha₁ : r₁.coordinator.isAborted = false := by rw [hr.coordinator]; exact ha
    rcases hrequest with hrequest | ⟨r₂, hhalted, hrequest | hrequest⟩
    · rw [hrequest]
      exact hsound
    · rw [hrequest]
      exact hsound.halt ha₁ hhalted
    · rw [hrequest]
      obtain ⟨-, hj, hc, hg⟩ := r₂.endPause_frame
      obtain ⟨id, hjournal⟩ := hhalted.journal
      obtain ⟨reason', hreason⟩ := hhalted.coordinator
      obtain ⟨p, hp⟩ := hsound.exists_stands
      refine (later_startGrace ?_ ?_ ?_ (by rw [hc])).sound rfl rfl rfl (hsound.halt ha₁ hhalted)
      · rw [hc, hreason, hr.coordinator]
        exact hl
      · rw [hg, hhalted.timers]
        exact hp.graces_eq_nil ha₁
      · rw [hj, hjournal, Journal.entries_add, abortTime_cons]
        rfl
  · obtain ⟨hr, hphase, hready⟩ := request_of_isAborted ha reason
    exact hr.later.sound hphase hready (by rw [hr.coordinator]) h

lemma Sound.deliver (h : r.Sound plan) (signal : String) : (r.deliver signal).Sound plan := by
  unfold Run.deliver
  split
  · next hhears =>
    refine h.request ?_ signal
    by_contra hl
    simp [hears, Coordinator.listeners, hl] at hhears
  · exact h

end EdgeCaller.Sender.Run

import EdgeCaller.Proofs.Shutdown.Coordination
/-!
A coordinator from its arming on.

Time passes between the commands, and the grace period may run out on the way. With it every command
keeps the board as the commands so far call for, and so does any number of them.
-/

namespace EdgeCaller

namespace Arming

open Switchboard EdgeCaller.Order

variable {a : Arming} {x : Account} {lapsed : Prop} {b : Switchboard} {console : Console}
  {epoch : Int}

namespace Follows

/-! ### Time -/

/-- No grace period runs out before its timer is due. -/
lemma lapsed_of_runsOut (h : a.Follows epoch x lapsed b) {ms : Nat}
    (hdue : ∀ t ∈ b.timers, x.clock + ms < t.due) (hout : (x.pass ms).RunsOut a.delay) :
    lapsed := by
  obtain ⟨time, ⟨hbegan, hunset, huncalled⟩, hle⟩ := hout
  have hgrants : x.Grants time := ⟨hbegan, hunset, huncalled⟩
  by_cases hlt : x.clock < time + a.delay
  · rcases h.timers with hnil | ⟨time', reason', hrequest, -, -, htimer⟩
    · exact absurd hnil (h.running time hgrants hlt)
    · obtain ⟨reason, hreason⟩ := hbegan
      obtain rfl : time' = time :=
        congrArg Prod.fst (Option.some.inj (hrequest.symm.trans hreason))
      have hbefore := hdue ⟨time' + a.delay, .grace 0⟩ (by simp [htimer])
      exact absurd hle (Nat.not_le.mpr hbefore)
  · exact h.lapsing ⟨time, hgrants, Nat.le_of_not_lt hlt⟩

/-- Time passes up to a moment at which no timer is due. -/
lemma moveTo (h : a.Follows epoch x lapsed b) {ms : Nat}
    (hdue : ∀ t ∈ b.timers, x.clock + ms < t.due) :
    a.Follows epoch (x.pass ms) lapsed (b.moveTo (x.clock + ms)) :=
  { h with
    now := rfl
    timers := by
      rcases h.timers with hnil | ⟨time, reason, hrequest, huncalled, -, htimer⟩
      · exact .inl hnil
      · have hbefore := hdue ⟨time + a.delay, .grace 0⟩ (by simp [htimer])
        exact .inr ⟨time, reason, hrequest, huncalled, hbefore, htimer⟩
    running := fun time hgrants hlt =>
      h.running time ⟨hgrants.began, hgrants.unset, hgrants.uncalled⟩
        (Nat.lt_of_le_of_lt (Nat.le_add_right _ ms) hlt)
    lapsing := h.lapsed_of_runsOut hdue
    forced := fun hl => by
      obtain ⟨time, reason, hrequest, hle, hforced⟩ := h.forced hl
      exact ⟨time, reason, hrequest, Nat.le_add_right_of_le hle, hforced⟩ }

/-- The end of the grace period forces the exit, unless the latch was set. -/
lemma fire_eq (h : a.Follows epoch x lapsed b) {time : Nat}
    (htimer : b.timers = [⟨time, .grace 0⟩]) (hd : Dated epoch time) :
    ∃ k, Journal.Extends (·.isLine = true) { b.journal with now := time } k ∧
      b.fire = { b with
        timers := []
        journal := if x.isSet then { b.journal with now := time } else k.add (.forceExit a.id) } := by
  obtain ⟨journal, timers, stations, names, queue, tickets, escaped⟩ := b
  obtain rfl : stations = _ := h.stations
  obtain rfl : timers = _ := htimer
  cases hset : x.isSet with
  | true =>
    have hexec := (a.coordinator x).exec_graceEnded_of_isSet hset { journal with now := time }
    refine ⟨_, .refl _ _, ?_⟩
    simp only [Switchboard.fire, Timers.next?, Switchboard.moveTo, Switchboard.wake,
      List.getElem?_cons_zero, perform, hexec]
    rfl
  | false =>
    have hepoch : journal.epoch = epoch := h.epoch
    have hj : Journal.Undisturbed { journal with now := time } :=
      ⟨h.fault, by rw [hepoch]; exact hd.start, by rw [hepoch]; exact hd.now⟩
    obtain ⟨k, hk, hexec⟩ := Coordinator.exec_graceEnded (c := a.coordinator x) hset hj
    refine ⟨k, hk, ?_⟩
    simp only [Switchboard.fire, Timers.next?, Switchboard.moveTo, Switchboard.wake,
      List.getElem?_cons_zero, perform, hexec]
    rfl

/-- After the latch was set the end of the grace period changes nothing. -/
lemma fire_of_isSet (h : a.Follows epoch x lapsed b) (hset : x.isSet = true) (ms : Nat) :
    a.Follows epoch (x.pass ms) lapsed
      { b with timers := [], journal := { b.journal with now := x.clock + ms } } :=
  { h with
    now := rfl
    timers := .inl rfl
    running := fun _ hgrants => Bool.noConfusion (hset.symm.trans hgrants.unset)
    stopping := fun _ htimers => absurd rfl htimers
    lapsing := fun ⟨_, hgrants, _⟩ => Bool.noConfusion (hset.symm.trans hgrants.unset)
    forced := fun hl => by
      obtain ⟨time, reason, hrequest, hle, hforced⟩ := h.forced hl
      exact ⟨time, reason, hrequest, Nat.le_add_right_of_le hle, hforced⟩ }

/-- What the timer of a grace period that runs says of the account. -/
lemma grants_of_timer (h : a.Follows epoch x lapsed b) {due : Nat}
    (htimer : b.timers = [⟨due, .grace 0⟩]) (hset : x.isSet = false) :
    ∃ time, x.Grants time ∧ x.clock < due ∧ due = time + a.delay := by
  rcases h.timers with hnil | ⟨time, reason, hrequest, huncalled, hlt, htimer'⟩
  · simp [hnil] at htimer
  · obtain rfl : due = time + a.delay :=
      List.singleton_inj.mp (congrArg (List.map Timer.due) (htimer.symm.trans htimer'))
    exact ⟨time, ⟨⟨reason, hrequest⟩, hset, huncalled⟩, hlt, rfl⟩

/-- The grace period runs out, and the exit is forced. -/
lemma fire_of_unset (h : a.Follows epoch x lapsed b) {ms : Nat}
    (htimer : b.timers = [⟨x.clock + ms, .grace 0⟩]) (hset : x.isSet = false) {k : Journal}
    (hk : Journal.Extends (·.isLine = true) { b.journal with now := x.clock + ms } k) :
    a.Follows epoch (x.pass ms) ((x.pass ms).RunsOut a.delay)
      { b with timers := [], journal := k.add (.forceExit a.id) } := by
  obtain ⟨time, hgrants, hlt, hdue⟩ := h.grants_of_timer htimer hset
  obtain ⟨reason, hrequest⟩ := hgrants.began
  have hunique : ∀ {time' reason'}, x.request = some (time', reason') → time' = time :=
    fun hrequest' => congrArg Prod.fst (Option.some.inj (hrequest'.symm.trans hrequest))
  have hout : (x.pass ms).RunsOut a.delay :=
    ⟨time, ⟨hgrants.began, hset, hgrants.uncalled⟩, Nat.le_of_eq hdue.symm⟩
  have hnot : ¬ lapsed := fun hl => by
    obtain ⟨time', reason', hrequest', hle, -⟩ := h.forced hl
    rw [hunique hrequest', ← hdue] at hle
    omega
  have hother : ∀ kind : Event → Bool, kind (.forceExit a.id) = false →
      (∀ e, e.isLine = true → kind e = false) →
      (k.add (.forceExit a.id)).times kind = b.journal.times kind := by
    intro kind hforce hline
    rw [Journal.times_add, hforce, hk.times_eq hline]
    rfl
  have hforced : (k.add (.forceExit a.id)).times Event.isForceExit = [time + a.delay] := by
    have hbefore : Journal.times Event.isForceExit { b.journal with now := x.clock + ms } = [] :=
      h.unforced hnot
    have hown : Event.isForceExit (.forceExit a.id) = true := rfl
    rw [Journal.times_add, if_pos hown, hk.times_eq fun e => Event.isForceExit_of_isLine, hbefore,
      hk.now, ← hdue]
  exact
    { h with
      fault := hk.fault.trans h.fault
      epoch := hk.epoch.trans h.epoch
      now := hk.now
      timers := .inl rfl
      running := fun time' hgrants' hlt' => by
        obtain ⟨reason', hrequest'⟩ := hgrants'.began
        rw [hunique hrequest', ← hdue] at hlt'
        exact absurd hlt' (Nat.lt_irrefl _)
      stopping := fun _ htimers => absurd rfl htimers
      released := fun name => by
        rw [releases, hother _ rfl fun e he => Event.isSettledAs_of_isLine he name]
        exact h.released name
      completed := by
        rw [hother _ rfl fun e => Event.isCompleted_of_isLine]
        exact h.completed
      aborted := (hother _ rfl fun e => Event.isAbort_of_isLine).trans h.aborted
      lapsing := fun hout => hout
      unforced := fun hl => absurd hout hl
      forced := fun _ => ⟨time, reason, hrequest, Nat.le_of_eq hdue.symm, hforced⟩ }

/-- The timer of the grace period fires. -/
lemma fire (h : a.Follows epoch x lapsed b) {ms : Nat}
    (htimer : b.timers = [⟨x.clock + ms, .grace 0⟩]) (hd : Dated epoch (x.clock + ms)) :
    a.Follows epoch (x.pass ms) (lapsed ∨ (x.pass ms).RunsOut a.delay) b.fire ∧
      b.fire.timers = [] := by
  obtain ⟨k, hk, hfire⟩ := h.fire_eq htimer hd
  rw [hfire]
  refine ⟨?_, rfl⟩
  cases hset : x.isSet with
  | true =>
    have hfired := h.fire_of_isSet hset ms
    rw [if_pos rfl, propext (or_iff_left_of_imp hfired.lapsing)]
    exact hfired
  | false =>
    have hfired := h.fire_of_unset htimer hset hk
    have hlapsed : lapsed → (x.pass ms).RunsOut a.delay := fun hl => by
      obtain ⟨time, hgrants, hlt, hdue⟩ := h.grants_of_timer htimer hset
      exact ⟨time, ⟨hgrants.began, hset, hgrants.uncalled⟩, Nat.le_of_eq hdue.symm⟩
    rw [if_neg (by simp), propext (or_iff_right_of_imp hlapsed)]
    exact hfired

/-- Time passes while no timer runs. -/
lemma rest (h : a.Follows epoch x lapsed b) (hnil : b.timers = []) (ms : Nat) :
    a.Follows epoch (x.pass ms) (lapsed ∨ (x.pass ms).RunsOut a.delay)
      (b.moveTo (x.clock + ms)) := by
  have hdue : ∀ t ∈ b.timers, x.clock + ms < t.due := by simp [hnil]
  rw [propext (or_iff_left_of_imp (h.lapsed_of_runsOut hdue))]
  exact h.moveTo hdue

/-- Time passes, and the timer of the grace period comes due on the way. -/
lemma fire_rest (h : a.Follows epoch x lapsed b) {due ms : Nat}
    (htimer : b.timers = [⟨due, .grace 0⟩]) (hd : Dated epoch (x.clock + ms))
    (hle : due ≤ x.clock + ms) (flush : Bool) :
    a.Follows epoch (x.pass ms) (lapsed ∨ (x.pass ms).RunsOut a.delay)
      ((if flush then b.fire.drain else b.fire).moveTo (x.clock + ms)) := by
  obtain ⟨before, rfl⟩ : ∃ before, due = x.clock + before := by
    rcases h.timers with hnil | ⟨time, reason, -, -, hlt, htimer'⟩
    · simp [hnil] at htimer
    · obtain rfl : due = time + a.delay :=
        List.singleton_inj.mp (congrArg (List.map Timer.due) (htimer.symm.trans htimer'))
      exact Nat.exists_eq_add_of_le (Nat.le_of_lt hlt)
  obtain ⟨after, rfl⟩ := Nat.exists_eq_add_of_le (Nat.add_le_add_iff_left.mp hle)
  obtain ⟨hfired, hnil⟩ := h.fire htimer (hd.earlier hle)
  have hrested : a.Follows epoch (x.pass before) (lapsed ∨ (x.pass before).RunsOut a.delay)
      (if flush then b.fire.drain else b.fire) ∧
      (if flush then b.fire.drain else b.fire).timers = [] := by
    cases flush with
    | false => exact ⟨hfired, hnil⟩
    | true => exact ⟨hfired.drain.1, timers_drain hnil⟩
  have hmoved := hrested.1.rest hrested.2 after
  rw [Account.pass_pass, or_assoc] at hmoved
  rw [← Nat.add_assoc]
  have hlater : (x.pass before).RunsOut a.delay → (x.pass (before + after)).RunsOut a.delay := by
    rw [← Account.pass_pass]
    exact fun hout => hout.pass after
  rwa [propext (or_iff_right_of_imp hlater)] at hmoved

lemma advance (h : a.Follows epoch x lapsed b) {ms : Nat} (hd : Dated epoch (x.clock + ms))
    (flush : Bool) :
    a.Follows epoch (x.pass ms) (lapsed ∨ (x.pass ms).RunsOut a.delay) (b.advance flush ms) := by
  have hb : a.Follows epoch x lapsed (if flush then b.drain else b) := by
    cases flush with
    | false => exact h
    | true => exact h.drain.1
  unfold Switchboard.advance
  generalize (if flush then b.drain else b) = b' at hb
  simp only [hb.now]
  rcases hb.timers with hnil | ⟨time, reason, -, -, -, htimer⟩
  · rw [hnil]
    exact hb.rest hnil ms
  · have hnext : (clockwork flush).nextDue b' = some (time + a.delay) := by
      change b'.timers.nextDue = _
      rw [htimer]
      rfl
    rw [htimer, List.length_singleton, Clockwork.advanceTo, hnext]
    by_cases hle : time + a.delay ≤ x.clock + ms
    · simp only [if_pos hle]
      exact hb.fire_rest htimer hd hle flush
    · have hdue : ∀ t ∈ b'.timers, x.clock + ms < t.due := by
        simpa [htimer] using hle
      simp only [if_neg hle]
      rw [propext (or_iff_left_of_imp (hb.lapsed_of_runsOut hdue))]
      exact hb.moveTo hdue

/-! ### Commands -/

lemma execute (h : a.Follows epoch x lapsed b) (flush : Bool) {command : Command}
    (hconcerns : command.concerns a.id = true) (hd : Dated epoch (a.after x command).clock) :
    a.Follows epoch (a.after x command) (lapsed ∨ (a.after x command).RunsOut a.delay)
      (b.execute flush command) := by
  have howner : ∀ f, b.withOwner a.id f = f b 0 := by
    intro f
    simp [withOwner, owner?, h.names, Members.get?]
  have hinstant : ∀ {x' : Account} {b' : Switchboard}, a.Follows epoch x' lapsed b' →
      a.Follows epoch x' (lapsed ∨ x'.RunsOut a.delay) b' := by
    intro x' b' h'
    rw [propext (or_iff_left_of_imp h'.lapsing)]
    exact h'
  cases command with
  | arm | sleep => simp [Command.concerns] at hconcerns
  | signal source name =>
    have hclock : (a.after x (.signal source name)).clock = x.clock := by
      rw [after]
      split <;> rfl
    rw [hclock] at hd
    exact hinstant (h.deliver hd source name)
  | request id reason =>
    obtain rfl : id = a.id := of_decide_eq_true hconcerns
    refine hinstant ?_
    rw [Switchboard.execute, howner]
    exact h.request hd reason
  | complete id =>
    obtain rfl : id = a.id := of_decide_eq_true hconcerns
    refine hinstant ?_
    rw [Switchboard.execute, howner]
    exact h.complete
  | watch id name =>
    obtain rfl : id = a.id := of_decide_eq_true hconcerns
    refine hinstant ?_
    rw [Switchboard.execute, howner]
    exact h.watch name
  | dispose id =>
    obtain rfl : id = a.id := of_decide_eq_true hconcerns
    refine hinstant ?_
    rw [Switchboard.execute, howner]
    exact h.dispose
  | pass ms => exact h.advance hd flush

lemma obey (h : a.Follows epoch x lapsed b) (flush : Bool) {command : Command}
    (hconcerns : command.concerns a.id = true) (hd : Dated epoch (a.after x command).clock) :
    a.Follows epoch (a.after x command) (lapsed ∨ (a.after x command).RunsOut a.delay)
      (b.obey flush command) ∧ (flush = true → (b.obey flush command).queue = []) := by
  have hexecuted := h.execute flush hconcerns hd
  cases flush with
  | false => exact ⟨hexecuted, Bool.noConfusion⟩
  | true => exact ⟨hexecuted.drain.1, fun _ => hexecuted.drain.2⟩

end Follows

/-! ### Any number of commands -/

variable {past earlier : List Order}

lemma concerns_of_suffix (hconcerns : ∀ o ∈ past, o.command.concerns a.id = true)
    (hs : earlier <:+ past) : ∀ o ∈ earlier, o.command.concerns a.id = true :=
  fun o ho => hconcerns o (hs.mem ho)

/-- The board stands as all commands so far call for. -/
lemma follows_run (hfault : console.fault = none)
    (hconcerns : ∀ o ∈ past, o.command.concerns a.id = true) (hd : Dated epoch (clock past)) :
    a.Follows epoch (a.account past) (a.Lapsed past) (a.run console epoch past) := by
  induction past with
  | nil => exact follows_start hfault
  | cons o past ih =>
    have hs := List.suffix_cons o past
    have h := ih (concerns_of_suffix hconcerns hs) (hd.earlier (clock_le_of_suffix hs))
    rw [propext lapsed_cons_iff]
    have hdated : Dated epoch (a.account (o :: past)).clock := hd
    rw [account_cons] at hdated ⊢
    exact (h.obey o.flush (hconcerns o List.mem_cons_self) hdated).1

/-- After a command that leaves time for what follows from it nothing is queued. -/
lemma queue_run (hfault : console.fault = none) {o : Order}
    (hconcerns : ∀ o' ∈ o :: past, o'.command.concerns a.id = true)
    (hd : Dated epoch (clock (o :: past))) (hflush : o.flush = true) :
    (a.run console epoch (o :: past)).queue = [] := by
  have hs := List.suffix_cons o past
  have h := follows_run hfault (concerns_of_suffix hconcerns hs)
    (hd.earlier (clock_le_of_suffix hs))
  have hdated : Dated epoch (a.account (o :: past)).clock := hd
  rw [account_cons] at hdated
  exact (h.obey o.flush (hconcerns o List.mem_cons_self) hdated).2 hflush

/-- A coordinator and its board, as they should be after some commands. -/
structure Coordinates (past : List Order) (b : Switchboard) (c : Coordinator) : Prop where
  alone : b.named = [c]
  aborted_iff : c.isAborted = true ↔
    ∃ o earlier, o :: earlier <:+ past ∧ (a.asks earlier o.command).isSome = true
  reason : c.reason = (a.firstRequest past).map (·.2)
  aborts : b.journal.times Event.isAbort = ((a.firstRequest past).map (·.1)).toList
  isSet : c.latch.isSet = wasSet past
  /-- To set the latch tells whether this is the first time. -/
  sets : c.latch.set.1 = !wasSet past
  completions : (b.journal.times Event.isCompleted).length = (wasSet past).toNat
  /-- Once the latch is set every waiter is released once, though this may still be queued. -/
  releases : ∀ name, b.releases name = if wasSet past then (waiters past).count name else 0
  flushed : ∀ o earlier, past = o :: earlier → o.flush = true → b.queue = []
  graces : b.timers.length ≤ 1
  running : b.timers ≠ [] → c.isAborted = true
  stopped : b.queue = [] → wasSet past = true → b.timers = []
  forced : (b.journal.times Event.isForceExit).length ≤ 1
  forced_at : ∀ time ∈ b.journal.times Event.isForceExit, ∃ began reason,
    a.firstRequest past = some (began, reason) ∧
      time = began + Timers.effectiveDelay a.gracePeriod
  forced_iff : b.journal.times Event.isForceExit ≠ [] ↔ a.Lapsed past

lemma coordinates_run (hfault : console.fault = none)
    (hconcerns : ∀ o ∈ past, o.command.concerns a.id = true) (hd : Dated epoch (clock past)) :
    a.Coordinates past (a.run console epoch past) (a.coordinator (a.account past)) := by
  have h : a.Follows epoch (a.account past) (a.Lapsed past) (a.run console epoch past) :=
    follows_run hfault hconcerns hd
  have hforced : (a.run console epoch past).journal.times Event.isForceExit = [] ∨
      ∃ began reason, a.firstRequest past = some (began, reason) ∧
        (a.run console epoch past).journal.times Event.isForceExit = [began + a.delay] := by
    by_cases hl : a.Lapsed past
    · obtain ⟨began, reason, hrequest, -, hforced⟩ := h.forced hl
      exact .inr ⟨began, reason, hrequest, hforced⟩
    · exact .inl (h.unforced hl)
  exact
    { alone := by simp [named, h.names, h.stations]
      aborted_iff := by
        rw [← isSome_firstRequest_iff, Coordinator.isAborted, coordinator, Option.isSome_map]
        rfl
      reason := rfl
      aborts := h.aborted
      isSet := rfl
      sets := by
        change Prod.fst (Latch.set ⟨wasSet past, _⟩) = _
        rw [Latch.set]
        cases wasSet past <;> rfl
      completions := h.completed
      releases := h.released
      flushed := by
        rintro o earlier rfl hflush
        exact queue_run hfault hconcerns hd hflush
      graces := by
        rcases h.timers with hnil | ⟨_, _, -, -, -, htimer⟩
        · simp [hnil]
        · simp [htimer]
      running := fun htimers => by
        rcases h.timers with hnil | ⟨_, _, hrequest, -⟩
        · exact absurd hnil htimers
        · rw [Coordinator.isAborted, coordinator, hrequest]
          rfl
      stopped := fun hqueue hset => by
        by_contra htimers
        exact List.not_mem_nil (hqueue ▸ h.stopping hset htimers)
      forced := by
        rcases hforced with hnil | ⟨_, _, -, hforced⟩
        · simp [hnil]
        · simp [hforced]
      forced_at := fun time htime => by
        rcases hforced with hnil | ⟨began, reason, hrequest, hforced⟩
        · exact absurd (hnil ▸ htime) List.not_mem_nil
        · exact ⟨began, reason, hrequest, List.mem_singleton.mp (hforced ▸ htime)⟩
      forced_iff := by
        constructor
        · exact fun hne => by_contra fun hl => hne (h.unforced hl)
        · intro hl hnil
          obtain ⟨_, _, -, -, hforced⟩ := h.forced hl
          exact List.cons_ne_nil _ _ (hforced.symm.trans hnil) }

/-- **A coordinator does what it is told.** After any commands it is aborted by the first request
for good, its latch was set at the first attempt and has released every waiter once, and the exit
was forced once, and at its time, exactly if the grace period ran out. -/
theorem coordinates (a : Arming) (console : Console) (epoch : Int) (past : List Order)
    (hfault : console.fault = none) (hconcerns : ∀ o ∈ past, o.command.concerns a.id = true)
    (hd : Dated epoch (clock past)) :
    ∃ c, a.Coordinates past (a.run console epoch past) c ∧
      ∀ earlier, earlier <:+ past → ∃ c', a.Coordinates earlier (a.run console epoch earlier) c' ∧
        (c'.isAborted = true → c.isAborted = true ∧ c.reason = c'.reason) := by
  refine ⟨_, coordinates_run hfault hconcerns hd, fun earlier hs => ⟨_, coordinates_run hfault
    (concerns_of_suffix hconcerns hs) (hd.earlier (clock_le_of_suffix hs)), fun haborted => ?_⟩⟩
  rw [Coordinator.isAborted, coordinator, Option.isSome_map] at haborted
  obtain ⟨x, hx⟩ := Option.isSome_iff_exists.mp haborted
  have hlater : (a.account past).request = some x := firstRequest_of_suffix hx hs
  simp [Coordinator.isAborted, coordinator, hlater, hx]

/-- A signal comes after a while, and teardown is not over when the grace period is. -/
theorem coordinates_overdue :
    let a : Arming := ⟨"app", .process, Coordinator.standardSignals, 5000⟩
    let past : List Order :=
      [⟨.pass 5000, true⟩, ⟨.signal .process "SIGTERM", true⟩, ⟨.pass 100, false⟩]
    ∃ c, a.Coordinates past (a.run ⟨.everything, none, 0⟩ 0 past) c ∧
      c.reason = some "SIGTERM" ∧
      (a.run ⟨.everything, none, 0⟩ 0 past).journal.times Event.isForceExit ≠ [] := by
  intro a past
  obtain ⟨c, hc, -⟩ := a.coordinates ⟨.everything, none, 0⟩ 0 past rfl (by decide)
    ⟨by decide, by decide⟩
  refine ⟨c, hc, hc.reason, hc.forced_iff.mpr ⟨past, List.suffix_rfl, 100, ?_, by decide +kernel⟩⟩
  exact ⟨⟨"SIGTERM", rfl⟩, rfl, rfl⟩

end Arming

end EdgeCaller

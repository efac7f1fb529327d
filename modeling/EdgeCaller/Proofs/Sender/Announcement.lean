import EdgeCaller.Proofs.Sender.Milestones
/-!
When an open connection is closed.

Between the moment at which its connection is open and its loop, a sender prints one line, the
announcement of whom it will call. A sender that can print it leaves its loop only by closing the
connection, whatever line fails later. Where the announcement itself fails the sender ends at once,
and the connection stays open. It is the fourth line of a sender, and the fifth over a module client,
which says itself that it is open.
-/

namespace EdgeCaller

/-! ### Lines and their numbers -/

namespace Act

variable {α β : Type} {j k : Journal}

/-- A line that could be written was counted if it was printed. -/
lemma console_of_log {level : Level} {message : String} {details : Option Value}
    (h : exec (log level message details) j = (.ok (), k)) :
    k.console = { j.console with
      lines := j.console.lines + (j.console.threshold.admits level).toNat } := by
  rw [exec_log, Journal.write] at h
  split at h
  · next hadmits =>
    split at h
    · simp at h
    · split at h
      · simp at h
      · obtain ⟨-, rfl⟩ := Prod.mk.inj h
        simp [Journal.printed, Journal.add, hadmits]
  · next hadmits =>
    obtain ⟨-, rfl⟩ := Prod.mk.inj h
    simp [hadmits]

lemma exists_of_exec_bind {act : Act α} {f : α → Act β} {b : β}
    (h : exec (act >>= f) j = (.ok b, k)) :
    ∃ a i, exec act j = (.ok a, i) ∧ exec (f a) i = (.ok b, k) := by
  rw [exec_bind] at h
  rcases hact : exec act j with ⟨e | a, i⟩ <;> rw [hact] at h
  · simp at h
  · exact ⟨a, i, rfl, h⟩

/-- A line about what can be shown is written unless it is to be printed and the clock shows no date
or the console fails at it. -/
lemma succeeds_tell_iff_line {details : List (String × Value)} (h : ∀ m ∈ details, m.2.Writable)
    (level : Level) (message : String) : (tell level message details).Succeeds j ↔
      (j.console.threshold.admits level = true → Calendar.inRange (j.epoch + j.now) = true ∧
        ∀ f, j.console.fault = some f → f.line ≠ j.console.lines + 1) := by
  obtain ⟨s, hs⟩ := Journal.suffix_record_iff.mpr fun m hm => (h m hm).shown m.1
  rw [Succeeds, tell, exec_log, Journal.write]
  cases hadmits : j.console.threshold.admits level with
  | false => exact iff_of_true ⟨(), j, rfl⟩ (by simp)
  | true =>
    simp only [if_true, hs, Calendar.stamp?]
    cases hrange : Calendar.inRange (j.epoch + j.now) with
    | false => simp
    | true =>
      simp only [if_true, Journal.print, Console.afterLine]
      cases j.console.fault with
      | none => simp
      | some f =>
        by_cases hline : f.line = j.console.lines + 1 <;> simp [hline]

end Act

namespace Sender

/-- The number of the announcement among the lines of a sender. -/
def announcementLine : Link → Nat
  | .direct => 4
  | .client => 5

/-- The announcement of a sender that is armed at this time fails: it is to be printed, but the clock
shows no date, or the console fails at this line. -/
def AnnouncementFails (link : Link) (console : Console) (epoch : Int) (time : Nat) : Prop :=
  console.threshold.admits .info = true ∧ (Calendar.inRange (epoch + time) = false ∨
    ∃ f, console.fault = some f ∧ f.line = console.lines + announcementLine link)

lemma eq_of_count_le_one {kind : Mark → Bool} {es : List Entry} {x y : Entry}
    (h : count kind es ≤ 1) (hx : x ∈ es) (hkx : kind x.event.mark = true) (hy : y ∈ es)
    (hky : kind y.event.mark = true) : x = y := by
  rw [count, List.countP_eq_length_filter] at h
  have hx' : x ∈ es.filter fun x => kind x.event.mark := List.mem_filter.mpr ⟨hx, hkx⟩
  have hy' : y ∈ es.filter fun x => kind x.event.mark := List.mem_filter.mpr ⟨hy, hky⟩
  rcases hes : es.filter fun x => kind x.event.mark with _ | ⟨z, _ | ⟨w, rest⟩⟩
  · simp [hes] at hx'
  · rw [hes, List.mem_singleton] at hx' hy'
    rw [hx', hy']
  · simp [hes] at h

namespace Run

variable {plan : Plan} {r r' : Run} {s : Settlement}

/-! ### Leaving the loop -/

/-- A run that has not ended. -/
def Lasts (r : Run) : Prop := ∀ s, r.phase ≠ .ended s

lemma lasts_of_phase {phase : Phase} (h : r.phase = phase) (hphase : ∀ s, phase ≠ .ended s) :
    r.Lasts := fun s hs => hphase s (h.symm.trans hs)

lemma lasts_leaveLoop (hdown : r.plan.scope.tearsDown = true) (failure : Option Value) :
    (r.leaveLoop failure).Lasts := by
  have hcloses : r.leaveLoop failure = r.beginClose failure := by
    unfold leaveLoop
    cases hs : r.plan.scope with
    | attempt | loop => simp [hs, Scope.tearsDown] at hdown
    | sender | program => rfl
  rw [hcloses]
  exact lasts_of_phase (await_frame _ _).1 fun _ => Phase.noConfusion

lemma lasts_perform {α : Type} {act : Act α} {next : Run → α → Run}
    (hdown : r.plan.scope.tearsDown = true)
    (hnext : ∀ r' a, r'.plan = r.plan → (next r' a).Lasts) :
    (r.perform act breakLoop next).Lasts := by
  unfold perform
  rcases act.exec r.journal with ⟨e | a, k⟩
  · exact lasts_leaveLoop (r := { r with journal := k }) hdown _
  · exact hnext _ a rfl

lemma lasts_endAttempt (hdown : r.plan.scope.tearsDown = true) (o : Outcome) :
    (r.endAttempt o).Lasts := by
  have hpauses : (r.endAttempt o).phase = .pausing := by
    unfold endAttempt
    cases hs : r.plan.scope with
    | attempt | loop => simp [hs, Scope.tearsDown] at hdown
    | sender | program =>
      simp only [plan_note, hs]
      exact phase_pause _
  exact lasts_of_phase hpauses fun _ => Phase.noConfusion

lemma lasts_failAttempt (hdown : r.plan.scope.tearsDown = true) (stage : Stage) (e : Value) :
    (r.failAttempt stage e).Lasts := by
  have hasked : ∀ (r' : Run) due n, (r'.abortAt due n).plan = r'.plan := by
    intro r' due n
    unfold abortAt
    split
    · exact (undergoes_abort r').plan
    · rfl
  have hplan := hasked ({ r with consults := r.consults + 1 }.note (.consulted stage e))
    r.plan.abortOnConsult (r.consults + 1)
  refine lasts_perform (by rw [hplan]; exact hdown) fun r' _ hr' => lasts_endAttempt ?_ _
  rw [hr', hplan]
  exact hdown

lemma lasts_invoke (r : Run) : r.invoke.Lasts := by
  have hphase : ∃ name, r.invoke.phase = .invoking name :=
    ⟨_, (await_frame _ _).1.trans (phase_abortAt _ _ _)⟩
  obtain ⟨name, hphase⟩ := hphase
  exact lasts_of_phase hphase fun _ => Phase.noConfusion

lemma lasts_publish (r : Run) : r.publish.Lasts :=
  lasts_of_phase ((await_frame _ _).1.trans (phase_abortAt _ _ _)) fun _ => Phase.noConfusion

lemma lasts_invoked (hdown : r.plan.scope.tearsDown = true) (methodName status : Value) :
    (r.invoked methodName status).Lasts := by
  unfold invoked
  split
  · exact lasts_perform hdown fun r' _ _ => lasts_publish r'
  · exact lasts_perform hdown fun r' _ hplan => lasts_endAttempt (by rw [hplan]; exact hdown) _

lemma lasts_turn (hdown : r.plan.scope.tearsDown = true) : r.turn.Lasts := by
  unfold turn
  split
  · exact lasts_perform hdown fun r' _ hplan => lasts_leaveLoop (by rw [hplan]; exact hdown) _
  · exact lasts_perform (r := r.note .attemptBegan) hdown fun r' _ _ => lasts_invoke r'

/-- A sender in its loop goes on in it or begins to close its connection. -/
lemma lasts_resume (hdown : r.plan.scope.tearsDown = true)
    (hphase : (∃ name, r.phase = .invoking name) ∨ r.phase = .publishing ∨ r.phase = .pausing)
    (s : Settlement) : (r.resume s).Lasts := by
  rcases hphase with ⟨name, hphase⟩ | hphase | hphase
  · simp only [Run.resume, hphase]
    cases s with
    | rejected e => exact lasts_failAttempt (r := r.note _) hdown _ _
    | fulfilled a => cases a <;> exact lasts_invoked (r := r.note _) hdown _ _
  · simp only [Run.resume, hphase]
    cases s with
    | rejected e => exact lasts_failAttempt (r := r.note _) hdown _ _
    | fulfilled a =>
      exact lasts_perform (r := r.note _) hdown fun r' _ hplan =>
        lasts_endAttempt (by rw [hplan]; exact hdown) _
  · simp only [Run.resume, hphase]
    exact lasts_turn hdown

/-- A sender that was armed ends only at the answer to the closing of its connection. -/
lemma Sound.closed_of_ends (hr : r.Sound plan) (hdown : plan.scope.tearsDown = true)
    (harmed : .armed ∈ marks r.journal.entries) (hlasts : r.Lasts) {m : Move}
    (hends : (r.make m).phase = .ended s) : count Mark.isClose r.journal.entries = 1 := by
  rcases hr.make_cases m with hworld | ⟨rfl, -, s', hready, hresumed⟩
  · exact absurd (hworld.phase.symm.trans hends) (hlasts s)
  · obtain rfl := hr.plan_eq
    have hinner := lasts_resume (r := { r with ready := none }) (s := s') hdown
    rw [hresumed] at hends
    cases hr with
    | awaiting hstands hat =>
      have hunarmed := hstands.history.unarmed_of_mem harmed
      generalize hphase : r.phase = phase at hat
      cases hat with
      | connecting | creating | opening | discarding => simp [Place.unarmed] at hunarmed
      | invoking => exact absurd hends (hinner (.inl ⟨_, hphase⟩) s)
      | publishing => exact absurd hends (hinner (.inr (.inl hphase)) s)
      | closing => exact hstands.history.count_closings
    | pausing _ hphase => exact absurd hends (hinner (.inr (.inr hphase)) s)
    | ended _ hphase => exact absurd hphase (hlasts _)

lemma Sound.suffix_make (hr : r.Sound plan) (m : Move) :
    r.journal.entries <:+ (r.make m).journal.entries := by
  rcases hr.make_cases m with hworld | ⟨-, -, s, -, hresumed⟩
  · obtain ⟨new, hnew, -⟩ := hworld.entries
    rw [hnew]
    exact List.suffix_append _ _
  · rw [hresumed]
    exact (extends_resume { r with ready := none } s).suffix

lemma Sound.suffix_follow (hr : r.Sound plan) (moves : List Move) :
    r.journal.entries <:+ (r.follow moves).journal.entries := by
  induction moves with
  | nil => exact List.suffix_rfl
  | cons m past ih => exact ih.trans ((hr.follow past).suffix_make m)

/-- A run that has ended makes no more calls. -/
lemma Sound.ended_follow (hr : r.Sound plan) (hended : r.phase = .ended s) (moves : List Move) :
    (r.follow moves).phase = .ended s ∧
      count Mark.isClose (r.follow moves).journal.entries =
        count Mark.isClose r.journal.entries := by
  induction moves with
  | nil => exact ⟨hended, rfl⟩
  | cons m past ih =>
    obtain ⟨hpast, hcount⟩ := ih
    rcases (hr.follow past).make_cases m with hworld | ⟨-, -, s', hready, -⟩
    · obtain ⟨new, hnew, hforeign⟩ := hworld.entries
      refine ⟨hworld.phase.trans hpast, ?_⟩
      have hnone : count Mark.isClose new = 0 := by
        rw [count, List.countP_eq_zero]
        intro x hx
        have hx := hforeign x hx
        cases hm : x.event.mark <;> simp_all [Mark.isForeign, Mark.isClose]
      rw [Run.follow, hnew, count_append, hnone, Nat.zero_add]
      exact hcount
    · obtain ⟨p, hfree, -⟩ := (hr.follow past).exists_ends hpast
      simp [hfree.ready] at hready

/-! ### Before the announcement -/

/-- The lines that a sender prints before it asks for a connection. -/
def greetingLines (t : Threshold) : Nat := 3 * (t.admits .info).toNat

lemma console_of_greet {j k : Journal} (h : (greet plan).exec j = (.ok (), k)) :
    k.console = { j.console with
      lines := j.console.lines + greetingLines j.console.threshold } ∧ k.epoch = j.epoch := by
  have hepoch := (writes_greet (P := fun _ => True) (fun _ _ => trivial) plan j).epoch
  rw [h] at hepoch
  refine ⟨?_, hepoch⟩
  obtain ⟨⟨⟩, j₁, hmain, h⟩ := Act.exists_of_exec_bind h
  obtain ⟨⟨⟩, j₂, hdump, huses⟩ := Act.exists_of_exec_bind h
  have h₁ := Act.console_of_log hmain
  have h₂ := Act.console_of_log hdump
  have h₃ := Act.console_of_log huses
  rw [h₃, h₂, h₁]
  cases hadmits : j.console.threshold.admits .info <;> simp [greetingLines, hadmits]

lemma make_goOn_cases (r : Run) : r.make .goOn = r ∨
    ∃ s, r.ready = some s ∧ r.make .goOn = { r with ready := none }.resume s := by
  simp only [Run.make]
  split
  · next s _ hready => exact .inr ⟨s, hready, rfl⟩
  · exact .inl rfl

/-- While a sender is on the way to a connection nothing but its own moves writes anything. -/
lemma Sound.console_make (hr : r.Sound plan) (hdown : plan.scope.tearsDown = true)
    (hnot : .armed ∉ marks r.journal.entries) {m : Move} (hm : m ≠ .goOn) :
    (r.make m).journal.console = r.journal.console ∧
      (r.make m).journal.epoch = r.journal.epoch := by
  obtain rfl := hr.plan_eq
  obtain ⟨p, hp⟩ := hr.exists_stands
  have hdeaf : r.coordinator.listening = false := by
    rw [hp.listening, Place.listens_of_unarmed (hp.history.unarmed_of_not_mem hdown hnot),
      Bool.and_false]
  cases m with
  | goOn => exact absurd rfl hm
  | fire =>
    simp only [Run.make, Run.fire]
    split
    · split
      · exact ⟨rfl, rfl⟩
      · next t rest hnext =>
        have hdrive : t.wake ≠ .grace := by
          intro hgrace
          have hmem : t ∈ r.timers.graces :=
            Timers.mem_graces.mpr ⟨(Timers.next?_eq_some hnext).1, by rw [hgrace]; rfl⟩
          rcases hp.grace with hnil | ⟨u, hl, -⟩
          · simp [hnil] at hmem
          · simp [hdeaf] at hl
        cases hwake : t.wake with
        | grace => exact absurd hwake hdrive
        | pause | answer s => exact ⟨rfl, rfl⟩
    · exact ⟨rfl, rfl⟩
  | wait time =>
    simp only [Run.make]
    split <;> exact ⟨rfl, rfl⟩
  | signal name =>
    simp [Run.make, Run.deliver, Run.hears, Coordinator.listeners, hdeaf]
  | abort => simp [Run.make, hdown]

/-- What the coordinator is armed with is noted before anything else. -/
def arm (r : Run) : Run :=
  { r with coordinator := { r.coordinator with listening := true } }.note (.armed r.coordinator.id)

/-- The line between the opening of a connection and the loop. -/
def announce (plan : Plan) : Act Unit :=
  Act.tell .info ("Call direct method to target device [" ++ plan.target.deviceId ++
    "] and module [" ++ plan.target.moduleId ++ "].") [("intervalMs", .number plan.interval)]

lemma opened_eq (r : Run) :
    r.opened = r.arm.perform (announce r.plan) fail fun r _ => r.turn := rfl

lemma extends_opened (r : Run) : r.arm.journal.Extends (fun _ => True) r.opened.journal := by
  have hproceeds : r.arm.Proceeds r.opened :=
    r.arm.proceeds_self.perform (Act.writes_tell (fun _ => rfl) _ _) (fun _ e hr => hr.fail e)
      fun _ _ hr => hr.turn
  exact hproceeds.extends

lemma armed_mem_opened (r : Run) : .armed ∈ marks r.opened.journal.entries :=
  (r.extends_opened.suffix.map fun x => x.event.mark).subset List.mem_cons_self

lemma isOpening_fail (r : Run) (e : Value) : (r.fail e).phase.isOpening = false := by
  rw [Run.fail, (r.finish_spec _).2.1]
  rfl

/-- A sender over a module client says that the client is open, and goes on if it can say so. -/
lemma resume_client_open (hphase : r.phase = .dialing .opening) (a : Answer) :
    (∃ k, r.resume (.fulfilled a) = { r with journal := k }.opened ∧
      r.journal.Extends (fun e => e.mark = .remark) k ∧
      k.console = { r.journal.console with
        lines := r.journal.console.lines + (r.journal.console.threshold.admits .info).toNat }) ∨
    ∃ r' e, r.Remarked r' ∧ r.resume (.fulfilled a) = Run.fail r' e := by
  have hremarks : ∀ text, (Event.line .info text).mark = .remark := fun _ => rfl
  have hj := Act.writes_tell (P := fun e => e.mark = .remark) hremarks
    "Successfully initialized module client." [("transport", .text r.plan.transport)] r.journal
  simp only [Run.resume, hphase, Dial.answered, perform, Act.exec_bind]
  rcases hact : (Act.tell .info "Successfully initialized module client."
    [("transport", .text r.plan.transport)]).exec r.journal with ⟨e | ⟨⟩, k⟩ <;> rw [hact] at hj
  · exact .inr ⟨{ r with journal := k }, e, ⟨rfl, hj, rfl, rfl, id⟩, rfl⟩
  · exact .inl ⟨k, rfl, hj, Act.console_of_log hact⟩

/-- A sender that goes on from an answer and is still on the way to a connection has printed
nothing. -/
lemma console_of_resume (hphase : r.phase.isOpening = true)
    (hresumed : (r.resume s).phase.isOpening = true)
    (hnot : .armed ∉ marks (r.resume s).journal.entries) :
    (r.resume s).journal.console = r.journal.console ∧
      (r.resume s).journal.epoch = r.journal.epoch := by
  have hopened : ∀ r' : Run, r.resume s ≠ r'.opened := fun r' h =>
    hnot (h ▸ r'.armed_mem_opened)
  have hfailed : ∀ r' e, r.resume s ≠ Run.fail r' e := fun r' e h => by
    rw [h, isOpening_fail] at hresumed
    simp at hresumed
  cases hr : r.phase with
  | connecting =>
    cases s with
    | fulfilled a => exact absurd (by simp only [Run.resume, hr]) (hopened r)
    | rejected e => exact absurd (by simp only [Run.resume, hr]) (hfailed r e)
  | dialing dial =>
    rcases resume_dialing hr s with ⟨next, -, -, hj⟩ | ⟨rfl, a, rfl⟩ | ⟨r', e, -, hfails⟩
    · exact hj
    · rcases resume_client_open hr a with ⟨k, hopens, -⟩ | ⟨r', e, -, hfails⟩
      · exact absurd hopens (hopened _)
      · exact absurd hfails (hfailed r' e)
    · exact absurd hfails (hfailed r' e)
  | idle | invoking | publishing | pausing | closing | ended =>
    simp [hr, Phase.isOpening] at hphase

/-- A sender that is on the way to a connection has printed its greeting. -/
lemma console_of_isOpening (hdown : plan.scope.tearsDown = true) (console : Console) (epoch : Int)
    (moves : List Move)
    (hphase : ((create plan (.start console epoch)).begin.follow moves).phase.isOpening = true) :
    ((create plan (.start console epoch)).begin.follow moves).journal.console =
        { console with lines := console.lines + greetingLines console.threshold } ∧
      ((create plan (.start console epoch)).begin.follow moves).journal.epoch = epoch := by
  have hbegun : (create plan (.start console epoch)).begin.Sound plan := Begins.sound .fresh
  induction moves with
  | nil =>
    rcases begin_cases (r := create plan (.start console epoch)) hdown with
      ⟨k, hgreets, hconnects⟩ | ⟨r', e, -, hfailed⟩
    · obtain ⟨hconsole, hepoch⟩ := console_of_greet hgreets
      have hframe := (connect_frame { create plan (.start console epoch) with journal := k }).2
      rw [Run.follow, hconnects]
      exact ⟨hframe.1.trans hconsole, hframe.2.trans hepoch⟩
    · rw [Run.follow, hfailed, isOpening_fail] at hphase
      simp at hphase
  | cons m past ih =>
    have hpast := hbegun.follow past
    have hnot := unarmed_of_isOpening (hpast.make m) hphase
    have hunarmed : .armed ∉ marks
        ((create plan (.start console epoch)).begin.follow past).journal.entries := fun harmed =>
      hnot (((hpast.suffix_make m).map fun x => x.event.mark).subset harmed)
    have hmoved := hpast.make_cases m
    rw [Run.follow] at hphase ⊢
    by_cases hm : m = .goOn
    · subst hm
      rcases make_goOn_cases ((create plan (.start console epoch)).begin.follow past) with
        hsame | ⟨s, hready, hresumed⟩
      · rw [hsame] at hphase ⊢
        exact ih hphase
      · have hopening : ((create plan (.start console epoch)).begin.follow past).phase.isOpening =
            true := by
          rcases (hpast.of_unarmed hdown hunarmed hready).1 with ⟨-, hat⟩ | ⟨-, dial, hat⟩ <;>
            rw [hat] <;> rfl
        rw [hresumed] at hphase hnot ⊢
        obtain ⟨hconsole, hepoch⟩ := console_of_resume
          (r := { (create plan (.start console epoch)).begin.follow past with ready := none })
          hopening hphase hnot
        rw [hconsole, hepoch]
        exact ih hopening
    · obtain ⟨hconsole, hepoch⟩ := hpast.console_make hdown hunarmed hm
      have hworld := hmoved.resolve_right fun h => hm h.1
      rw [hworld.phase] at hphase
      rw [hconsole, hepoch]
      exact ih hphase

/-! ### The announcement -/

/-- A sender that is armed goes on into its loop if it can print the announcement, and else ends. -/
lemma opened_cases (hdown : r.plan.scope.tearsDown = true) :
    (announce r.plan).Succeeds r.arm.journal ∧ r.opened.Lasts ∨
    ¬ (announce r.plan).Succeeds r.arm.journal ∧
      ∃ r' e, r.arm.Remarked r' ∧ r.opened = Run.fail r' e := by
  have hremarks : ∀ text, (Event.line .info text).mark = .remark := fun _ => rfl
  have hj := Act.writes_tell (P := fun e => e.mark = .remark) hremarks
    ("Call direct method to target device [" ++ r.plan.target.deviceId ++ "] and module [" ++
      r.plan.target.moduleId ++ "].") [("intervalMs", .number r.plan.interval)] r.arm.journal
  rw [opened_eq, perform]
  change Journal.Extends _ _ ((announce r.plan).exec r.arm.journal).2 at hj
  rcases hact : (announce r.plan).exec r.arm.journal with ⟨e | ⟨⟩, k⟩ <;> rw [hact] at hj
  · refine .inr ⟨fun hs => hs.ne_error hact, { r.arm with journal := k }, e, ?_, rfl⟩
    exact ⟨rfl, hj, rfl, rfl, id⟩
  · exact .inl ⟨⟨(), k, hact⟩, lasts_turn (r := { r.arm with journal := k }) hdown⟩

lemma succeeds_announce_iff {j : Journal} {console : Console} {epoch : Int}
    (hconsole : j.console = { console with lines := j.console.lines }) (hepoch : j.epoch = epoch)
    (hlines : console.threshold.admits .info = true →
      j.console.lines + 1 = console.lines + announcementLine plan.link) :
    (announce plan).Succeeds j ↔ ¬ AnnouncementFails plan.link console epoch j.now := by
  have hwritable : ∀ m ∈ [("intervalMs", Value.number plan.interval)], m.2.Writable := by
    intro m hm
    rw [List.mem_singleton.mp hm]
    exact Value.writable_number _
  have hthreshold : j.console.threshold = console.threshold := by rw [hconsole]
  have hfault : j.console.fault = console.fault := by rw [hconsole]
  rw [announce, Act.succeeds_tell_iff_line hwritable, AnnouncementFails, hthreshold, hfault, hepoch]
  rw [not_and, not_or, not_exists]
  refine forall_congr' fun hadmits => ?_
  rw [hlines hadmits, Bool.not_eq_false]
  exact and_congr_right fun _ => forall_congr' fun f => not_and.symm

lemma count_of_remarks {kind : Mark → Bool} (hkind : kind .remark = false) {j k : Journal}
    (h : j.Extends (fun e => e.mark = .remark) k) : count kind k.entries = count kind j.entries := by
  obtain ⟨new, hnew, hmark⟩ := h.entries
  have hnone : count kind (new.map (Entry.mk j.now)) = 0 := by
    rw [count, List.countP_eq_zero]
    intro x hx
    obtain ⟨e, he, rfl⟩ := List.mem_map.mp hx
    simp [hmark e he, hkind]
  have happend := count_append kind (new.map (Entry.mk j.now)) j.entries
  rw [hnew]
  exact happend.trans (by rw [hnone, Nat.zero_add])

lemma Sound.count_closings_of_opening (hr : r.Sound plan)
    (hphase : r.phase = .connecting ∨ r.phase = .dialing .opening) :
    count Mark.isClose r.journal.entries = 0 := by
  cases hr with
  | awaiting hstands hat =>
    rw [hstands.history.count_closings]
    rcases hphase with hphase | hphase <;> rw [hphase] at hat <;> cases hat <;> rfl
  | pausing _ hpausing => simp [hpausing] at hphase
  | ended _ hended => simp [hended] at hphase

/-- A sender is armed as it goes on from a connection that is open. No client was closed before, and
whether it can print the announcement shows from how it started. -/
lemma Sound.exists_opened (hr : r.Sound plan) (hdown : plan.scope.tearsDown = true)
    {console : Console} {epoch : Int}
    (hstart : r.phase.isOpening = true → r.journal.console =
        { console with lines := console.lines + greetingLines console.threshold } ∧
      r.journal.epoch = epoch)
    (hnot : .armed ∉ marks r.journal.entries) {m : Move}
    (harmed : .armed ∈ marks (r.make m).journal.entries) :
    ∃ r₁, r.make m = Run.opened r₁ ∧ r₁.plan = plan ∧
      count Mark.isClose r₁.journal.entries = 0 ∧
      ((announce plan).Succeeds r₁.arm.journal ↔
        ¬ AnnouncementFails plan.link console epoch r₁.journal.now) := by
  obtain ⟨rfl, -, -, a, -, hresumed, hphase⟩ := hr.goes_on_of_armed hdown hnot harmed
  have hplan := hr.plan_eq
  rw [hresumed] at harmed ⊢
  rcases hphase with ⟨hlink, hphase⟩ | ⟨hlink, hphase⟩
  · obtain ⟨hconsole, hepoch⟩ := hstart (by rw [hphase]; rfl)
    refine ⟨{ r with ready := none }, by simp only [Run.resume, hphase], hplan,
      hr.count_closings_of_opening (.inl hphase), ?_⟩
    refine succeeds_announce_iff (j := { r with ready := none }.arm.journal) ?_ hepoch
      fun hadmits => ?_
    · change r.journal.console = { console with lines := r.journal.console.lines }
      rw [hconsole]
    · change r.journal.console.lines + 1 = _
      rw [hconsole, hlink]
      simp [greetingLines, hadmits, announcementLine]
  · obtain ⟨hconsole, hepoch⟩ := hstart (by rw [hphase]; rfl)
    rcases resume_client_open (r := { r with ready := none }) hphase a with
      ⟨k, hopens, hj, hk⟩ | ⟨r', e, hremarked, hfails⟩
    · have hunclosed : count Mark.isClose k.entries = 0 := (count_of_remarks rfl hj).trans
        (hr.count_closings_of_opening (.inr hphase))
      refine ⟨{ r with ready := none, journal := k }, hopens, hplan, hunclosed, ?_⟩
      refine succeeds_announce_iff
        (j := Journal.add k (.armed r.coordinator.id)) ?_ (hj.epoch.trans hepoch) fun hadmits => ?_
      · change k.console = { console with lines := k.console.lines }
        rw [hk]
        change ({ r.journal.console with lines := _ } : Console) = _
        rw [hconsole]
      · change k.console.lines + 1 = _
        rw [hk]
        change r.journal.console.lines + (r.journal.console.threshold.admits .info).toNat + 1 = _
        rw [hconsole, hlink]
        simp [greetingLines, hadmits, announcementLine]
    · rw [hfails] at harmed
      exact absurd ((hremarked.fail e).mem_marks Mark.noConfusion harmed) hnot

/-! ### Closing -/

/-- Under this schedule the connection is closed once, and before the run ends. -/
structure ClosesBeforeEnd (r : Run) (moves : List Move) : Prop where
  once : count Mark.isClose (r.follow moves).journal.entries = 1
  before : ∃ after m before s, moves = after ++ m :: before ∧ (r.follow before).Lasts ∧
    (r.follow (m :: before)).phase = .ended s ∧
    count Mark.isClose (r.follow before).journal.entries = 1

lemma ClosesBeforeEnd.append {after before : List Move}
    (h : (r.follow before).ClosesBeforeEnd after) : r.ClosesBeforeEnd (after ++ before) := by
  obtain ⟨honce, later, m, earlier, s, rfl, hlasts, hends, hclosed⟩ := h
  refine ⟨by rw [follow_append]; exact honce, later, m, earlier ++ before, s, by simp, ?_, ?_, ?_⟩
  · rw [follow_append]
    exact hlasts
  · rw [← List.cons_append, follow_append]
    exact hends
  · rw [follow_append]
    exact hclosed

/-- A sender that has come to its loop closes its connection before it ends. -/
lemma Sound.closes_of_lasts (hr : r.Sound plan) (hdown : plan.scope.tearsDown = true)
    (harmed : .armed ∈ marks r.journal.entries) (hlasts : r.Lasts) {moves : List Move}
    (hended : (r.follow moves).phase = .ended s) : r.ClosesBeforeEnd moves := by
  obtain ⟨after, m, before, rfl, hbefore, hmade⟩ :=
    exists_crossing (Q := fun r => ∃ s, r.phase = .ended s) (by simpa [Lasts] using hlasts)
      ⟨s, hended⟩
  obtain ⟨s', hends⟩ := hmade
  have hstill : (r.follow before).Lasts := fun s hs => hbefore ⟨s, hs⟩
  have hkept := (hr.suffix_follow before).map fun x => x.event.mark
  have hclosed := (hr.follow before).closed_of_ends hdown (hkept.subset harmed) hstill hends
  refine ⟨?_, after, m, before, s', rfl, hstill, hends, hclosed⟩
  obtain ⟨p, -, hhistory⟩ := (hr.follow (after ++ m :: before)).exists_history
  have hle := p.closings_le_one
  have hsuffix : (r.follow before).journal.entries <:+
      (r.follow (after ++ m :: before)).journal.entries := by
    rw [follow_append]
    exact ((hr.follow before).suffix_make m).trans ((hr.follow (m :: before)).suffix_follow after)
  have hge : count Mark.isClose (r.follow before).journal.entries ≤
      count Mark.isClose (r.follow (after ++ m :: before)).journal.entries :=
    hsuffix.sublist.countP_le
  rw [hhistory.count_closings] at hge ⊢
  omega

/-- What becomes of a sender that is armed. -/
lemma Sound.closes_of_opened {r₁ : Run} (hr : r₁.opened.Sound plan) (hplan : r₁.plan = plan)
    (hdown : plan.scope.tearsDown = true) (hunclosed : count Mark.isClose r₁.journal.entries = 0)
    {moves : List Move} (hended : (r₁.opened.follow moves).phase = .ended s) :
    ((announce plan).Succeeds r₁.arm.journal → r₁.opened.ClosesBeforeEnd moves) ∧
    (¬ (announce plan).Succeeds r₁.arm.journal →
      count Mark.isClose (r₁.opened.follow moves).journal.entries = 0) := by
  obtain rfl := hplan
  rcases opened_cases hdown with ⟨hprints, hlasts⟩ | ⟨hfails, r', e, hremarked, hfailed⟩
  · exact ⟨fun _ => hr.closes_of_lasts hdown r₁.armed_mem_opened hlasts hended,
      fun hfails => absurd hprints hfails⟩
  · refine ⟨fun hprints => absurd hprints hfails, fun _ => ?_⟩
    have hends : r₁.opened.phase = .ended (.rejected e) := by
      rw [hfailed]
      exact (r'.finish_spec _).2.1
    have hquiet : r₁.arm.Remarked r₁.opened := hfailed ▸ hremarked.fail e
    rw [(hr.ended_follow hends moves).2, count_of_remarks rfl hquiet.journal]
    simpa [arm, Run.note, Event.mark, Mark.isClose] using hunclosed

/-- **An opened connection is always closed**, unless the announcement fails. A sender whose
connection was open and that has ended has asked for it to be closed once, and before it ended,
whichever line its console failed at and whatever it was answered, if it could print whom it would
call. If it could not, the connection was never closed. -/
theorem closes_iff_announced (hdown : plan.scope.tearsDown = true) (console : Console) (epoch : Int)
    (moves : List Move) {x : Entry}
    (hx : x ∈ ((create plan (.start console epoch)).begin.follow moves).journal.entries)
    (harmed : x.event.mark = .armed)
    (hended : ((create plan (.start console epoch)).begin.follow moves).phase = .ended s) :
    (¬ AnnouncementFails plan.link console epoch x.time →
      (create plan (.start console epoch)).begin.ClosesBeforeEnd moves) ∧
    (AnnouncementFails plan.link console epoch x.time →
      count Mark.isClose
        ((create plan (.start console epoch)).begin.follow moves).journal.entries = 0) := by
  have hbegun : (create plan (.start console epoch)).begin.Sound plan := Begins.sound .fresh
  obtain ⟨p, -, hhistory⟩ := (hbegun.follow moves).exists_history
  have honce : count Mark.isArmed
      ((create plan (.start console epoch)).begin.follow moves).journal.entries ≤ 1 := by
    have harmings := hhistory.count_armed
    have hle := (Place.start plan).unarmed_le_one
    omega
  have hmem : .armed ∈ marks
      ((create plan (.start console epoch)).begin.follow moves).journal.entries :=
    List.mem_map.mpr ⟨x, hx, harmed⟩
  obtain ⟨after, m, before, rfl, hbefore, hmade⟩ :=
    exists_crossing (Q := fun r => .armed ∈ marks r.journal.entries)
      (unarmed_begin hdown console epoch) hmem
  obtain ⟨r₁, hopens, hplan, hunclosed, hannounced⟩ := (hbegun.follow before).exists_opened hdown
    (console_of_isOpening hdown console epoch before) hbefore hmade
  have hsound : r₁.opened.Sound plan := hopens ▸ (hbegun.follow before).make m
  have hfollow : (create plan (.start console epoch)).begin.follow (after ++ m :: before) =
      r₁.opened.follow after := by
    rw [follow_append, Run.follow, hopens]
  rw [hfollow] at hx hended honce ⊢
  -- The one entry about arming was made as the sender went on from its open connection.
  have htime : x.time = r₁.journal.now := by
    have hnoted : ⟨r₁.journal.now, .armed r₁.coordinator.id⟩ ∈ r₁.opened.journal.entries :=
      r₁.extends_opened.suffix.subset List.mem_cons_self
    have hkept := (hsound.suffix_follow after).subset hnoted
    rw [eq_of_count_le_one honce hx (by rw [harmed]; rfl) hkept rfl]
  obtain ⟨hcloses, hleaves⟩ := hsound.closes_of_opened hplan hdown hunclosed hended
  rw [htime]
  refine ⟨fun hprints => ?_, fun hfails => hleaves fun hs => hannounced.mp hs hfails⟩
  refine ClosesBeforeEnd.append ?_
  rw [Run.follow, hopens]
  exact hcloses (hannounced.mpr hprints)

/-- The run of a sender on whose connection every call succeeds, with a console that fails at one of
its lines. -/
def faulty (line : Nat) : Run :=
  (create untroubled (.start
    { threshold := .from .info, fault := some ⟨line, .text "disk full"⟩ } 0)).begin

/-- The line before the first attempt fails, and the connection is closed; the announcement fails,
and it stays open. -/
theorem closes_iff_announced_faulty :
    (faulty 5).ClosesBeforeEnd [.goOn, .goOn] ∧
      count Mark.isClose ((faulty 4).follow [.goOn, .goOn]).journal.entries = 0 := by
  have hcloses : ((faulty 5).follow [.goOn, .goOn]).phase =
      .ended (.rejected (.text "disk full")) := rfl
  have hleaves : ((faulty 4).follow [.goOn, .goOn]).phase =
      .ended (.rejected (.text "disk full")) := rfl
  obtain ⟨x, hx, hxarmed⟩ := List.mem_map.mp (armed_mem_iff.mpr
    (show 0 < count Mark.isArmed ((faulty 5).follow [.goOn, .goOn]).journal.entries by
      decide +kernel))
  obtain ⟨y, hy, hyarmed⟩ := List.mem_map.mp (armed_mem_iff.mpr
    (show 0 < count Mark.isArmed ((faulty 4).follow [.goOn, .goOn]).journal.entries by
      decide +kernel))
  have hnow : ∀ x ∈ ((faulty 5).follow [.goOn, .goOn]).journal.entries, x.time = 0 := by
    decide +kernel
  refine ⟨(closes_iff_announced rfl _ 0 _ hx hxarmed hcloses).1 ?_,
    (closes_iff_announced rfl _ 0 _ hy hyarmed hleaves).2 ?_⟩
  · rw [hnow x hx]
    rintro ⟨-, hrange | ⟨f, hf, hline⟩⟩
    · revert hrange
      decide
    · obtain rfl := Option.some.inj hf
      simp [announcementLine, untroubled] at hline
  · exact ⟨rfl, .inr ⟨_, rfl, rfl⟩⟩

end Run

end Sender

end EdgeCaller

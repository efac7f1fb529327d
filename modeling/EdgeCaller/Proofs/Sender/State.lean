import EdgeCaller.Proofs.Sender.Foreseen
import EdgeCaller.Proofs.Sender.History
import EdgeCaller.Proofs.Sender.Pending
import EdgeCaller.Sender.Response
/-!
The states of a run.

A run that is not between two of its own moves is at rest: it awaits an answer, or the end of a
pause, or it has ended. `Sound` says what holds of it then: what it has done is a history of the
protocol that led to the place where it is, the coordinator is as the protocol has it there, and at
most one timer besides that of the grace period is pending, the one that the run waits for.
-/

namespace EdgeCaller.Sender.Run

/-- Nothing goes wrong with a run but what its loop is made to survive. -/
def Calm (r : Run) : Prop := r.journal.Undisturbed ∧ r.plan.Benign

def Origin (plan : Plan) (r : Run) : Prop :=
  r.plan = plan ∧ r.coordinator.id = plan.name ∧
    r.coordinator.signals = Coordinator.standardSignals ∧
    r.coordinator.gracePeriod = plan.gracePeriod

/-- A run that has come to a place. While the grace period lasts, its timer is pending; where
teardown has ended there is none. -/
structure Stands (plan : Plan) (r : Run) (p : Place) : Prop where
  history : History r.plan r.journal.entries p r.coordinator.isAborted
  listening : r.coordinator.listening = (r.plan.scope.tearsDown && p.listens)
  latch : r.coordinator.latch.isSet = p.isComplete
  origin : r.Origin plan
  grace : r.timers.graces = [] ∨ ∃ u, r.coordinator.listening = true ∧
    abortTime r.journal.entries = some u ∧
    r.timers.graces = [⟨u + Timers.effectiveDelay r.plan.gracePeriod, .grace⟩]
  due : r.exit = none → ∀ t ∈ r.timers, r.journal.now ≤ t.due

structure Free (plan : Plan) (r : Run) (p : Place) : Prop extends Stands plan r p where
  ready : r.ready = none
  drives : r.timers.drives = []

/-- A run that waits for an answer: it will not come, it has come, or a timer brings it. -/
inductive Awaits (r : Run) : Prop where
  | never : r.ready = none → r.timers.drives = [] → r.plan.Replies r.phase none → Awaits r
  | answered {s} : r.ready = some s → r.timers.drives = [] → r.plan.Foresees r.phase s → Awaits r
  | coming {due s} : r.ready = none → r.timers.drives = [⟨due, .answer s⟩] →
      r.plan.Foresees r.phase s → Awaits r

/-- The places of a run that waits for an answer. A loop that was left without a failure was left
because the work is aborted. -/
inductive At (link : Link) (aborted : Bool) : Phase → Place → Prop where
  | connecting : link = .direct → At link aborted .connecting .opening
  | creating : link = .client → At link aborted (.dialing .creating) .opening
  | opening : link = .client → At link aborted (.dialing .opening) .opening
  | discarding {cause} : link = .client →
      At link aborted (.dialing (.discarding cause)) .discarding
  | invoking {name} : At link aborted (.invoking (.text name)) .invoking
  | publishing : At link aborted .publishing .publishing
  | closing {failure} : (failure = none → aborted = true) →
      At link aborted (.closing failure) .closing

lemma At.mono {link : Link} {aborted aborted' : Bool} {phase : Phase} {p : Place}
    (h : At link aborted phase p) (hmono : aborted = true → aborted' = true) :
    At link aborted' phase p := by
  cases h with
  | connecting hlink => exact .connecting hlink
  | creating hlink => exact .creating hlink
  | opening hlink => exact .opening hlink
  | discarding hlink => exact .discarding hlink
  | invoking => exact .invoking
  | publishing => exact .publishing
  | closing hf => exact .closing fun hnone => hmono (hf hnone)

lemma At.ne_pausing {link : Link} {aborted : Bool} {phase : Phase} {p : Place}
    (h : At link aborted phase p) : phase ≠ .pausing := by
  cases h <;> exact Phase.noConfusion

/-- A run that waits for the end of a pause: the pause is over, or its timer is pending. -/
inductive Pauses (r : Run) : Prop where
  | elapsed {s} : r.ready = some s → r.timers.drives = [] →
      r.coordinator.isAborted = true ∨ Spaced r.plan r.journal.entries r.journal.now → Pauses r
  | lasting {u} : r.ready = none → r.coordinator.isAborted = false →
      lastEnd r.journal.entries = some u →
      r.timers.drives = [⟨u + Timers.effectiveDelay r.plan.interval, .pause⟩] → Pauses r

/-- How a run can have ended, and at which place. -/
inductive Ends (r : Run) : Place → Settlement → Prop where
  | attempt {o} : r.plan.scope = .attempt → Ends r .between (.fulfilled (.outcome o))
  | stopped : r.plan.scope.tearsDown = false → r.coordinator.isAborted = true →
      Ends r .between (.fulfilled .nothing)
  /-- A loop that does not tear down has failed. -/
  | broken {p e} : r.plan.scope.tearsDown = false → p.mayLeave = true → ¬ r.Calm →
      Ends r p (.rejected e)
  | unopened {p e} : p.unarmed = 1 →
      (r.plan.link = .direct → .dial ∈ marks r.journal.entries →
        r.plan.Foresees .connecting (.rejected e)) → Ends r p (.rejected e)
  | unstarted {e} : r.plan.scope.tearsDown = true → ¬ r.journal.Undisturbed →
      Ends r .between (.rejected e)
  | unclosed {s e} : (r.plan.link = .direct → s = .rejected e) → Ends r (.closed s) (.rejected e)
  | failed {e} : Ends r .detached (.rejected e)
  | finished : r.coordinator.isAborted = true → Ends r .detached (.fulfilled (.code 0))

/-- What holds of a run at rest. -/
inductive Sound (plan : Plan) (r : Run) : Prop where
  | awaiting {p} : r.Stands plan p → At r.plan.link r.coordinator.isAborted r.phase p →
      r.Awaits → Sound plan r
  | pausing : r.Stands plan .between → r.phase = .pausing → r.Pauses → Sound plan r
  | ended {p s} : r.Free plan p → r.phase = .ended s → r.Ends p s → Sound plan r

lemma Stands.timers_eq_drives {plan : Plan} {r : Run} {p : Place} (h : r.Stands plan p)
    (hl : r.coordinator.listening = false) : r.timers = r.timers.drives := by
  refine (Timers.drives_eq_self ?_).symm
  rcases h.grace with hg | ⟨u, hl', -, -⟩
  · exact hg
  · rw [hl] at hl'
    simp at hl'

lemma At.ne_ended {link : Link} {aborted : Bool} {phase : Phase} {p : Place} {s : Settlement}
    (h : At link aborted phase p) : phase ≠ .ended s := by
  cases h <;> exact Phase.noConfusion

namespace Sound

variable {plan : Plan} {r : Run} {s : Settlement}

lemma exists_stands (h : r.Sound plan) : ∃ p, r.Stands plan p := by
  cases h with
  | awaiting hstands => exact ⟨_, hstands⟩
  | pausing hstands => exact ⟨_, hstands⟩
  | ended hfree => exact ⟨_, hfree.toStands⟩

lemma plan_eq (h : r.Sound plan) : r.plan = plan := by
  obtain ⟨p, hp⟩ := h.exists_stands
  exact hp.origin.1

lemma exists_history (h : r.Sound plan) :
    ∃ p, r.Stands plan p ∧ History plan r.journal.entries p r.coordinator.isAborted := by
  obtain ⟨p, hp⟩ := h.exists_stands
  have hhistory := hp.history
  rw [h.plan_eq] at hhistory
  exact ⟨p, hp, hhistory⟩

lemma exists_ends (h : r.Sound plan) (hs : r.phase = .ended s) :
    ∃ p, r.Free plan p ∧ r.Ends p s := by
  cases h with
  | awaiting _ hat => exact absurd hs hat.ne_ended
  | pausing _ hphase =>
    rw [hs] at hphase
    simp at hphase
  | @ended p _ hfree hphase hends =>
    obtain rfl := Phase.ended.inj (hs.symm.trans hphase)
    exact ⟨p, hfree, hends⟩

end Sound

/-! ### Later states -/

/-- `r'` is `r` some time later, in which the run itself has done nothing but remark: it may have
been aborted, and timers of the grace period may have come and gone. -/
structure Later (r r' : Run) : Prop where
  plan : r'.plan = r.plan
  aborted : r.coordinator.isAborted = true → r'.coordinator.isAborted = true
  drives : r'.timers.drives = r.timers.drives
  now : r.journal.now ≤ r'.journal.now
  undisturbed : r'.journal.Undisturbed → r.journal.Undisturbed
  lastEnd : lastEnd r'.journal.entries = lastEnd r.journal.entries
  dialed : .dial ∈ marks r'.journal.entries → .dial ∈ marks r.journal.entries
  stands : ∀ plan p, r.Stands plan p → r'.Stands plan p

namespace Later

variable {plan : Plan} {r r' : Run} {p : Place} {s : Settlement}

lemma calm (h : r.Later r') (hc : r'.Calm) : r.Calm := by
  refine ⟨h.undisturbed hc.1, ?_⟩
  rw [← h.plan]
  exact hc.2

lemma spaced (h : r.Later r') (hs : Spaced r.plan r.journal.entries r.journal.now) :
    Spaced r'.plan r'.journal.entries r'.journal.now := by
  intro hpace u hu
  rw [h.lastEnd] at hu
  rw [h.plan] at hpace ⊢
  exact Nat.le_trans (hs hpace u hu) h.now

lemma free (h : r.Later r') (hr : r.Free plan p) (hready : r'.ready = r.ready) : r'.Free plan p :=
  { h.stands plan p hr.toStands with
    ready := hready.trans hr.ready
    drives := h.drives.trans hr.drives }

lemma awaits (h : r.Later r') (hphase : r'.phase = r.phase) (hready : r'.ready = r.ready)
    (hr : r.Awaits) : r'.Awaits := by
  cases hr with
  | never hnone hdrives hf =>
    exact .never (hready.trans hnone) (h.drives.trans hdrives) (by rw [h.plan, hphase]; exact hf)
  | answered hsome hdrives hf =>
    exact .answered (hready.trans hsome) (h.drives.trans hdrives)
      (by rw [h.plan, hphase]; exact hf)
  | coming hnone hdrives hf =>
    exact .coming (hready.trans hnone) (h.drives.trans hdrives)
      (by rw [h.plan, hphase]; exact hf)

lemma pauses (h : r.Later r') (hready : r'.ready = r.ready)
    (hsame : r'.coordinator.isAborted = r.coordinator.isAborted) (hr : r.Pauses) : r'.Pauses := by
  cases hr with
  | elapsed hsome hdrives helapsed =>
    exact .elapsed (hready.trans hsome) (h.drives.trans hdrives) (helapsed.imp h.aborted h.spaced)
  | lasting hnone ha hend hdrives =>
    refine .lasting (hready.trans hnone) (hsame.trans ha) (h.lastEnd.trans hend) ?_
    rw [h.drives, h.plan]
    exact hdrives

lemma ends (h : r.Later r') (hr : r.Ends p s) : r'.Ends p s := by
  cases hr with
  | attempt hs => exact .attempt (by rw [h.plan]; exact hs)
  | stopped hs ha => exact .stopped (by rw [h.plan]; exact hs) (h.aborted ha)
  | broken hs hp hc => exact .broken (by rw [h.plan]; exact hs) hp fun hc' => hc (h.calm hc')
  | unopened hp hf =>
    refine .unopened hp fun hlink hdial => ?_
    rw [h.plan] at hlink ⊢
    exact hf hlink (h.dialed hdial)
  | unstarted hs hu =>
    exact .unstarted (by rw [h.plan]; exact hs) fun hu' => hu (h.undisturbed hu')
  | unclosed hlink => exact .unclosed (by rw [h.plan]; exact hlink)
  | failed => exact .failed
  | finished ha => exact .finished (h.aborted ha)

theorem sound (h : r.Later r') (hphase : r'.phase = r.phase) (hready : r'.ready = r.ready)
    (hsame : r'.coordinator.isAborted = r.coordinator.isAborted) (hr : r.Sound plan) :
    r'.Sound plan := by
  cases hr with
  | awaiting hstands hat hawaits =>
    refine .awaiting (h.stands _ _ hstands) ?_ (h.awaits hphase hready hawaits)
    rw [h.plan, hsame, hphase]
    exact hat
  | pausing hstands hpausing hpauses =>
    exact .pausing (h.stands _ _ hstands) (hphase.trans hpausing) (h.pauses hready hsame hpauses)
  | ended hfree hended hends =>
    exact .ended (h.free hfree hready) (hphase.trans hended) (h.ends hends)

end Later

/-- `r'` is `r` after some remarks; phase, tallies and what is ready do not matter. -/
structure Remarked (r r' : Run) : Prop where
  plan : r'.plan = r.plan
  journal : r.journal.Extends (fun e => e.mark = .remark) r'.journal
  coordinator : r'.coordinator = r.coordinator
  timers : r'.timers = r.timers
  exit : r'.exit = none → r.exit = none

namespace Remarked

variable {plan : Plan} {r r' r'' : Run} {p : Place}

lemma trans (h : Remarked r r') (h' : Remarked r' r'') : Remarked r r'' :=
  ⟨h'.plan.trans h.plan, h.journal.trans h'.journal, h'.coordinator.trans h.coordinator,
    h'.timers.trans h.timers, fun he => h.exit (h'.exit he)⟩

lemma calm_iff (h : Remarked r r') : r'.Calm ↔ r.Calm := by
  rw [Calm, Calm, h.plan, h.journal.undisturbed_iff]

lemma mem_marks (h : Remarked r r') {m : Mark} (hm : m ≠ .remark)
    (hmem : m ∈ marks r'.journal.entries) : m ∈ marks r.journal.entries := by
  obtain ⟨new, hnew, hmark⟩ := h.journal.entries
  rw [marks, hnew, List.map_append, List.map_map, List.mem_append] at hmem
  rcases hmem with hmem | hmem
  · obtain ⟨e, he, rfl⟩ := List.mem_map.mp hmem
    exact absurd (hmark e he) hm
  · exact hmem

lemma stands (h : Remarked r r') (hr : r.Stands plan p) : r'.Stands plan p := by
  obtain ⟨new, hnew, hmark⟩ := h.journal.entries
  refine ⟨?_, ?_, ?_, ?_, ?_, ?_⟩
  · rw [h.plan, h.coordinator, hnew]
    exact hr.history.remarks hmark _
  · rw [h.plan, h.coordinator]; exact hr.listening
  · rw [h.coordinator]; exact hr.latch
  · rw [Origin, h.plan, h.coordinator]; exact hr.origin
  · rw [h.timers, h.coordinator, h.plan, hnew, abortTime_remarks hmark]; exact hr.grace
  · intro he
    rw [h.timers, h.journal.now]
    exact hr.due (h.exit he)

lemma later (h : Remarked r r') : r.Later r' where
  plan := h.plan
  aborted ha := by rw [h.coordinator]; exact ha
  drives := by rw [h.timers]
  now := Nat.le_of_eq h.journal.now.symm
  undisturbed := h.journal.undisturbed_iff.mp
  lastEnd := by
    obtain ⟨new, hnew, hmark⟩ := h.journal.entries
    rw [hnew, lastEnd_remarks hmark]
  dialed := h.mem_marks Mark.noConfusion
  stands _ _ := h.stands

end Remarked

lemma remarked_note (r : Run) {e : Event} (he : e.mark = .remark) : Remarked r (r.note e) :=
  ⟨rfl, Journal.extends_add he r.journal, rfl, rfl, id⟩

lemma remarked_exitWith (r : Run) (code : Nat) : Remarked r (r.exitWith code) := by
  have hj := Journal.extends_add (P := fun e => e.mark = .remark) (e := .exit code) rfl r.journal
  exact ⟨rfl, hj, rfl, rfl, by simp [exitWith, note]⟩

end EdgeCaller.Sender.Run

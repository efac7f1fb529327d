import EdgeCaller.Proofs.Shutdown.Company
/-!
What has nothing to do with sleeps.

A board holds of each sleep that has not ended one timer and one sleeper of a coordinator, and
reports its end under its name. Most of what happens on a board leaves all of that as it is: it is
`Quiet`.
-/

namespace EdgeCaller

/-- A sleep as it was begun: whose abort ends it, when it began, and for how long. -/
structure Nap where
  owner : Nat
  sleeper : Sleeper
  began : Nat
  ms : Number

namespace Nap

/-- When the timer of a sleep is due. -/
def due (x : Nap) : Nat := x.began + Timers.effectiveDelay x.ms

def timer (x : Nap) : Timer Alarm := ⟨x.due, .sleep x.owner x.sleeper⟩

end Nap

def Alarm.isSleep : Alarm → Bool
  | grace _ => false
  | sleep _ _ => true

/-- Whether an event is no rejection. -/
def Event.Fulfils : Event → Prop
  | settled _ s => s = .fulfilled .nothing
  | _ => True

lemma Event.fulfils_of_isLine {e : Event} (h : e.isLine = true) : e.Fulfils := by
  cases e <;> simp_all [isLine, Fulfils]

namespace Switchboard

/-- The timers of sleeps. -/
def sleepTimers (b : Switchboard) : Timers Alarm := b.timers.filter (·.wake.isSleep)

def sleepersOf (b : Switchboard) (n : Nat) : List Sleeper :=
  ((b.stations[n]?).map (·.sleepers)).getD []

def isAborted (b : Switchboard) (n : Nat) : Bool :=
  ((b.stations[n]?).map (·.coordinator.isAborted)).getD false

/-- The times at which the ends of what is watched under a name were reported; where the report is
queued, that is now. -/
def reports (b : Switchboard) (name : String) : List Nat :=
  List.replicate (b.queue.count (.report name)) b.journal.now ++
    b.journal.times (Event.isSettledAs name)

/-- No waiter has this name. -/
def Free (name : String) (b : Switchboard) : Prop :=
  ∀ (n : Nat) (s : Station), b.stations[n]? = some s →
    .report name ∉ s.coordinator.latch.waiting

def Fulfils (b : Switchboard) : Prop := ∀ x ∈ b.journal.entries, x.event.Fulfils

variable {b b' b'' : Switchboard} {name : String} {owner : Nat} {s : Station}

lemma length_reports (b : Switchboard) (name : String) :
    (b.reports name).length = b.releases name := by
  rw [reports, releases, List.length_append, List.length_replicate, Nat.add_comm]

lemma getElem?_update_eq (b : Switchboard) (owner : Nat) (f : Station → Station) (n : Nat) :
    (b.update owner f).stations[n]? =
      (b.stations[n]?).map fun s => if owner = n then f s else s :=
  List.getElem?_modify f owner b.stations n

/-- A change of a coordinator shows only in what it changes. -/
lemma map_getElem?_update {α : Type} {f : Station → Station} {g : Station → α} (n : Nat)
    (hg : ∀ s, b.stations[owner]? = some s → g (f s) = g s) :
    ((b.update owner f).stations[n]?).map g = (b.stations[n]?).map g := by
  rw [getElem?_update_eq, Option.map_map]
  refine Option.map_congr fun s hs => ?_
  simp only [Function.comp]
  split
  · next hn => exact hg s (hn ▸ hs)
  · rfl

lemma isAborted_update {f : Station → Station} (hf : ∀ s, b.stations[owner]? = some s →
    (f s).coordinator.isAborted = s.coordinator.isAborted) (n : Nat) :
    (b.update owner f).isAborted n = b.isAborted n :=
  congrArg (·.getD false) (map_getElem?_update n hf)

/-- A change of a coordinator that adds no waiter of this name. -/
lemma Free.update (h : b.Free name) {f : Station → Station}
    (hf : ∀ s, b.stations[owner]? = some s → .report name ∈ (f s).coordinator.latch.waiting →
      .report name ∈ s.coordinator.latch.waiting) : (b.update owner f).Free name := by
  intro n s' hs'
  rw [getElem?_update_eq, Option.map_eq_some_iff] at hs'
  obtain ⟨s, hn, rfl⟩ := hs'
  split
  · next howner => exact fun hwaiting => h n s hn (hf s (howner ▸ hn) hwaiting)
  · exact h n s hn

/-- What happens from `b` to `b'` has nothing to do with sleeps. -/
structure Quiet (name : String) (b b' : Switchboard) : Prop where
  now : b'.journal.now = b.journal.now
  tickets : b'.tickets = b.tickets
  sleepTimers : b'.sleepTimers = b.sleepTimers
  sleepersOf : ∀ n, b'.sleepersOf n = b.sleepersOf n
  isAborted : ∀ n, b'.isAborted n = b.isAborted n
  fulfils : b.Fulfils → b'.Fulfils
  free : b.Free name → b'.Free name
  reports : b.Free name → b'.reports name = b.reports name

namespace Quiet

lemma refl (name : String) (b : Switchboard) : Quiet name b b :=
  ⟨rfl, rfl, rfl, fun _ => rfl, fun _ => rfl, id, id, fun _ => rfl⟩

lemma trans (h : Quiet name b b') (h' : Quiet name b' b'') : Quiet name b b'' where
  now := h'.now.trans h.now
  tickets := h'.tickets.trans h.tickets
  sleepTimers := h'.sleepTimers.trans h.sleepTimers
  sleepersOf n := (h'.sleepersOf n).trans (h.sleepersOf n)
  isAborted n := (h'.isAborted n).trans (h.isAborted n)
  fulfils hb := h'.fulfils (h.fulfils hb)
  free hb := h'.free (h.free hb)
  reports hb := (h'.reports (h.free hb)).trans (h.reports hb)

lemma journal {k : Journal} {P : Event → Prop} (hk : b.journal.Extends P k)
    (hsettled : ∀ e, P e → e.isSettledAs name = false) (hfulfils : ∀ e, P e → e.Fulfils) :
    Quiet name b { b with journal := k } where
  now := hk.now
  tickets := rfl
  sleepTimers := rfl
  sleepersOf _ := rfl
  isAborted _ := rfl
  fulfils hb x hx := by
    obtain ⟨new, hnew, hP⟩ := hk.entries
    obtain hx | hx := List.mem_append.mp (hnew ▸ hx)
    · obtain ⟨e, he, rfl⟩ := List.mem_map.mp hx
      exact hfulfils e (hP e he)
    · exact hb x hx
  free := id
  reports _ := by
    simp only [Switchboard.reports, hk.now, hk.times_eq hsettled]

lemma lines {k : Journal} (hk : b.journal.Extends (·.isLine = true) k) :
    Quiet name b { b with journal := k } :=
  journal hk (fun _ he => Event.isSettledAs_of_isLine he name) fun _ => Event.fulfils_of_isLine

lemma add {e : Event} (hsettled : e.isSettledAs name = false) (hfulfils : e.Fulfils) :
    Quiet name b { b with journal := b.journal.add e } :=
  journal (Journal.extends_add (P := (· = e)) rfl _) (fun _ he => he ▸ hsettled)
    fun _ he => he ▸ hfulfils

lemma timers {ts : Timers Alarm}
    (h : ts.filter (·.wake.isSleep) = b.timers.filter (·.wake.isSleep)) :
    Quiet name b { b with timers := ts } :=
  { refl name b with sleepTimers := h }

lemma enqueue {rs : List Reaction} (h : b.Free name → .report name ∉ rs) :
    Quiet name b (b.enqueue rs) :=
  { refl name b with
    reports := fun hb => by
      simp only [Switchboard.reports, Switchboard.enqueue, List.count_append,
        List.count_eq_zero_of_not_mem (h hb), Nat.add_zero] }

lemma requeue {q q' : List Reaction} (h : q'.count (.report name) = q.count (.report name)) :
    Quiet name { b with queue := q } { b with queue := q' } :=
  { refl name _ with
    reports := fun _ => by
      have hnow : ∀ q : List Reaction, Switchboard.reports { b with queue := q } name =
          List.replicate (q.count (.report name)) b.journal.now ++
            b.journal.times (Event.isSettledAs name) := fun _ => rfl
      rw [hnow, hnow, h] }

/-- A coordinator is changed, but not in what concerns sleeps. -/
lemma update {f : Station → Station} (hs : ∀ s, b.stations[owner]? = some s →
      (f s).sleepers = s.sleepers ∧ (f s).coordinator.isAborted = s.coordinator.isAborted ∧
        (.report name ∈ (f s).coordinator.latch.waiting →
          .report name ∈ s.coordinator.latch.waiting)) :
    Quiet name b (b.update owner f) :=
  { refl name b with
    sleepersOf := fun n => congrArg (·.getD []) (map_getElem?_update n fun s h => (hs s h).1)
    isAborted := fun n => isAborted_update (fun s h => (hs s h).2.1) n
    free := fun hb => hb.update fun s h => (hs s h).2.2 }

lemma wake_grace (b : Switchboard) (owner : Nat) : Quiet name b (b.wake (.grace owner)) := by
  simp only [wake]
  split
  · exact refl name b
  · next s _ =>
    obtain ⟨k, hk, hcases⟩ := Coordinator.exec_graceEnded_cases (P := (·.isLine = true))
      (fun _ _ => rfl) s.coordinator b.journal
    have hlines : Quiet name b { b with journal := k } := lines hk
    rcases hcases with ⟨e, hact⟩ | ⟨-, hact⟩ | ⟨-, hact⟩
    · simp only [perform, hact]
      exact { hlines with }
    · simp only [perform, hact]
      exact hlines
    · simp only [perform, hact]
      exact hlines.trans (add (e := .forceExit s.coordinator.id) rfl trivial)

end Quiet

/-! ### What has nothing to do with sleeps -/

/-- A station that is new changes nothing that is looked up where it shows what was there before. -/
lemma getD_getElem?_append {α : Type} {ss : List Station} {new : Station} {g : Station → α} {d : α}
    (hnew : g new = d) (n : Nat) :
    (((ss ++ [new])[n]?).map g).getD d = ((ss[n]?).map g).getD d := by
  rw [List.getElem?_append]
  split
  · rfl
  · next hn =>
    rw [List.getElem?_eq_none (Nat.not_lt.mp hn)]
    cases n - ss.length with
    | zero => exact hnew
    | succ k => rfl

lemma quiet_arm (b : Switchboard) (id : String) (source : Source) (signals : List String)
    (gracePeriod : Number) : Quiet name b (b.arm id source signals gracePeriod) := by
  have hadded : Quiet name b { b with journal := b.journal.add (.armed id) } := .add rfl trivial
  refine { hadded with
    sleepersOf := fun n => ?_
    isAborted := fun n => ?_
    free := fun hb n s hs => ?_ }
  · exact getD_getElem?_append rfl n
  · exact getD_getElem?_append rfl n
  · rw [arm, List.getElem?_append] at hs
    split at hs
    · exact hb n s hs
    · obtain rfl := List.mem_singleton.mp (List.mem_of_getElem? hs)
      simp

lemma quiet_stopGrace (b : Switchboard) (owner : Nat) : Quiet name b (b.stopGrace owner) := by
  refine Quiet.timers ?_
  rw [Timers.cancel, List.filter_filter]
  refine List.filter_congr fun t _ => ?_
  cases t.wake <;> simp [Alarm.isSleep, Alarm.isGraceOf]

lemma quiet_dispose (b : Switchboard) (owner : Nat) : Quiet name b (b.dispose owner) := by
  unfold dispose
  split
  · exact .refl name b
  · next s hs =>
    have hdetached : Quiet name b
        (b.update owner fun s => { s with coordinator := s.coordinator.detach }) :=
      .update fun _ _ => ⟨rfl, rfl, id⟩
    exact hdetached.trans ((Quiet.add (e := .detached s.coordinator.id) rfl trivial).trans
      (quiet_stopGrace _ owner))

lemma quiet_complete (b : Switchboard) (owner : Nat) : Quiet name b (b.complete owner) := by
  cases hs : b.stations[owner]? with
  | none =>
    have hsame : b.complete owner = b := by simp only [complete, hs]
    rw [hsame]
    exact .refl name b
  | some s =>
    cases hset : s.coordinator.latch.isSet with
    | true =>
      rw [Orderly.complete_of_isSet hs hset]
      exact .refl name b
    | false =>
      have hreleased : Quiet name b (b.enqueue s.coordinator.latch.waiting) :=
        .enqueue fun hb => hb owner s hs
      have hset : Quiet name (b.enqueue s.coordinator.latch.waiting)
          ((b.enqueue s.coordinator.latch.waiting).update owner fun s =>
            { s with coordinator := { s.coordinator with latch := ⟨true, []⟩ } }) :=
        .update fun _ _ => ⟨rfl, rfl, by simp⟩
      rw [Orderly.complete_of_unset hs ‹_›]
      exact (hreleased.trans hset).trans (.add (e := .completed s.coordinator.id) rfl trivial)

lemma quiet_watch (b : Switchboard) (owner : Nat) {other : String} (hother : other ≠ name) :
    Quiet name b (b.watch owner other) := by
  have hne : Reaction.report name ≠ .report other := fun h => hother (by simpa using h.symm)
  unfold watch
  split
  · exact .refl name b
  · next s hs =>
    have hwaits : Quiet name b (b.update owner fun s' => { s' with coordinator :=
        { s'.coordinator with latch := (s.coordinator.latch.wait (.report other)).2 } }) := by
      refine .update fun s' hs' => ⟨rfl, rfl, fun hmem => ?_⟩
      obtain rfl := Option.some.inj (hs.symm.trans hs')
      unfold Latch.wait at hmem
      split at hmem
      · exact hmem
      · simpa [hne] using hmem
    have hreleased : .report name ∉ (s.coordinator.latch.wait (.report other)).1 := by
      unfold Latch.wait
      split
      · simpa using hne
      · simp
    exact hwaits.trans (.enqueue fun _ => hreleased)

/-- What is queued counts as reported, so it does not matter when it is taken from the queue. -/
lemma quiet_react (b : Switchboard) (r : Reaction) (q : List Reaction) :
    Quiet name { b with queue := r :: q } { b.react r with queue := q } := by
  cases r with
  | stopGrace owner =>
    have hqueued : Quiet name { b with queue := .stopGrace owner :: q } { b with queue := q } :=
      .requeue (List.count_cons_of_ne (by simp)).symm
    exact hqueued.trans (quiet_stopGrace { b with queue := q } owner)
  | report other =>
    by_cases hname : other = name
    · subst hname
      refine { Quiet.refl other _ with
        now := rfl
        fulfils := fun hb => List.forall_mem_cons.mpr ⟨rfl, hb⟩
        reports := fun _ => ?_ }
      have hown : Event.isSettledAs other (.settled other (.fulfilled .nothing)) = true := by
        simp [Event.isSettledAs]
      change List.replicate (q.count _) b.journal.now ++ (b.journal.add _).times _ =
        List.replicate ((Reaction.report other :: q).count _) b.journal.now ++ _
      rw [Journal.times_add, if_pos hown, List.count_cons_self, List.replicate_succ',
        List.append_assoc]
      rfl
    · have hqueued : Quiet name { b with queue := .report other :: q } { b with queue := q } :=
        .requeue (List.count_cons_of_ne (by simpa using hname)).symm
      exact hqueued.trans (.add (e := .settled other (.fulfilled .nothing))
        (by simpa [Event.isSettledAs] using hname) rfl)

lemma quiet_drain (b : Switchboard) : Quiet name b b.drain := by
  have hfold : ∀ (q : List Reaction) (b : Switchboard),
      Quiet name { b with queue := q } (q.foldl react { b with queue := [] }) := by
    intro q
    induction q with
    | nil => exact fun b => .refl name _
    | cons r q ih =>
      intro b
      refine (quiet_react b r q).trans ?_
      have hrest := ih (b.react r)
      cases r <;> exact hrest
  exact hfold b.queue b

lemma queue_drain (b : Switchboard) : b.drain.queue = [] := by
  have hfold : ∀ (q : List Reaction) (b : Switchboard), (q.foldl react b).queue = b.queue := by
    intro q
    induction q with
    | nil => exact fun _ => rfl
    | cons r q ih =>
      intro b
      refine (ih (b.react r)).trans ?_
      cases r <;> rfl
  exact hfold b.queue { b with queue := [] }

end Switchboard

end EdgeCaller

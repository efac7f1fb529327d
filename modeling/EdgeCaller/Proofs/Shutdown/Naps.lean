import Mathlib.Data.List.Nodup
import EdgeCaller.Proofs.Shutdown.Quiet
/-!
The sleeps on a board.

A sleep that has not ended has a timer of its own and stands among the sleepers of one coordinator;
when it ends it has neither, and its end is reported. Which sleeps these are is kept next to the
board, as a list of naps. Each operation on the board comes to one on this list: a sleep adds a nap,
the abort of a coordinator takes all its naps off, a timer takes off its own, and nothing else
matters.
-/

namespace EdgeCaller

namespace Switchboard

variable {b b' b'' : Switchboard} {name : String} {owner : Nat} {s : Station} {prompt : Prop}
  {naps : List Nap} {ends : List Nat}

lemma now_sleep (b : Switchboard) (owner : Nat) (other : String) (ms : Number) :
    (b.sleep owner other ms).journal.now = b.journal.now := by
  unfold Switchboard.sleep
  split
  · rfl
  · split <;> rfl

lemma isAborted_sleep (b : Switchboard) (owner : Nat) (other : String) (ms : Number) (n : Nat) :
    (b.sleep owner other ms).isAborted n = b.isAborted n := by
  unfold sleep
  split
  · rfl
  · split
    · rfl
    · exact isAborted_update (b := b)
        (f := fun s => { s with sleepers := s.sleepers ++ [⟨b.tickets, other⟩] }) (fun _ _ => rfl) n

/-- These are the sleeps on a board that have not ended, oldest first. Each has one timer and stands
once among the sleepers of a coordinator that is not aborted; and what was reported under a name are
the ends of sleeps at these times, in some order. The times are right as long as what is queued is
worked off before time passes. -/
structure Rests (name : String) (prompt : Prop) (naps : List Nap) (ends : List Nat)
    (b : Switchboard) : Prop where
  timers : b.sleepTimers = naps.map Nap.timer
  sleepers : ∀ n, b.sleepersOf n = (naps.filter (·.owner = n)).map (·.sleeper)
  awake : ∀ x ∈ naps, b.isAborted x.owner = false
  increasing : (naps.map (·.sleeper.ticket)).Pairwise (· < ·)
  fresh : ∀ x ∈ naps, x.sleeper.ticket < b.tickets
  fulfils : b.Fulfils
  free : b.Free name
  count : (b.reports name).length = ends.length
  times : prompt → (b.reports name).Perm ends

namespace Rests

lemma quiet (h : Rests name prompt naps ends b) (hb : Quiet name b b') :
    Rests name prompt naps ends b' where
  timers := hb.sleepTimers.trans h.timers
  sleepers n := (hb.sleepersOf n).trans (h.sleepers n)
  awake x hx := (hb.isAborted x.owner).trans (h.awake x hx)
  increasing := h.increasing
  fresh x hx := hb.tickets.symm ▸ h.fresh x hx
  fulfils := hb.fulfils h.fulfils
  free := hb.free h.free
  count := by rw [hb.reports h.free]; exact h.count
  times hp := by rw [hb.reports h.free]; exact h.times hp

/-- The order of the ends does not matter. -/
lemma perm (h : Rests name prompt naps ends b) {ends' : List Nat} (hends : ends.Perm ends') :
    Rests name prompt naps ends' b :=
  { h with
    count := h.count.trans hends.length_eq
    times := fun hp => (h.times hp).trans hends }

lemma weaken (h : Rests name prompt naps ends b) {prompt' : Prop} (hprompt : prompt' → prompt) :
    Rests name prompt' naps ends b :=
  { h with times := fun hp => h.times (hprompt hp) }

lemma exists_station (h : Rests name prompt naps ends b) {x : Nap} (hx : x ∈ naps) :
    ∃ s, b.stations[x.owner]? = some s := by
  cases hs : b.stations[x.owner]? with
  | some s => exact ⟨s, rfl⟩
  | none =>
    have hnone := h.sleepers x.owner
    have hmem : x.sleeper ∈ (naps.filter (·.owner = x.owner)).map (·.sleeper) :=
      List.mem_map_of_mem (List.mem_filter.mpr ⟨hx, by simp⟩)
    rw [← hnone, sleepersOf, hs] at hmem
    simp at hmem

/-! ### Aborts -/

lemma sleepers_eq (h : Rests name prompt naps ends b) (hs : b.stations[owner]? = some s) :
    s.sleepers = (naps.filter (·.owner = owner)).map (·.sleeper) := by
  rw [← h.sleepers, sleepersOf, hs]
  rfl

lemma isAborted_eq (hs : b.stations[owner]? = some s) :
    b.isAborted owner = s.coordinator.isAborted := by
  rw [isAborted, hs]
  rfl

/-- The sleeps that the abort of a coordinator ends are its own. -/
lemma isSleepOf_iff (h : Rests name prompt naps ends b) (hs : b.stations[owner]? = some s) {x : Nap}
    (hx : x ∈ naps) : x.timer.wake.isSleepOf s.sleepers = true ↔ x.owner = owner := by
  have hinj := List.inj_on_of_nodup_map (h.increasing.imp Nat.ne_of_lt)
  simp only [Nap.timer, Alarm.isSleepOf, h.sleepers_eq hs, List.any_map, List.any_eq_true,
    List.mem_filter, Function.comp, beq_iff_eq, decide_eq_true_eq]
  constructor
  · rintro ⟨y, ⟨hy, howner⟩, hticket⟩
    rwa [← hinj hy hx hticket]
  · exact fun howner => ⟨x, ⟨hx, howner⟩, rfl⟩

/-- A coordinator is aborted, and its sleeps end. -/
lemma abort (h : Rests name prompt naps ends b) (hs : b.stations[owner]? = some s)
    {f : Station → Station} {k : Journal} {ts : Timers Alarm}
    (hk : Quiet name b { b with journal := k })
    (hf : (f s).sleepers = [] ∧ (f s).coordinator.isAborted = true ∧
      (f s).coordinator.latch.waiting = s.coordinator.latch.waiting)
    (hts : ts.filter (·.wake.isSleep) =
      b.sleepTimers.filter fun t => !t.wake.isSleepOf s.sleepers) :
    let b' := { b with
      journal := k
      stations := b.stations.modify owner f
      timers := ts
      queue := b.queue ++ s.sleepers.map fun s => .report s.name }
    (∀ n, b'.isAborted n = (b.isAborted n || decide (n = owner))) ∧
      Rests name prompt (naps.filter fun x => !decide (x.owner = owner))
        (List.replicate (naps.countP fun x => x.sleeper.name = name ∧ x.owner = owner)
          b.journal.now ++ ends) b' := by
  intro b'
  have hlookup : ∀ n, b'.stations[n]? = if owner = n then some (f s) else b.stations[n]? :=
    getElem?_update hs f
  have haborted : ∀ n, b'.isAborted n = (b.isAborted n || decide (n = owner)) := by
    intro n
    rw [isAborted, hlookup]
    split
    · next hn => simp [hn, hf.2.1]
    · next hn => simp [Ne.symm hn, isAborted]
  have hnames : (s.sleepers.map fun s => Reaction.report s.name).count (.report name) =
      naps.countP fun x => x.sleeper.name = name ∧ x.owner = owner := by
    rw [h.sleepers_eq hs, List.map_map, List.count, List.countP_map, List.countP_filter]
    refine List.countP_congr fun x _ => ?_
    simp
  have htimes : k.times (Event.isSettledAs name) = b.journal.times (Event.isSettledAs name) := by
    have hsame := hk.reports h.free
    rw [reports, reports, hk.now] at hsame
    exact List.append_cancel_left hsame
  have hreports : b'.reports name = List.replicate (naps.countP fun x =>
      x.sleeper.name = name ∧ x.owner = owner) b.journal.now ++ b.reports name := by
    rw [reports, reports, ← List.append_assoc, List.replicate_append_replicate, ← hnames,
      Nat.add_comm, ← List.count_append, ← htimes, ← hk.now]
  refine ⟨haborted, ?_⟩
  constructor
  case timers =>
    change ts.filter (·.wake.isSleep) = _
    rw [hts, h.timers, List.filter_map]
    refine congrArg _ (List.filter_congr fun x hx => congrArg (!·) ?_)
    rw [Bool.eq_iff_iff, h.isSleepOf_iff hs hx, decide_eq_true_eq]
  case sleepers =>
    intro n
    rw [sleepersOf, hlookup, List.filter_filter]
    split
    · next hn =>
      subst hn
      have hnone : (naps.filter fun x =>
          decide (x.owner = owner) && !decide (x.owner = owner)) = [] := by
        simp
      rw [hnone]
      exact hf.1
    · next hn =>
      refine (h.sleepers n).trans (congrArg _ (List.filter_congr fun x _ => ?_))
      by_cases hx : x.owner = n
      · simp [hx, Ne.symm hn]
      · simp [hx]
  case awake =>
    intro x hx
    obtain ⟨hx, hother⟩ := List.mem_filter.mp hx
    rw [haborted, h.awake x hx]
    simpa using hother
  case increasing =>
    exact h.increasing.sublist (List.filter_sublist.map _)
  case fresh =>
    exact fun x hx => h.fresh x (List.mem_filter.mp hx).1
  case fulfils =>
    exact hk.fulfils h.fulfils
  case free =>
    refine h.free.update fun s' hs' => ?_
    obtain rfl := Option.some.inj (hs.symm.trans hs')
    exact fun hwaiting => hf.2.2 ▸ hwaiting
  case count =>
    rw [hreports, List.length_append, List.length_append, h.count]
  case times =>
    exact fun hp => hreports ▸ (h.times hp).append_left _

/-- No time passes from `b` to `b'`, and those sleeps have ended whose coordinators are aborted. -/
def Wakes (name : String) (prompt : Prop) (naps : List Nap) (ends : List Nat)
    (b b' : Switchboard) : Prop :=
  b'.journal.now = b.journal.now ∧ (∀ n, b.isAborted n = true → b'.isAborted n = true) ∧
    Rests name prompt (naps.filter fun x => !b'.isAborted x.owner)
      (List.replicate (naps.countP fun x => x.sleeper.name = name ∧ b'.isAborted x.owner)
        b.journal.now ++ ends) b'

lemma wakes_of_quiet (h : Rests name prompt naps ends b) (hb : Quiet name b b') :
    Wakes name prompt naps ends b b' := by
  have hawake : ∀ x ∈ naps, b'.isAborted x.owner = false := fun x hx =>
    (hb.isAborted x.owner).trans (h.awake x hx)
  have hall : (naps.filter fun x => !b'.isAborted x.owner) = naps :=
    List.filter_eq_self.mpr fun x hx => by rw [hawake x hx]; rfl
  have hnone : (naps.countP fun x => x.sleeper.name = name ∧ b'.isAborted x.owner) = 0 :=
    List.countP_eq_zero.mpr fun x hx => by simp [hawake x hx]
  refine ⟨hb.now, fun n hn => (hb.isAborted n).trans hn, ?_⟩
  rw [hall, hnone]
  exact h.quiet hb

lemma wakes_of_abort (h : Rests name prompt naps ends b)
    (hnow : b'.journal.now = b.journal.now)
    (haborted : ∀ n, b'.isAborted n = (b.isAborted n || decide (n = owner)))
    (hb : Rests name prompt (naps.filter fun x => !decide (x.owner = owner))
      (List.replicate (naps.countP fun x => x.sleeper.name = name ∧ x.owner = owner)
        b.journal.now ++ ends) b') : Wakes name prompt naps ends b b' := by
  have hown : ∀ x ∈ naps, b'.isAborted x.owner = decide (x.owner = owner) := fun x hx => by
    rw [haborted, h.awake x hx, Bool.false_or]
  refine ⟨hnow, fun n hn => by rw [haborted, hn, Bool.true_or], ?_⟩
  rw [List.filter_congr fun x hx => congrArg (!·) (hown x hx),
    List.countP_congr fun x hx => by rw [hown x hx]]
  simpa using hb

/-- What a request does to the sleeps on a board. -/
lemma request (h : Rests name prompt naps ends b) (owner : Nat) (reason : String) :
    Wakes name prompt naps ends b (b.request owner reason) := by
  unfold Switchboard.request
  split
  · exact h.wakes_of_quiet (.refl name b)
  · next s hs =>
    obtain ⟨k, hk, hcases⟩ := Coordinator.exec_request_cases (P := (·.isLine = true))
      (fun _ _ => rfl) s.coordinator reason b.journal
    have hlines : Quiet name b { b with journal := k } := .lines hk
    rcases hcases with ⟨e, hact⟩ | ⟨-, hact⟩ | ⟨-, hact⟩
    · simp only [perform, hact]
      exact h.wakes_of_quiet { hlines with }
    · simp only [perform, hact]
      exact h.wakes_of_quiet hlines
    · simp only [perform, hact, wakeAll, update, List.modify_modify_eq]
      have htold : Quiet name b { b with journal := k.add (.abort s.coordinator.id) } :=
        hlines.trans (.add (e := .abort s.coordinator.id) rfl trivial)
      have hcancelled : (b.timers.cancel (Alarm.isSleepOf s.sleepers)).filter (·.wake.isSleep) =
          b.sleepTimers.filter fun t => !t.wake.isSleepOf s.sleepers := by
        rw [Timers.cancel, sleepTimers, List.filter_filter, List.filter_filter]
        exact List.filter_congr fun t _ => Bool.and_comm _ _
      have hstarted : ∀ time, ((b.timers.cancel (Alarm.isSleepOf s.sleepers)).add time
          (.grace owner)).filter (·.wake.isSleep) =
            b.sleepTimers.filter fun t => !t.wake.isSleepOf s.sleepers := fun time => by
        rw [Timers.add, List.filter_append, hcancelled]
        exact List.append_nil _
      have habort := fun (ts : Timers Alarm) (hts : ts.filter (·.wake.isSleep) =
          b.sleepTimers.filter fun t => !t.wake.isSleepOf s.sleepers) =>
        h.abort hs (f := fun s' =>
          { s' with coordinator := { s.coordinator with reason := some reason }, sleepers := [] })
          htold ⟨rfl, rfl, rfl⟩ hts
      split
      · obtain ⟨haborted, hrests⟩ := habort _ hcancelled
        exact h.wakes_of_abort hk.now haborted hrests
      · obtain ⟨haborted, hrests⟩ := habort _ (hstarted _)
        exact h.wakes_of_abort hk.now haborted hrests

/-- Of two steps the second one ends what the first has not. -/
lemma Wakes.trans (h : Wakes name prompt naps ends b b')
    (h' : ∀ {naps' ends'}, Rests name prompt naps' ends' b' →
      Wakes name prompt naps' ends' b' b'') : Wakes name prompt naps ends b b'' := by
  obtain ⟨hnow, hmono, hrests⟩ := h
  obtain ⟨hnow', hmono', hrests'⟩ := h' hrests
  have hkept : (naps.filter fun x => !b'.isAborted x.owner).filter
      (fun x => !b''.isAborted x.owner) = naps.filter fun x => !b''.isAborted x.owner := by
    rw [List.filter_filter]
    refine List.filter_congr fun x _ => ?_
    cases hx : b'.isAborted x.owner with
    | false => simp
    | true => simp [hmono' _ hx]
  have hcount := List.countP_eq_countP_filter_add naps
    (fun x => x.sleeper.name = name ∧ b''.isAborted x.owner) fun x => !b'.isAborted x.owner
  have hfirst : (naps.filter fun x => !!b'.isAborted x.owner).countP
      (fun x => x.sleeper.name = name ∧ b''.isAborted x.owner) =
        naps.countP fun x => x.sleeper.name = name ∧ b'.isAborted x.owner := by
    rw [List.countP_filter]
    refine List.countP_congr fun x _ => ?_
    cases hx : b'.isAborted x.owner with
    | false => simp
    | true => simp [hmono' _ hx]
  refine ⟨hnow'.trans hnow, fun n hn => hmono' n (hmono n hn), ?_⟩
  rw [hcount, hfirst, ← List.replicate_append_replicate, List.append_assoc, ← hkept, ← hnow]
  exact hnow ▸ hrests'

/-- What a signal does to the sleeps on a board. -/
lemma deliver (h : Rests name prompt naps ends b) (source : Source) (signal : String) :
    Wakes name prompt naps ends b (b.deliver source signal) := by
  unfold Switchboard.deliver
  generalize b.hearers source signal = owners
  induction owners generalizing b naps ends with
  | nil => exact h.wakes_of_quiet (.refl name b)
  | cons owner owners ih =>
    rw [List.foldl_cons]
    refine Wakes.trans ?_ ih
    split
    · exact h.wakes_of_quiet (.refl name b)
    · exact h.request owner signal

/-! ### Sleeps -/

/-- A sleep that begins after the abort is over at once. -/
lemma sleep_of_aborted (h : Rests name prompt naps ends b) (hs : b.stations[owner]? = some s)
    (ha : s.coordinator.isAborted = true) (other : String) (ms : Number) :
    Rests name prompt naps (if other = name then b.journal.now :: ends else ends)
      (b.sleep owner other ms) := by
  simp only [sleep, hs, ha, if_true]
  by_cases hname : other = name
  · subst hname
    have hreports : (b.enqueue [.report other]).reports other =
        b.journal.now :: b.reports other := by
      simp [reports, enqueue, List.replicate_succ]
    rw [if_pos rfl]
    exact { h with
      count := by rw [hreports, List.length_cons, List.length_cons, h.count]
      times := fun hp => hreports ▸ (h.times hp).cons _ }
  · rw [if_neg hname]
    exact h.quiet (.enqueue fun _ => by simpa using Ne.symm hname)

/-- Else it adds a nap. -/
lemma sleep_of_not_aborted (h : Rests name prompt naps ends b) (hs : b.stations[owner]? = some s)
    (ha : s.coordinator.isAborted = false) (other : String) (ms : Number) :
    Rests name prompt (naps ++ [⟨owner, ⟨b.tickets, other⟩, b.journal.now, ms⟩]) ends
      (b.sleep owner other ms) := by
  have hdone : b.sleep owner other ms = { b with
      stations := b.stations.modify owner fun s =>
        { s with sleepers := s.sleepers ++ [⟨b.tickets, other⟩] }
      tickets := b.tickets + 1
      timers := b.timers.start b.journal.now ms (.sleep owner ⟨b.tickets, other⟩) } := by
    simp only [sleep, hs, ha]
    rfl
  have hlookup : ∀ n, (b.sleep owner other ms).stations[n]? = if owner = n then
      some { s with sleepers := s.sleepers ++ [⟨b.tickets, other⟩] } else b.stations[n]? := by
    rw [hdone]
    exact getElem?_update hs _
  constructor
  case timers =>
    rw [List.map_append, ← h.timers, hdone]
    exact List.filter_append _ _
  case sleepers =>
    intro n
    rw [sleepersOf, hlookup, List.filter_append, List.map_append, ← h.sleepers]
    split
    · next hn => simp [← hn, sleepersOf, hs]
    · next hn => simp [hn, sleepersOf]
  case awake =>
    intro x hx
    rw [isAborted_sleep]
    obtain hx | hx := List.mem_append.mp hx
    · exact h.awake x hx
    · rw [List.mem_singleton.mp hx, isAborted_eq hs, ha]
  case increasing =>
    rw [List.map_append, List.pairwise_append]
    refine ⟨h.increasing, List.pairwise_singleton _ _, ?_⟩
    intro m hm m' hm'
    obtain ⟨x, hx, rfl⟩ := List.mem_map.mp hm
    obtain rfl := List.mem_singleton.mp hm'
    exact h.fresh x hx
  case fresh =>
    intro x hx
    rw [hdone]
    obtain hx | hx := List.mem_append.mp hx
    · exact Nat.lt_succ_of_lt (h.fresh x hx)
    · rw [List.mem_singleton.mp hx]
      exact Nat.lt_succ_self _
  case fulfils =>
    rw [hdone]
    exact h.fulfils
  case free =>
    rw [hdone]
    exact h.free.update fun _ _ => id
  case count =>
    rw [hdone]
    exact h.count
  case times =>
    rw [hdone]
    exact h.times

/-! ### Time -/

/-- The clock moves. What is queued then is reported at another time. -/
lemma moveTo (h : Rests name prompt naps ends b) (hprompt : prompt → b.queue = []) (time : Nat) :
    Rests name prompt naps ends (b.moveTo time) :=
  { h with
    count := by
      have hcount := h.count
      rw [length_reports] at hcount ⊢
      exact hcount
    times := fun hp => by
      have htimes := h.times hp
      rw [reports, hprompt hp] at htimes
      rw [reports, Switchboard.moveTo, hprompt hp]
      exact htimes }

/-- The board after the timer of a sleep has fired. -/
lemma fire_eq {x : Nap} {rest : Timers Alarm} (hnext : b.timers.next? = some (x.timer, rest)) :
    b.fire = { b with
      timers := rest
      journal := { b.journal with now := x.due }
      stations := b.stations.modify x.owner fun s =>
        { s with sleepers := s.sleepers.erase x.sleeper }
      queue := b.queue ++ [.report x.sleeper.name] } := by
  rw [fire, hnext]
  rfl

/-- Its end is to be reported then. -/
lemma reports_fire {x : Nap} {rest : Timers Alarm}
    (hnext : b.timers.next? = some (x.timer, rest)) : b.fire.reports name = List.replicate
      (b.queue.count (.report name) + if x.sleeper.name = name then 1 else 0) x.due ++
        b.journal.times (Event.isSettledAs name) := by
  have hcount : (b.queue ++ [Reaction.report x.sleeper.name]).count (.report name) =
      b.queue.count (.report name) + if x.sleeper.name = name then 1 else 0 := by
    simp [List.count_append, List.count_singleton]
  rw [fire_eq hnext, ← hcount]
  rfl

/-- No earlier sleep has the ticket of another. -/
lemma sleeper_ne {before after : List Nap} {x : Nap}
    (h : Rests name prompt (before ++ x :: after) ends b) :
    ∀ y ∈ before, y.sleeper ≠ x.sleeper := by
  intro y hy hsame
  have hincreasing := h.increasing
  rw [List.map_append, List.pairwise_append] at hincreasing
  have hlt := hincreasing.2.2 _ (List.mem_map_of_mem hy) x.sleeper.ticket (by simp)
  rw [hsame] at hlt
  exact Nat.lt_irrefl _ hlt

/-- The timer of a sleep fires, and the sleep is over. -/
lemma fire_sleep (h : Rests name prompt naps ends b) (hprompt : prompt → b.queue = [])
    {t : Timer Alarm} {rest : Timers Alarm} (hnext : b.timers.next? = some (t, rest))
    (hsleep : t.wake.isSleep = true) : ∃ before x after, naps = before ++ x :: after ∧ t = x.timer ∧
      Rests name prompt (before ++ after)
        (if x.sleeper.name = name then x.due :: ends else ends) b.fire ∧
          ∀ n, b.fire.isAborted n = b.isAborted n := by
  obtain ⟨first, last, htimers, rfl⟩ := Timers.split_of_next? hnext
  have hsplit := h.timers
  rw [sleepTimers, htimers, List.filter_append, List.filter_cons, if_pos hsleep] at hsplit
  obtain ⟨before, more, rfl, hbefore, hmore⟩ := List.map_eq_append_iff.mp hsplit.symm
  obtain ⟨x, after, rfl, rfl, hafter⟩ := List.map_eq_cons_iff.mp hmore
  refine ⟨before, x, after, rfl, rfl, ?_⟩
  have hmem : x ∈ before ++ x :: after := by simp
  obtain ⟨s, hs⟩ := h.exists_station hmem
  have hfire := fire_eq hnext
  have hlookup : ∀ n, b.fire.stations[n]? = if x.owner = n then
      some { s with sleepers := s.sleepers.erase x.sleeper } else b.stations[n]? := by
    rw [hfire]
    exact getElem?_update hs _
  have hsub : List.Sublist (before ++ after) (before ++ x :: after) :=
    (List.Sublist.refl before).append (List.sublist_cons_self x after)
  have haborted : ∀ n, b.fire.isAborted n = b.isAborted n := by
    rw [hfire]
    exact isAborted_update (b := b)
      (f := fun s => { s with sleepers := s.sleepers.erase x.sleeper }) fun _ _ => rfl
  refine ⟨?_, haborted⟩
  constructor
  case timers =>
    rw [hfire, List.map_append, hbefore, hafter]
    exact List.filter_append _ _
  case sleepers =>
    intro n
    rw [sleepersOf, hlookup]
    split
    · next hn =>
      have hnot : x.sleeper ∉ (before.filter (·.owner = n)).map (·.sleeper) := by
        intro hx
        obtain ⟨y, hy, hsame⟩ := List.mem_map.mp hx
        exact h.sleeper_ne y (List.mem_filter.mp hy).1 hsame
      have hsleepers := h.sleepers_eq hs
      rw [hn, List.filter_append, List.filter_cons, if_pos (by simpa using hn), List.map_append,
        List.map_cons] at hsleepers
      rw [List.filter_append, List.map_append]
      change s.sleepers.erase x.sleeper = _
      rw [hsleepers, List.erase_append_right _ hnot, List.erase_cons_head]
    · next hn =>
      have hsleepers := h.sleepers n
      rw [List.filter_append, List.filter_cons, if_neg (by simpa using hn)] at hsleepers
      rw [List.filter_append]
      exact hsleepers
  case awake =>
    intro y hy
    rw [haborted]
    exact h.awake y (hsub.subset hy)
  case increasing =>
    exact h.increasing.sublist (hsub.map _)
  case fresh =>
    intro y hy
    rw [hfire]
    exact h.fresh y (hsub.subset hy)
  case fulfils =>
    rw [hfire]
    exact h.fulfils
  case free =>
    rw [hfire]
    exact h.free.update fun _ _ => id
  case count =>
    have hcount := h.count
    rw [reports, List.length_append, List.length_replicate] at hcount
    rw [reports_fire hnext, List.length_append, List.length_replicate]
    split
    · rw [List.length_cons]
      omega
    · omega
  case times =>
    intro hp
    have htimes := h.times hp
    rw [reports, hprompt hp] at htimes
    rw [reports_fire hnext, hprompt hp]
    split
    · exact htimes.cons _
    · exact htimes

/-- The timer of a grace period fires. -/
lemma fire_grace (h : Rests name prompt naps ends b) (hprompt : prompt → b.queue = [])
    {t : Timer Alarm} {rest : Timers Alarm} (hnext : b.timers.next? = some (t, rest))
    (hgrace : t.wake.isSleep = false) :
    Rests name prompt naps ends b.fire ∧ ∀ n, b.fire.isAborted n = b.isAborted n := by
  obtain ⟨first, last, htimers, rfl⟩ := Timers.split_of_next? hnext
  have htaken : Quiet name b { b with timers := first ++ last } := .timers (by
    rw [htimers, List.filter_append, List.filter_append,
      List.filter_cons_of_neg (by simpa using hgrace)])
  obtain ⟨due, wake⟩ := t
  cases wake with
  | sleep => exact Bool.noConfusion hgrace
  | grace owner =>
    have hfire : b.fire = ({ b with timers := first ++ last }.moveTo due).wake (.grace owner) := by
      rw [fire, hnext]
    have hwoken : Quiet name ({ b with timers := first ++ last }.moveTo due) b.fire := by
      rw [hfire]
      exact .wake_grace _ owner
    exact ⟨((h.quiet htaken).moveTo hprompt due).quiet hwoken, hwoken.isAborted⟩

/-- Where no timer is due the clock just moves. -/
lemma pass_idle (h : Rests name prompt naps ends b) (hprompt : prompt → b.queue = []) {time : Nat}
    (hlate : ∀ t ∈ b.timers, time < t.due) :
    Rests name prompt (naps.filter (time < ·.due))
      ((naps.filter fun x => x.sleeper.name = name ∧ x.due ≤ time).map Nap.due ++ ends)
        (b.moveTo time) := by
  have hdue : ∀ x ∈ naps, time < x.due := by
    intro x hx
    have hmem : x.timer ∈ b.sleepTimers := h.timers ▸ List.mem_map_of_mem hx
    exact hlate _ (List.mem_filter.mp hmem).1
  have hall : naps.filter (time < ·.due) = naps :=
    List.filter_eq_self.mpr fun x hx => by simpa using hdue x hx
  have hnone : (naps.filter fun x => x.sleeper.name = name ∧ x.due ≤ time) = [] :=
    List.filter_eq_nil_iff.mpr fun x hx => by simp [hdue x hx]
  rw [hall, hnone]
  exact h.moveTo hprompt time

/-- What firing a timer that is due does to the sleeps that end by a time, and to the others. -/
lemma fire (h : Rests name prompt naps ends b) (hprompt : prompt → b.queue = []) {time : Nat}
    {t : Timer Alarm} {rest : Timers Alarm} (hnext : b.timers.next? = some (t, rest))
    (hle : t.due ≤ time) : (∀ n, b.fire.isAborted n = b.isAborted n) ∧ ∃ naps' ends',
      Rests name prompt naps' ends' b.fire ∧
        naps'.filter (time < ·.due) = naps.filter (time < ·.due) ∧
        ((naps'.filter fun x => x.sleeper.name = name ∧ x.due ≤ time).map Nap.due ++ ends').Perm
          ((naps.filter fun x => x.sleeper.name = name ∧ x.due ≤ time).map Nap.due ++ ends) := by
  cases hsleep : t.wake.isSleep with
  | false =>
    obtain ⟨hrests, haborted⟩ := h.fire_grace hprompt hnext hsleep
    exact ⟨haborted, naps, ends, hrests, rfl, .refl _⟩
  | true =>
    obtain ⟨before, x, after, rfl, rfl, hrests, haborted⟩ := h.fire_sleep hprompt hnext hsleep
    have hx : x.due ≤ time := hle
    refine ⟨haborted, _, _, hrests, ?_, ?_⟩
    · simp [hx]
    · by_cases hname : x.sleeper.name = name
      · simp only [List.filter_append, List.filter_cons, hname, hx, and_self, decide_true, if_true,
          List.map_append, List.map_cons, List.append_assoc, List.cons_append]
        exact List.perm_middle.append_left _
      · simp [hname]

/-- Every sleep that is due on the way ends, and no other. -/
lemma advanceTo (flush : Bool) (time : Nat) {fuel : Nat} (h : Rests name prompt naps ends b)
    (hprompt : prompt → flush = true ∧ b.queue = []) (hfuel : b.timers.length ≤ fuel) :
    let b' := (clockwork flush).advanceTo time fuel b
    b'.journal.now = time ∧ (∀ n, b'.isAborted n = b.isAborted n) ∧
      Rests name prompt (naps.filter (time < ·.due))
        ((naps.filter fun x => x.sleeper.name = name ∧ x.due ≤ time).map Nap.due ++ ends) b' := by
  have hqueue : prompt → b.queue = [] := fun hp => (hprompt hp).2
  induction fuel generalizing b naps ends with
  | zero =>
    have hnil : b.timers = [] := List.length_eq_zero_iff.mp (Nat.le_zero.mp hfuel)
    exact ⟨rfl, fun _ => rfl, h.pass_idle hqueue (by simp [hnil])⟩
  | succ fuel ih =>
    have hdue : (clockwork flush).nextDue b = b.timers.next?.map (·.1.due) := rfl
    rw [Clockwork.advanceTo, hdue]
    cases hnext : b.timers.next? with
    | none =>
      exact ⟨rfl, fun _ => rfl, h.pass_idle hqueue (by simp [Timers.next?_eq_none.mp hnext])⟩
    | some next =>
      obtain ⟨t, rest⟩ := next
      obtain ⟨-, hfirst, hlength⟩ := Timers.next?_eq_some hnext
      simp only [Option.map_some]
      split
      · next hle =>
        obtain ⟨haborted, naps', ends', hfired, hnaps, hends⟩ := h.fire hqueue hnext hle
        have hrest : b.fire.timers.length ≤ fuel := by
          rw [timers_fire hnext]
          omega
        cases flush with
        | false =>
          have hnever : prompt → False := fun hp => Bool.noConfusion (hprompt hp).1
          obtain ⟨hnow, hsame, hrests⟩ := ih hfired (fun hp => (hnever hp).elim) hrest
            fun hp => (hnever hp).elim
          rw [hnaps] at hrests
          exact ⟨hnow, fun n => (hsame n).trans (haborted n), hrests.perm hends⟩
        | true =>
          have hquiet : Quiet name b.fire b.fire.drain := quiet_drain b.fire
          obtain ⟨hnow, hsame, hrests⟩ := ih (hfired.quiet hquiet)
            (fun _ => ⟨rfl, queue_drain b.fire⟩)
            (Nat.le_trans b.fire.length_timers_drain hrest) fun _ => queue_drain b.fire
          rw [hnaps] at hrests
          exact ⟨hnow, fun n => (hsame n).trans ((hquiet.isAborted n).trans (haborted n)),
            hrests.perm hends⟩
      · next hlt =>
        exact ⟨rfl, fun _ => rfl, h.pass_idle hqueue fun u hu =>
          Nat.lt_of_lt_of_le (Nat.not_le.mp hlt) (hfirst u hu)⟩

lemma advance (h : Rests name prompt naps ends b) (flush : Bool) (hprompt : prompt → flush = true)
    (ms : Nat) :
    let time := b.journal.now + ms
    let b' := b.advance flush ms
    b'.journal.now = time ∧ (∀ n, b'.isAborted n = b.isAborted n) ∧
      Rests name prompt (naps.filter (time < ·.due))
        ((naps.filter fun x => x.sleeper.name = name ∧ x.due ≤ time).map Nap.due ++ ends) b' := by
  cases flush with
  | false =>
    exact h.advanceTo false _ (fun hp => Bool.noConfusion (hprompt hp)) (Nat.le_refl _)
  | true =>
    have hquiet : Quiet name b b.drain := quiet_drain b
    obtain ⟨hnow, hsame, hrests⟩ := (h.quiet hquiet).advanceTo true
      (b.journal.now + ms) (fun _ => ⟨rfl, queue_drain b⟩) (Nat.le_refl _)
    intro time b'
    have hadvance : b' = (clockwork true).advanceTo time b.drain.timers.length b.drain := by
      simp only [b', Switchboard.advance, if_true, hquiet.now]
      rfl
    rw [hadvance]
    exact ⟨hnow, fun n => (hsame n).trans (hquiet.isAborted n), hrests⟩

end Rests

end Switchboard

end EdgeCaller

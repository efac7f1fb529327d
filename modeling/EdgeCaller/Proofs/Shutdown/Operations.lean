import EdgeCaller.Proofs.Shutdown.Shares
/-!
What the operations on a board come to for one coordinator.

There is one lemma for each operation. It says that the board stays orderly, and that the share of
the coordinator that a name stands for is what the same operation makes of it, if the operation is
one on this coordinator, and else what it was.
-/

namespace EdgeCaller

namespace Switchboard

variable {b : Switchboard} {epoch : Int} {id : String} {owner : Nat} {s : Station}

namespace Orderly

/-! ### Requests -/

/-- The board after the first request to a coordinator, but for the line that tells of it. -/
lemma request_eq (h : b.Orderly epoch) (hd : Dated epoch b.journal.now)
    (hs : b.stations[owner]? = some s) (ha : s.coordinator.isAborted = false) (reason : String) :
    ∃ k, b.journal.Extends (·.isLine = true) k ∧ b.request owner reason = { b with
      journal := k.add (.abort s.coordinator.id)
      stations := b.stations.modify owner fun s' =>
        { s' with coordinator := { s.coordinator with reason := some reason }, sleepers := [] }
      timers :=
        if s.coordinator.latch.isSet then b.timers.cancel (Alarm.isSleepOf s.sleepers)
        else (b.timers.cancel (Alarm.isSleepOf s.sleepers)).add
          (b.journal.now + Timers.effectiveDelay s.coordinator.gracePeriod) (.grace owner)
      queue := b.queue ++ s.sleepers.map fun s => .report s.name } := by
  obtain ⟨k, hk, hexec⟩ := Coordinator.exec_request ha (h.undisturbed hd) reason
  have hnow : (k.add (.abort s.coordinator.id)).now = b.journal.now := hk.now
  refine ⟨k, hk, ?_⟩
  simp only [Switchboard.request, hs, perform, hexec, wakeAll, update, List.modify_modify_eq]
  split
  · rfl
  · rw [← hnow]
    rfl

/-- The first request. -/
lemma request_first (h : b.Orderly epoch) (hd : Dated epoch b.journal.now) (hsole : b.Sole id)
    (hs : b.stations[owner]? = some s) (ha : s.coordinator.isAborted = false) (reason : String) :
    Orderly epoch (b.request owner reason) ∧ (b.request owner reason).share id =
      if b.owner? id = some owner then (b.share id).ask id reason else b.share id := by
  have hnil := h.gracesOf_eq_nil hs ha
  have hnone : s.coordinator.reason = none := by
    rwa [Coordinator.isAborted, Option.isSome_eq_false_iff, Option.isNone_iff_eq_none] at ha
  obtain ⟨k, hk, hrequest⟩ := h.request_eq hd hs ha reason
  -- The timer of the grace period starts, unless the latch was set before.
  have hgraces : ∀ n, (b.request owner reason).timers.gracesOf n =
      if owner = n ∧ s.coordinator.latch.isSet = false then
        [⟨b.journal.now + Timers.effectiveDelay s.coordinator.gracePeriod, .grace owner⟩]
      else b.timers.gracesOf n := by
    intro n
    rw [hrequest]
    cases hset : s.coordinator.latch.isSet with
    | true => simp
    | false =>
      by_cases hn : owner = n
      · subst hn
        simp [Timers.gracesOf_add, Alarm.isGraceOf, hnil]
      · simp [Timers.gracesOf_add, Alarm.isGraceOf, hn]
  rw [hrequest] at hgraces ⊢
  obtain ⟨horderly, hshare⟩ := h.alter hsole hs (f := fun s' =>
      { s' with coordinator := { s.coordinator with reason := some reason }, sleepers := [] })
    (e := .abort s.coordinator.id) (q := b.queue ++ s.sleepers.map fun s => .report s.name)
    hk (fun _ => rfl) rfl (fun n hn => by rw [hgraces, if_neg fun h => hn h.1])
    (by
      rw [hgraces]
      split
      · exact .inr ⟨rfl, _, rfl⟩
      · exact .inl hnil)
    (fun m hm => h.waiting owner s m hs hm) (fun m hm => .inl (by simpa using hm))
    fun hset => hset
  refine ⟨horderly, hshare.trans ?_⟩
  split
  · next howner =>
    obtain rfl := h.id_of_owner howner hs
    rw [share_eq howner hs, hgraces, hnil]
    cases hset : s.coordinator.latch.isSet <;> simp [Share.ask, Station.seat, hnone, hset]
  · rfl

lemma request (h : b.Orderly epoch) (hd : Dated epoch b.journal.now) (hsole : b.Sole id)
    (owner : Nat) (reason : String) : Orderly epoch (b.request owner reason) ∧
      (b.request owner reason).share id =
        if b.owner? id = some owner then (b.share id).ask id reason else b.share id := by
  cases hs : b.stations[owner]? with
  | none =>
    have hrequest : b.request owner reason = b := by simp only [Switchboard.request, hs]
    have hother : b.owner? id ≠ some owner := fun howner => by
      obtain ⟨s, hs', -⟩ := h.exists_station howner
      simp [hs] at hs'
    rw [hrequest, if_neg hother]
    exact ⟨h, rfl⟩
  | some s =>
    cases ha : s.coordinator.isAborted with
    | false => exact h.request_first hd hsole hs ha reason
    | true =>
      obtain ⟨k, hk, hexec⟩ := Coordinator.exec_request_again ha (h.undisturbed hd) reason
      have hrequest : b.request owner reason = { b with journal := k } := by
        simp only [Switchboard.request, hs, perform, hexec]
      have hsame : b.owner? id = some owner → (b.share id).ask id reason = b.share id := by
        intro howner
        rw [Coordinator.isAborted] at ha
        rw [share_eq howner hs]
        simp [Share.ask, Station.seat, ha]
      obtain ⟨horderly, hshare⟩ := h.line id hk
      rw [hrequest, hshare]
      refine ⟨horderly, ?_⟩
      split
      · next howner => exact (hsame howner).symm
      · rfl

/-! ### Signals -/

lemma hear (h : b.Orderly epoch) (hd : Dated epoch b.journal.now) (hsole : b.Sole id)
    (signal : String) (owners : List Nat) :
    let heard := owners.foldl
      (fun b owner => if b.escaped.isSome then b else b.request owner signal) b
    heard.Orderly epoch ∧ heard.share id =
      if ∃ owner ∈ owners, b.owner? id = some owner then (b.share id).ask id signal
      else b.share id := by
  induction owners generalizing b with
  | nil => exact ⟨h, by simp⟩
  | cons owner owners ih =>
    obtain ⟨horderly, hshare⟩ := h.request hd hsole owner signal
    have hstays := b.stays_request owner signal
    have hnow : (b.request owner signal).journal.now = b.journal.now := by
      have hclock := congrArg Share.clock hshare
      rwa [apply_ite Share.clock, Share.clock_ask, ite_self] at hclock
    have howner : (b.request owner signal).owner? id = b.owner? id := by
      rw [owner?, hstays.names]
      rfl
    obtain ⟨hheard, hrest⟩ := ih horderly (hnow ▸ hd) (hsole.stays hstays)
    rw [List.foldl_cons, h.escaped]
    refine ⟨hheard, hrest.trans ?_⟩
    rw [howner, hshare]
    by_cases hfirst : b.owner? id = some owner
    · simp [hfirst, Share.ask_ask]
    · simp [hfirst]

lemma mem_hearers {source : Source} {signal : String} {n : Nat} :
    n ∈ b.hearers source signal ↔ ∃ s, b.stations[n]? = some s ∧ s.source = source ∧
      s.coordinator.listening = true ∧ signal ∈ s.coordinator.signals := by
  simp only [hearers, List.mem_flatMap, List.mem_zipIdx_iff_getElem?, Prod.exists]
  constructor
  · rintro ⟨s, n', hs, hn⟩
    split at hn
    · next hsource =>
      obtain ⟨hlisteners, rfl⟩ := List.mem_replicate.mp hn
      rw [Coordinator.listeners] at hlisteners
      split at hlisteners
      · next hl => exact ⟨s, hs, hsource, hl, List.count_pos_iff.mp (Nat.pos_of_ne_zero hlisteners)⟩
      · simp at hlisteners
    · simp at hn
  · rintro ⟨s, hs, hsource, hl, hmem⟩
    have hpos := List.count_pos_iff.mpr hmem
    refine ⟨s, n, hs, ?_⟩
    rw [if_pos hsource, Coordinator.listeners, if_pos hl]
    exact List.mem_replicate.mpr ⟨by omega, rfl⟩

lemma deliver (h : b.Orderly epoch) (hd : Dated epoch b.journal.now) (hsole : b.Sole id)
    (source : Source) (signal : String) : Orderly epoch (b.deliver source signal) ∧
      (b.deliver source signal).share id = (b.share id).hear id source signal := by
  obtain ⟨horderly, hshare⟩ := h.hear hd hsole signal (b.hearers source signal)
  refine ⟨horderly, hshare.trans ?_⟩
  cases howner : b.owner? id with
  | none => simp [Share.hear, Switchboard.share, howner]
  | some owner =>
    obtain ⟨s, hs, -⟩ := h.exists_station howner
    have hhears : (∃ owner' ∈ b.hearers source signal, some owner = some owner') ↔
        s.source = source ∧ s.coordinator.listening = true ∧ signal ∈ s.coordinator.signals := by
      simp [mem_hearers, hs]
    rw [if_congr hhears rfl rfl, share_eq howner hs]
    rfl

/-! ### The latch -/

lemma grace (h : b.Orderly epoch) (hs : b.stations[owner]? = some s) :
    b.timers.gracesOf owner = [] ∨
      s.coordinator.isAborted = true ∧ ∃ t, b.timers.gracesOf owner = [t] := by
  rcases h.graces owner with hnil | ⟨s', t, hs', ha, ht⟩
  · exact .inl hnil
  · obtain rfl := Option.some.inj (hs.symm.trans hs')
    exact .inr ⟨ha, t, ht⟩

lemma complete_of_isSet (hs : b.stations[owner]? = some s)
    (hset : s.coordinator.latch.isSet = true) : b.complete owner = b := by
  have hstations : b.stations.modify owner (fun s' =>
      { s' with coordinator := { s'.coordinator with latch := s.coordinator.latch } }) =
        b.stations := by
    refine List.ext_getElem? fun n => ?_
    rw [List.getElem?_modify]
    by_cases hn : owner = n
    · simp [← hn, hs]
    · simp [hn]
  have hlatch : s.coordinator.latch.set = (false, [], s.coordinator.latch) := by
    rw [Latch.set, if_pos hset]
  simp only [Switchboard.complete, hs, hlatch, update, hstations, enqueue, List.append_nil]
  rfl

lemma complete_of_unset (hs : b.stations[owner]? = some s)
    (hunset : s.coordinator.latch.isSet = false) : b.complete owner = { b with
      stations := b.stations.modify owner fun s' =>
        { s' with coordinator := { s'.coordinator with latch := ⟨true, []⟩ } }
      journal := b.journal.add (.completed s.coordinator.id)
      queue := b.queue ++ s.coordinator.latch.waiting } := by
  have hlatch : s.coordinator.latch.set = (true, s.coordinator.latch.waiting, ⟨true, []⟩) := by
    rw [Latch.set, if_neg (by simp [hunset])]
  simp only [Switchboard.complete, hs, hlatch]
  rfl

lemma complete (h : b.Orderly epoch) (hsole : b.Sole id)
    (hs : b.stations[owner]? = some s) : Orderly epoch (b.complete owner) ∧
      (b.complete owner).share id =
        if b.owner? id = some owner then (b.share id).complete id else b.share id := by
  cases hset : s.coordinator.latch.isSet with
  | true =>
    rw [complete_of_isSet hs hset]
    refine ⟨h, ?_⟩
    split
    · next howner => simp [share_eq howner hs, Share.complete, Station.seat, hset]
    · rfl
  | false =>
    have hgrace := h.grace hs
    rw [complete_of_unset hs hset]
    obtain ⟨horderly, hshare⟩ := h.alter hsole hs
      (f := fun s => { s with coordinator := { s.coordinator with latch := ⟨true, []⟩ } })
      (e := .completed s.coordinator.id) (.refl _ _) (fun _ => rfl) rfl (fun _ _ => rfl)
      hgrace (fun m hm => by simp at hm) (fun m hm => by
        rcases List.mem_append.mp hm with hm | hm
        · exact .inl hm
        · exact .inr ⟨h.waiting owner s m hs hm, rfl⟩) fun _ => rfl
    refine ⟨horderly, hshare.trans ?_⟩
    split
    · next howner =>
      obtain rfl := h.id_of_owner howner hs
      rw [share_eq howner hs]
      simp [Share.complete, Station.seat, hset]
    · rfl

/-- A waiter at the latch does not concern the share of its coordinator. -/
lemma watch (h : b.Orderly epoch) (hsole : b.Sole id) (hs : b.stations[owner]? = some s)
    (name : String) : Orderly epoch (b.watch owner name) ∧
      (b.watch owner name).share id = b.share id := by
  have halters : b.Alters owner s { s with coordinator :=
      { s.coordinator with latch := (s.coordinator.latch.wait (.report name)).2 } }
      (b.watch owner name) := by
    have hgrace := h.grace hs
    simp only [Switchboard.watch, hs]
    exact
      { station := hs
        id := rfl
        names := rfl
        fault := rfl
        epoch := rfl
        now := rfl
        escaped := rfl
        events := fun _ _ => rfl
        stations := getElem?_update hs _
        graces := fun _ _ => rfl
        grace := hgrace
        waiting := fun m hm => by
          rw [Latch.wait] at hm
          split at hm
          · exact h.waiting owner s m hs hm
          · exact h.waiting owner s m hs (by simpa using hm)
        queued := fun m hm => by
          refine .inl ?_
          simp only [enqueue, update, Latch.wait] at hm
          split at hm <;> simpa using hm
        isSet := fun hset => by rw [Latch.isSet_wait]; exact hset }
  refine ⟨halters.orderly h, (halters.share h hsole).trans ?_⟩
  split
  · next howner =>
    rw [share_eq howner hs]
    simp only [Switchboard.watch, hs, enqueue, update, Station.seat, Latch.isSet_wait]
  · rfl

/-- A sleep does not concern the share of the coordinator whose abort ends it. -/
lemma sleep (h : b.Orderly epoch) (id : String) (hs : b.stations[owner]? = some s) (name : String)
    (ms : Number) : Orderly epoch (b.sleep owner name ms) ∧
      (b.sleep owner name ms).share id = b.share id := by
  cases ha : s.coordinator.isAborted with
  | true =>
    have hsleep : b.sleep owner name ms = b.enqueue [.report name] := by
      simp only [Switchboard.sleep, hs, ha, if_true]
    rw [hsleep]
    exact h.reports id name
  | false =>
    have hsleep : b.sleep owner name ms = { b.update owner fun s =>
          { s with sleepers := s.sleepers ++ [⟨b.tickets, name⟩] } with
        tickets := b.tickets + 1
        timers := b.timers.start b.journal.now ms (.sleep owner ⟨b.tickets, name⟩) } := by
      simp only [Switchboard.sleep, hs, ha]
      rfl
    obtain ⟨hupdated, hsame⟩ := h.sleepers id owner
      (f := fun s => { s with sleepers := s.sleepers ++ [⟨b.tickets, name⟩] }) fun _ => ⟨rfl, rfl⟩
    obtain ⟨hstarted, hshare⟩ := hupdated.timers id
      (b.timers.start b.journal.now ms (.sleep owner ⟨b.tickets, name⟩)) fun n => by
        simp [Timers.start, Timers.gracesOf_add, Alarm.isGraceOf, update]
    rw [hsleep]
    exact ⟨{ hstarted with }, hshare.trans hsame⟩

/-! ### Disposal -/

lemma dispose (h : b.Orderly epoch) (hsole : b.Sole id) (hs : b.stations[owner]? = some s) :
    Orderly epoch (b.dispose owner) ∧ (b.dispose owner).share id =
      if b.owner? id = some owner then (b.share id).dispose id else b.share id := by
  have hdispose : b.dispose owner = { b with
      stations := b.stations.modify owner fun s => { s with coordinator := s.coordinator.detach }
      journal := b.journal.add (.detached s.coordinator.id)
      timers := b.timers.cancel (Alarm.isGraceOf owner) } := by
    simp only [Switchboard.dispose, hs]
    rfl
  have hnil : (b.timers.cancel (Alarm.isGraceOf owner)).gracesOf owner = [] := by
    rw [Timers.gracesOf_cancel, if_pos rfl]
  obtain ⟨horderly, hshare⟩ := h.alter hsole hs
    (f := fun s => { s with coordinator := s.coordinator.detach })
    (e := .detached s.coordinator.id) (.refl _ _) (fun _ => rfl) rfl
    (fun n hn => by rw [Timers.gracesOf_cancel, if_neg (Ne.symm hn)]) (.inl hnil)
    (fun m hm => h.waiting owner s m hs hm) (fun m hm => .inl hm) fun hset => hset
  rw [hdispose]
  refine ⟨horderly, hshare.trans ?_⟩
  split
  · next howner =>
    obtain rfl := h.id_of_owner howner hs
    rw [share_eq howner hs, hnil]
    cases hset : s.coordinator.latch.isSet <;>
      simp [Share.dispose, Station.seat, Coordinator.detach, hset]
  · rfl

/-! ### Arming -/

/-- A coordinator is armed beside those that are on the board. -/
lemma exists_arm (b : Switchboard) (id : String) (source : Source) (signals : List String)
    (gracePeriod : Number) : ∃ s : Station,
      (b.arm id source signals gracePeriod).stations = b.stations ++ [s] ∧
      s.coordinator.latch.waiting = [.stopGrace b.stations.length] ∧
      s.seat none = { source, signals, gracePeriod } :=
  ⟨_, rfl, rfl, rfl⟩

lemma getElem?_arm (other : String) (source : Source) (signals : List String)
    (gracePeriod : Number) {n : Nat} (hs : b.stations[n]? = some s) :
    (b.arm other source signals gracePeriod).stations[n]? = some s := by
  obtain ⟨fresh, hstations, -⟩ := exists_arm b other source signals gracePeriod
  rw [hstations, List.getElem?_append_left (List.getElem?_eq_some_iff.mp hs).1]
  exact hs

lemma arm (h : b.Orderly epoch) (other : String) (source : Source) (signals : List String)
    (gracePeriod : Number) : Orderly epoch (b.arm other source signals gracePeriod) := by
  obtain ⟨fresh, hstations, hwaiting, -⟩ := exists_arm b other source signals gracePeriod
  refine { h with
    named := h.named.arm other source signals gracePeriod
    graces := fun n => ?_
    waiting := fun n s m hs hm => ?_
    queued := fun m hm => ?_ }
  · rcases h.graces n with hnil | ⟨s, t, hs, ha, ht⟩
    · exact .inl hnil
    · exact .inr ⟨s, t, getElem?_arm other source signals gracePeriod hs, ha, ht⟩
  · by_cases hn : n < b.stations.length
    · rw [hstations, List.getElem?_append_left hn] at hs
      exact h.waiting n s m hs hm
    · rw [hstations, List.getElem?_append_right (Nat.le_of_not_lt hn),
        List.getElem?_singleton] at hs
      split at hs
      · next hzero =>
        obtain rfl := Option.some.inj hs
        rw [hwaiting, List.mem_singleton] at hm
        obtain rfl := Reaction.stopGrace.inj hm
        omega
      · simp at hs
  · obtain ⟨s, hs, hset⟩ := h.queued m hm
    exact ⟨s, getElem?_arm other source signals gracePeriod hs, hset⟩

lemma share_arm (h : b.Orderly epoch) (id other : String) (source : Source)
    (signals : List String) (gracePeriod : Number) :
    (b.arm other source signals gracePeriod).share id =
      if other = id then (b.share id).arm id source signals gracePeriod else b.share id := by
  obtain ⟨fresh, hstations, -, hseat⟩ := exists_arm b other source signals gracePeriod
  have howner := b.owner?_arm other id source signals gracePeriod
  have hevents : (b.arm other source signals gracePeriod).journal.eventsOf id =
      if other = id then ⟨b.journal.now, .armed other⟩ :: b.journal.eventsOf id
      else b.journal.eventsOf id := by
    simp only [Switchboard.arm, Journal.eventsOf_add, Event.isOf, decide_eq_true_eq]
  split
  · next hid =>
    subst hid
    have hlast : (b.arm other source signals gracePeriod).stations[b.stations.length]? =
        some fresh := by
      rw [hstations]
      simp
    have hnone : b.timers.gracesOf b.stations.length = [] := by
      rcases h.graces b.stations.length with hnil | ⟨s, -, hs, -⟩
      · exact hnil
      · simp at hs
    have htimers : (b.arm other source signals gracePeriod).timers = b.timers := rfl
    rw [if_pos rfl] at howner hevents
    rw [share_eq howner hlast, hevents, htimers, hnone]
    change (⟨b.journal.now, some (fresh.seat none), _⟩ : Share) = _
    rw [hseat]
    rfl
  · next hid =>
    rw [if_neg hid] at howner hevents
    refine share_congr rfl howner hevents fun n hn => ?_
    obtain ⟨s, hs, -⟩ := h.exists_station hn
    rw [seat, getElem?_arm other source signals gracePeriod hs, seat, hs]
    rfl

/-! ### What follows from a command -/

lemma react (h : b.Orderly epoch) (hsole : b.Sole id) {r : Reaction}
    (hr : ∀ m, r = .stopGrace m →
      ∃ s, b.stations[m]? = some s ∧ s.coordinator.latch.isSet = true) :
    Orderly epoch (b.react r) ∧ (b.react r).share id = b.share id := by
  cases r with
  | report name =>
    have hevents : (b.react (.report name)).journal.eventsOf id = b.journal.eventsOf id :=
      Journal.eventsOf_add id b.journal _
    exact ⟨{ h with }, share_congr rfl rfl hevents fun _ _ => rfl⟩
  | stopGrace m =>
    obtain ⟨s, hs, hset⟩ := hr m rfl
    have hgraces : ∀ n, (b.react (.stopGrace m)).timers.gracesOf n =
        if n = m then [] else b.timers.gracesOf n := fun n => Timers.gracesOf_cancel n b.timers m
    have halters : b.Alters m s s (b.react (.stopGrace m)) :=
      { station := hs
        id := rfl
        names := rfl
        fault := rfl
        epoch := rfl
        now := rfl
        escaped := rfl
        events := fun _ _ => rfl
        stations := fun n => by
          split
          · next hn => rw [← hn]; exact hs
          · rfl
        graces := fun n hn => by rw [hgraces, if_neg (Ne.symm hn)]
        grace := by rw [hgraces, if_pos rfl]; exact .inl rfl
        waiting := fun m' hm => h.waiting m s m' hs hm
        queued := fun m hm => .inl hm
        isSet := fun hset => hset }
    refine ⟨halters.orderly h, (halters.share h hsole).trans ?_⟩
    split
    · next howner =>
      rw [share_eq howner hs]
      simp only [Station.seat, hset, if_true]
      rfl
    · rfl

lemma drain (h : b.Orderly epoch) (hsole : b.Sole id) :
    Orderly epoch b.drain ∧ b.drain.share id = b.share id := by
  have hfold : ∀ (q : List Reaction) (b : Switchboard), b.Orderly epoch → b.Sole id →
      (∀ m, .stopGrace m ∈ q → ∃ s, b.stations[m]? = some s ∧ s.coordinator.latch.isSet = true) →
      Orderly epoch (q.foldl Switchboard.react b) ∧
        (q.foldl Switchboard.react b).share id = b.share id := by
    intro q
    induction q with
    | nil => exact fun b h _ _ => ⟨h, rfl⟩
    | cons r q ih =>
      intro b h hsole hq
      have hstations : (b.react r).stations = b.stations := by cases r <;> rfl
      have hnames : (b.react r).names = b.names := by cases r <;> rfl
      obtain ⟨horderly, hshare⟩ := h.react hsole fun m hr => hq m (hr ▸ List.mem_cons_self)
      obtain ⟨hrest, hsame⟩ := ih (b.react r) horderly
        (hsole.stays (stays_of_stations hnames hstations)) fun m hm => by
          rw [hstations]
          exact hq m (List.mem_cons_of_mem _ hm)
      exact ⟨hrest, hsame.trans hshare⟩
  have hempty : Orderly epoch { b with queue := [] } :=
    { h with queued := fun m hm => by simp at hm }
  exact hfold b.queue { b with queue := [] } hempty hsole h.queued

end Orderly

end Switchboard

end EdgeCaller

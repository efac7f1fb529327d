import EdgeCaller.Proofs.Shutdown.Coordination
import EdgeCaller.Proofs.Shutdown.Roster
/-!
The share of one coordinator in a board.

What a board holds of one coordinator is its state, the end of its grace period while that matters,
and the events that bear its name. Each operation on the board comes to an operation on this share:
one on the coordinator itself to the same on its share, one on another coordinator to nothing. A
board on which this is so is `Orderly`: a grace timer runs only for a coordinator that was asked to
shut down, and one that is to be called off belongs to a coordinator whose latch is set.
-/

namespace EdgeCaller

/-- Whether an event is one of the coordinator of this name. -/
def Event.isOf (id : String) : Event → Bool
  | armed other | abort other | forceExit other | completed other | detached other => other = id
  | _ => false

lemma Event.isOf_of_isLine {e : Event} (h : e.isLine = true) (id : String) : e.isOf id = false := by
  cases e <;> simp_all [isLine, isOf]

namespace Journal

/-- The events of a coordinator, the latest first. -/
def eventsOf (id : String) (j : Journal) : List Entry := j.entries.filter fun x => x.event.isOf id

lemma eventsOf_add (id : String) (j : Journal) (e : Event) : (j.add e).eventsOf id =
    if e.isOf id then ⟨j.now, e⟩ :: j.eventsOf id else j.eventsOf id := by
  rw [eventsOf, entries_add, List.filter_cons]
  rfl

lemma Extends.eventsOf_eq {j k : Journal} (h : j.Extends (·.isLine = true) k) (id : String) :
    k.eventsOf id = j.eventsOf id := by
  obtain ⟨new, hnew, hline⟩ := h.entries
  have hnone : (new.map (Entry.mk j.now)).filter (fun x => x.event.isOf id) = [] := by
    rw [List.filter_eq_nil_iff]
    intro x hx
    obtain ⟨e, he, rfl⟩ := List.mem_map.mp hx
    simp [Event.isOf_of_isLine (hline e he) id]
  rw [eventsOf, hnew, List.filter_append, hnone]
  rfl

end Journal

/-! ### Shares -/

/-- A coordinator, and when its grace period ends if its latch is not set before. -/
structure Seat where
  source : Source
  signals : List String
  gracePeriod : Number
  reason : Option String := none
  isSet : Bool := false
  listening : Bool := true
  due : Option Nat := none

/-- What concerns one coordinator: the time, the coordinator once it was armed, and its events, the
latest first. -/
structure Share where
  clock : Nat := 0
  seat : Option Seat := none
  events : List Entry := []

namespace Share

def arm (id : String) (x : Share) (source : Source) (signals : List String)
    (gracePeriod : Number) : Share :=
  { x with
    seat := some { source, signals, gracePeriod }
    events := ⟨x.clock, .armed id⟩ :: x.events }

def ask (id : String) (x : Share) (reason : String) : Share :=
  match x.seat with
  | none => x
  | some c =>
    if c.reason.isSome then x
    else
      { x with
        seat := some { c with
          reason := some reason
          due := if c.isSet then none else some (x.clock + Timers.effectiveDelay c.gracePeriod) }
        events := ⟨x.clock, .abort id⟩ :: x.events }

def hear (id : String) (x : Share) (source : Source) (signal : String) : Share :=
  match x.seat with
  | none => x
  | some c =>
    if c.source = source ∧ c.listening = true ∧ signal ∈ c.signals then x.ask id signal else x

def complete (id : String) (x : Share) : Share :=
  match x.seat with
  | none => x
  | some c =>
    if c.isSet then x
    else
      { x with
        seat := some { c with isSet := true, due := none }
        events := ⟨x.clock, .completed id⟩ :: x.events }

def dispose (id : String) (x : Share) : Share :=
  match x.seat with
  | none => x
  | some c =>
    { x with
      seat := some { c with listening := false, due := none }
      events := ⟨x.clock, .detached id⟩ :: x.events }

/-- The grace period ends, and the exit is forced. -/
def force (id : String) (x : Share) (time : Nat) : Share :=
  { clock := time
    seat := x.seat.map fun c => { c with due := none }
    events := ⟨time, .forceExit id⟩ :: x.events }

/-- Time passes up to this moment. -/
def await (id : String) (x : Share) (time : Nat) : Share :=
  match x.seat.bind (·.due) with
  | none => { x with clock := time }
  | some due =>
    if due ≤ time then { x.force id due with clock := time } else { x with clock := time }

lemma clock_ask (id : String) (x : Share) (reason : String) :
    (x.ask id reason).clock = x.clock := by
  unfold ask
  split
  · rfl
  · split <;> rfl

/-- A coordinator that was asked once is asked no more. -/
lemma ask_ask (id : String) (x : Share) (reason : String) :
    (x.ask id reason).ask id reason = x.ask id reason := by
  obtain ⟨clock, seat, events⟩ := x
  cases seat with
  | none => rfl
  | some c => cases hreason : c.reason <;> simp [ask, hreason]

end Share

/-! ### The share in a board -/

/-- The timers of a coordinator's grace period. -/
def Timers.gracesOf (owner : Nat) (ts : Timers Alarm) : Timers Alarm :=
  ts.filter fun t => t.wake.isGraceOf owner

namespace Timers

variable (owner : Nat) (ts : Timers Alarm)

@[simp] lemma gracesOf_cancel_sleeps (sleepers : List Sleeper) :
    gracesOf owner (ts.cancel (Alarm.isSleepOf sleepers)) = gracesOf owner ts := by
  rw [gracesOf, cancel, List.filter_filter]
  refine List.filter_congr fun t _ => ?_
  cases t.wake <;> simp [Alarm.isGraceOf, Alarm.isSleepOf]

lemma gracesOf_cancel (other : Nat) : gracesOf owner (ts.cancel (Alarm.isGraceOf other)) =
    if owner = other then [] else gracesOf owner ts := by
  rw [gracesOf, cancel, List.filter_filter]
  split
  · next h => simp [h]
  · next h =>
    refine List.filter_congr fun t _ => ?_
    cases t.wake with
    | sleep => simp [Alarm.isGraceOf]
    | grace n =>
      by_cases hn : n = owner
      · simp [Alarm.isGraceOf, hn, h]
      · simp [Alarm.isGraceOf, hn]

lemma gracesOf_add (due : Nat) (wake : Alarm) : gracesOf owner (ts.add due wake) =
    if wake.isGraceOf owner then gracesOf owner ts ++ [⟨due, wake⟩] else gracesOf owner ts := by
  rw [gracesOf, add, List.filter_append, List.filter_cons]
  split
  · rfl
  · exact List.append_nil _

end Timers

/-- A coordinator of a board, with the timer of its grace period. -/
def Station.seat (s : Station) (due : Option Nat) : Seat where
  source := s.source
  signals := s.coordinator.signals
  gracePeriod := s.coordinator.gracePeriod
  reason := s.coordinator.reason
  isSet := s.coordinator.latch.isSet
  listening := s.coordinator.listening
  due := if s.coordinator.latch.isSet then none else due

namespace Switchboard

def seat (b : Switchboard) (owner : Nat) : Option Seat :=
  (b.stations[owner]?).map fun s => s.seat ((b.timers.gracesOf owner).head?.map Timer.due)

/-- What a board holds of the coordinator that a name stands for. -/
def share (id : String) (b : Switchboard) : Share where
  clock := b.journal.now
  seat := (b.owner? id).bind b.seat
  events := b.journal.eventsOf id

/-- What holds of a board whose console prints and whose clock shows dates, whatever it was ordered:
at most one grace timer runs for a coordinator, once it was asked to shut down; a reaction that is
to call one off waits at the latch of the same coordinator, and is queued once that is set. -/
structure Orderly (epoch : Int) (b : Switchboard) : Prop where
  fault : b.journal.console.fault = none
  epoch : b.journal.epoch = epoch
  escaped : b.escaped = none
  named : b.Named
  graces : ∀ n, b.timers.gracesOf n = [] ∨ ∃ s t, b.stations[n]? = some s ∧
    s.coordinator.isAborted = true ∧ b.timers.gracesOf n = [t]
  waiting : ∀ (n : Nat) (s : Station) (m : Nat), b.stations[n]? = some s →
    .stopGrace m ∈ s.coordinator.latch.waiting → m = n
  queued : ∀ n, .stopGrace n ∈ b.queue →
    ∃ s, b.stations[n]? = some s ∧ s.coordinator.latch.isSet = true

/-- No two coordinators have this name. -/
def Sole (id : String) (b : Switchboard) : Prop := b.register.countP (·.id = id) ≤ 1

variable {b b' : Switchboard} {epoch : Int} {id : String} {owner : Nat} {s : Station}

lemma Sole.stays (h : b.Sole id) (hb : b.Stays b') : b'.Sole id := by
  rw [Sole, hb.register]
  exact h

lemma share_congr (hnow : b'.journal.now = b.journal.now)
    (howner : b'.owner? id = b.owner? id) (hevents : b'.journal.eventsOf id = b.journal.eventsOf id)
    (hseat : ∀ n, b.owner? id = some n → b'.seat n = b.seat n) : b'.share id = b.share id := by
  rw [share, share, hnow, howner, hevents]
  cases hid : b.owner? id with
  | none => rfl
  | some n => rw [Option.bind_some, Option.bind_some, hseat n hid]

lemma share_eq (howner : b.owner? id = some owner) (hs : b.stations[owner]? = some s) :
    b.share id = ⟨b.journal.now, some (s.seat ((b.timers.gracesOf owner).head?.map Timer.due)),
      b.journal.eventsOf id⟩ := by
  rw [share, howner, Option.bind_some, seat, hs]
  rfl

lemma share_eq_of_none (howner : b.owner? id = none) :
    b.share id = ⟨b.journal.now, none, b.journal.eventsOf id⟩ := by
  rw [share, howner]
  rfl

lemma getElem?_update (hs : b.stations[owner]? = some s) (f : Station → Station) (n : Nat) :
    (b.update owner f).stations[n]? = if owner = n then some (f s) else b.stations[n]? := by
  rw [update, List.getElem?_modify]
  split
  · next h => rw [← h, hs]; rfl
  · simp

namespace Orderly

lemma undisturbed (h : b.Orderly epoch) (hd : Dated epoch b.journal.now) :
    b.journal.Undisturbed := by
  refine ⟨h.fault, ?_, ?_⟩
  · rw [h.epoch]; exact hd.start
  · rw [h.epoch]; exact hd.now

/-- The coordinator that a name stands for is on the board. -/
lemma exists_station (h : b.Orderly epoch) (howner : b.owner? id = some owner) :
    ∃ s, b.stations[owner]? = some s ∧ s.coordinator.id = id := by
  rw [h.named id] at howner
  obtain ⟨e, he, hid⟩ := Enrolment.exists_of_newest howner
  rw [register, List.reverse_reverse, List.getElem?_map, Option.map_eq_some_iff] at he
  obtain ⟨s, hs, rfl⟩ := he
  exact ⟨s, hs, hid⟩

lemma id_of_owner (h : b.Orderly epoch) (howner : b.owner? id = some owner)
    (hs : b.stations[owner]? = some s) : s.coordinator.id = id := by
  obtain ⟨s', hs', hid⟩ := h.exists_station howner
  obtain rfl := Option.some.inj (hs.symm.trans hs')
  exact hid

lemma owner_of_sole (h : b.Orderly epoch) (hsole : b.Sole id) (hs : b.stations[owner]? = some s)
    (hid : s.coordinator.id = id) : b.owner? id = some owner := by
  have hmem : b.register.reverse[owner]? = some s.enrolment := by
    rw [register, List.reverse_reverse, List.getElem?_map, hs]
    rfl
  rw [h.named id]
  exact Enrolment.newest_of_count hsole hmem hid

/-- Before the first request no grace timer runs. -/
lemma gracesOf_eq_nil (h : b.Orderly epoch) (hs : b.stations[owner]? = some s)
    (ha : s.coordinator.isAborted = false) : b.timers.gracesOf owner = [] := by
  rcases h.graces owner with hnil | ⟨s', t, hs', ha', -⟩
  · exact hnil
  · obtain rfl := Option.some.inj (hs.symm.trans hs')
    simp [ha] at ha'

/-- Lines change nothing. -/
lemma line (h : b.Orderly epoch) (id : String) {k : Journal}
    (hk : b.journal.Extends (·.isLine = true) k) :
    Orderly epoch { b with journal := k } ∧ share id { b with journal := k } = b.share id :=
  ⟨{ h with fault := hk.fault.trans h.fault, epoch := hk.epoch.trans h.epoch },
    share_congr hk.now rfl (hk.eventsOf_eq id) fun _ _ => rfl⟩

/-- Only the grace timers matter. -/
lemma timers (h : b.Orderly epoch) (id : String) (ts : Timers Alarm)
    (hts : ∀ n, ts.gracesOf n = b.timers.gracesOf n) :
    Orderly epoch { b with timers := ts } ∧ share id { b with timers := ts } = b.share id := by
  refine ⟨{ h with graces := fun n => by rw [hts]; exact h.graces n }, ?_⟩
  refine share_congr rfl rfl rfl fun n _ => ?_
  rw [seat, hts]
  rfl

/-- The ends of what is watched may be queued at any time. -/
lemma reports (h : b.Orderly epoch) (id : String) (name : String) :
    Orderly epoch (b.enqueue [.report name]) ∧ (b.enqueue [.report name]).share id = b.share id :=
  ⟨{ h with queued := fun m hm => h.queued m (by simpa [enqueue] using hm) },
    share_congr rfl rfl rfl fun _ _ => rfl⟩

/-- The sleeps that the abort of a coordinator ends do not matter. -/
lemma sleepers (h : b.Orderly epoch) (id : String) (owner : Nat) {f : Station → Station}
    (hf : ∀ s, (f s).coordinator = s.coordinator ∧ (f s).source = s.source) :
    Orderly epoch (b.update owner f) ∧ (b.update owner f).share id = b.share id := by
  have hlookup : ∀ n, (b.update owner f).stations[n]? =
      (b.stations[n]?).map fun s => if owner = n then f s else s :=
    fun n => List.getElem?_modify f owner b.stations n
  have hsame : ∀ (n : Nat) (s : Station),
      (if owner = n then f s else s).coordinator = s.coordinator := by
    intro n s
    split
    · exact (hf s).1
    · rfl
  have hstays : b.Stays (b.update owner f) :=
    stays_update owner f fun s _ => by rw [Station.enrolment, (hf s).1, (hf s).2]; rfl
  refine ⟨{ h with
    named := h.named.stays hstays
    graces := fun n => ?_
    waiting := fun n s m hs hm => ?_
    queued := fun m hm => ?_ }, share_congr rfl rfl rfl fun n _ => ?_⟩
  · rcases h.graces n with hnil | ⟨s, t, hs, ha, ht⟩
    · exact .inl hnil
    · exact .inr ⟨_, t, by rw [hlookup, hs]; rfl, by rw [hsame]; exact ha, ht⟩
  · rw [hlookup, Option.map_eq_some_iff] at hs
    obtain ⟨s, hs, rfl⟩ := hs
    rw [hsame] at hm
    exact h.waiting n s m hs hm
  · obtain ⟨s, hs, hset⟩ := h.queued m hm
    exact ⟨_, by rw [hlookup, hs]; rfl, by rw [hsame]; exact hset⟩
  · rw [seat, hlookup, Option.map_map]
    refine congrArg (fun g => Option.map g _) (funext fun s => ?_)
    simp only [Function.comp, Station.seat, hsame]
    split
    · rw [(hf s).2]; rfl
    · rfl

end Orderly

/-! ### Changes of one coordinator -/

/-- Nothing is changed from `b` to `b'` but what concerns one coordinator, which is then `s'`. -/
structure Alters (b : Switchboard) (owner : Nat) (s s' : Station) (b' : Switchboard) : Prop where
  station : b.stations[owner]? = some s
  id : s'.coordinator.id = s.coordinator.id
  names : b'.names = b.names
  fault : b'.journal.console.fault = b.journal.console.fault
  epoch : b'.journal.epoch = b.journal.epoch
  now : b'.journal.now = b.journal.now
  escaped : b'.escaped = b.escaped
  events : ∀ id, s.coordinator.id ≠ id → b'.journal.eventsOf id = b.journal.eventsOf id
  stations : ∀ n, b'.stations[n]? = if owner = n then some s' else b.stations[n]?
  graces : ∀ n, owner ≠ n → b'.timers.gracesOf n = b.timers.gracesOf n
  grace : b'.timers.gracesOf owner = [] ∨
    s'.coordinator.isAborted = true ∧ ∃ t, b'.timers.gracesOf owner = [t]
  waiting : ∀ m, .stopGrace m ∈ s'.coordinator.latch.waiting → m = owner
  queued : ∀ m, .stopGrace m ∈ b'.queue →
    .stopGrace m ∈ b.queue ∨ m = owner ∧ s'.coordinator.latch.isSet = true
  isSet : s.coordinator.latch.isSet = true → s'.coordinator.latch.isSet = true

namespace Alters

variable {s' : Station}

lemma orderly (ha : b.Alters owner s s' b') (h : b.Orderly epoch) : b'.Orderly epoch where
  fault := ha.fault.trans h.fault
  epoch := ha.epoch.trans h.epoch
  escaped := ha.escaped.trans h.escaped
  named other := by
    have hids : b'.register.map (·.id) = b.register.map (·.id) := by
      simp only [register, List.map_reverse, List.map_map]
      refine congrArg List.reverse (List.ext_getElem? fun n => ?_)
      rw [List.getElem?_map, List.getElem?_map, ha.stations]
      split
      · next hn =>
        rw [← hn, ha.station]
        exact congrArg some ha.id
      · rfl
    rw [owner?, ha.names, Enrolment.newest_congr hids]
    exact h.named other
  graces n := by
    rw [ha.stations]
    by_cases hn : owner = n
    · subst hn
      rcases ha.grace with hnil | ⟨haborted, t, ht⟩
      · exact .inl hnil
      · exact .inr ⟨s', t, if_pos rfl, haborted, ht⟩
    · rw [ha.graces n hn, if_neg hn]
      exact h.graces n
  waiting n t m ht hm := by
    rw [ha.stations] at ht
    split at ht
    · next hn =>
      obtain rfl := Option.some.inj ht
      exact (ha.waiting m hm).trans hn
    · exact h.waiting n t m ht hm
  queued m hm := by
    rw [ha.stations]
    rcases ha.queued m hm with hm | ⟨rfl, hset⟩
    · obtain ⟨t, ht, hset⟩ := h.queued m hm
      split
      · next hn =>
        obtain rfl := Option.some.inj (ha.station.symm.trans (hn ▸ ht))
        exact ⟨s', rfl, ha.isSet hset⟩
      · exact ⟨t, ht, hset⟩
    · exact ⟨s', if_pos rfl, hset⟩

/-- What the coordinator of a name comes to, where it is the one that is changed and where it is
another. -/
lemma share (ha : b.Alters owner s s' b') (h : b.Orderly epoch) (hsole : b.Sole id) :
    b'.share id = if b.owner? id = some owner then
      ⟨b.journal.now, some (s'.seat ((b'.timers.gracesOf owner).head?.map Timer.due)),
        b'.journal.eventsOf id⟩
      else b.share id := by
  have hnames : b'.owner? id = b.owner? id := by
    rw [owner?, ha.names]
    rfl
  split
  · next howner =>
    rw [share_eq (hnames.trans howner) ((ha.stations owner).trans (if_pos rfl)), ha.now]
  · next howner =>
    have hid : s.coordinator.id ≠ id := fun hid => howner (h.owner_of_sole hsole ha.station hid)
    refine share_congr ha.now hnames (ha.events id hid) fun n hn => ?_
    have hne : owner ≠ n := fun h => howner (h ▸ hn)
    rw [seat, ha.stations, if_neg hne, ha.graces n hne]
    rfl

end Alters

/-- One coordinator is changed, and an event of its own tells of that, maybe after some lines. -/
lemma Orderly.alter (h : b.Orderly epoch) (hsole : b.Sole id) (hs : b.stations[owner]? = some s)
    {f : Station → Station} {k : Journal} {e : Event} {ts : Timers Alarm} {q : List Reaction}
    (hk : b.journal.Extends (·.isLine = true) k)
    (he : ∀ id, e.isOf id = decide (s.coordinator.id = id))
    (hid : (f s).coordinator.id = s.coordinator.id)
    (hothers : ∀ n, owner ≠ n → ts.gracesOf n = b.timers.gracesOf n)
    (hgrace : ts.gracesOf owner = [] ∨
      (f s).coordinator.isAborted = true ∧ ∃ t, ts.gracesOf owner = [t])
    (hwaiting : ∀ m, .stopGrace m ∈ (f s).coordinator.latch.waiting → m = owner)
    (hqueued : ∀ m, .stopGrace m ∈ q →
      .stopGrace m ∈ b.queue ∨ m = owner ∧ (f s).coordinator.latch.isSet = true)
    (hset : s.coordinator.latch.isSet = true → (f s).coordinator.latch.isSet = true) :
    let b' := { b with
      journal := k.add e, stations := b.stations.modify owner f, timers := ts, queue := q }
    b'.Orderly epoch ∧ b'.share id = if b.owner? id = some owner then
      ⟨b.journal.now, some ((f s).seat ((ts.gracesOf owner).head?.map Timer.due)),
        ⟨b.journal.now, e⟩ :: b.journal.eventsOf id⟩
      else b.share id := by
  intro b'
  have hevents : ∀ id, b'.journal.eventsOf id = if s.coordinator.id = id then
      ⟨b.journal.now, e⟩ :: b.journal.eventsOf id else b.journal.eventsOf id := by
    intro id
    rw [Journal.eventsOf_add, he, hk.eventsOf_eq id, hk.now]
    simp only [decide_eq_true_eq]
  have halters : b.Alters owner s (f s) b' :=
    { station := hs
      id := hid
      names := rfl
      fault := hk.fault
      epoch := hk.epoch
      now := hk.now
      escaped := rfl
      events := fun id hother => (hevents id).trans (if_neg hother)
      stations := getElem?_update hs f
      graces := hothers
      grace := hgrace
      waiting := hwaiting
      queued := hqueued
      isSet := hset }
  refine ⟨halters.orderly h, (halters.share h hsole).trans ?_⟩
  split
  · next howner => rw [hevents, if_pos (h.id_of_owner howner hs)]
  · rfl

end Switchboard

end EdgeCaller

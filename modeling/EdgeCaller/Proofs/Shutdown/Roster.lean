import Mathlib.Algebra.BigOperators.Group.List.Basic
import EdgeCaller.Proofs.Shutdown.Orders
import EdgeCaller.Proofs.Shutdown.Requests
/-!
The coordinators of a board.

Which coordinators were armed on a board, which of them a name stands for and which were disposed of
can be told from the orders alone. This roster is kept newest first: a name stands for the newest
coordinator that has it. Every order but those two leaves it as it is, and the listeners of a signal
are those of the coordinators on it that were not disposed of.
-/

namespace EdgeCaller

/-- A coordinator that was armed. -/
structure Enrolment where
  id : String
  source : Source
  signals : List String
  disposed : Bool

namespace Enrolment

/-- The index of the coordinator that a name stands for. -/
def newest (id : String) : List Enrolment → Option Nat
  | [] => none
  | e :: older => if e.id = id then some older.length else newest id older

/-- The coordinator that a name stands for is disposed of. -/
def strike (id : String) : List Enrolment → List Enrolment
  | [] => []
  | e :: older => if e.id = id then { e with disposed := true } :: older else e :: strike id older

/-- How many listeners a signal of a source has. -/
def listeners (source : Source) (signal : String) (es : List Enrolment) : Nat :=
  ((es.filter fun e => e.source = source ∧ e.disposed = false).map (·.signals.count signal)).sum

variable {id : String} {es : List Enrolment} {n : Nat}

lemma newest_lt (h : newest id es = some n) : n < es.length := by
  induction es with
  | nil => simp [newest] at h
  | cons e older ih =>
    rw [newest] at h
    split at h
    · obtain rfl := Option.some.inj h
      exact Nat.lt_succ_self _
    · exact Nat.lt_succ_of_lt (ih h)

lemma exists_of_newest (h : newest id es = some n) :
    ∃ e, es.reverse[n]? = some e ∧ e.id = id := by
  induction es with
  | nil => simp [newest] at h
  | cons e older ih =>
    rw [newest] at h
    split at h
    · next hid =>
      obtain rfl := Option.some.inj h
      exact ⟨e, by simp, hid⟩
    · obtain ⟨e', he', hid⟩ := ih h
      have hlt := newest_lt h
      refine ⟨e', ?_, hid⟩
      rw [List.reverse_cons, List.getElem?_append_left (by simpa using hlt)]
      exact he'

/-- A name that was used once stands for the one coordinator that has it. -/
lemma newest_of_count (honce : es.countP (·.id = id) ≤ 1) {e : Enrolment}
    (he : es.reverse[n]? = some e) (hid : e.id = id) : newest id es = some n := by
  induction es with
  | nil => simp at he
  | cons e' older ih =>
    rw [List.countP_cons] at honce
    rw [newest, List.reverse_cons] at *
    by_cases hlt : n < older.length
    · rw [List.getElem?_append_left (by simpa using hlt)] at he
      have hmem : e ∈ older := List.mem_reverse.mp (List.mem_of_getElem? he)
      have hpos : 0 < older.countP (·.id = id) :=
        List.countP_pos_iff.mpr ⟨e, hmem, by simpa using hid⟩
      have hother : e'.id ≠ id := fun h => by
        rw [if_pos (decide_eq_true h)] at honce
        omega
      rw [if_neg hother]
      exact ih (by omega) he
    · rw [List.getElem?_append_right (by simpa using Nat.le_of_not_lt hlt)] at he
      obtain ⟨hn, rfl⟩ : n - older.length = 0 ∧ e' = e := by
        cases hn : n - older.length <;> simp_all
      rw [if_pos hid]
      exact congrArg some (by omega)

lemma strike_of_newest_none (h : newest id es = none) : strike id es = es := by
  induction es with
  | nil => rfl
  | cons e older ih =>
    rw [newest] at h
    rw [strike]
    split at h
    · simp at h
    · next hid => rw [if_neg hid, ih h]

lemma map_id_strike (id : String) (es : List Enrolment) :
    (strike id es).map (·.id) = es.map (·.id) := by
  induction es with
  | nil => rfl
  | cons e older ih =>
    rw [strike]
    split
    · rfl
    · rw [List.map_cons, List.map_cons, ih]

lemma length_strike (id : String) (es : List Enrolment) : (strike id es).length = es.length := by
  simpa using congrArg List.length (map_id_strike id es)

/-- To strike a name is to change the coordinator that it stands for. -/
lemma reverse_strike (h : newest id es = some n) :
    (strike id es).reverse = es.reverse.modify n fun e => { e with disposed := true } := by
  induction es with
  | nil => simp [newest] at h
  | cons e older ih =>
    refine List.ext_getElem? fun m => ?_
    rw [newest] at h
    rw [strike, List.reverse_cons, List.getElem?_modify]
    split at h
    · next hid =>
      obtain rfl := Option.some.inj h
      rw [if_pos hid, List.reverse_cons, List.getElem?_append, List.getElem?_append,
        List.length_reverse]
      split
      · next hlt => simp [Nat.ne_of_gt hlt]
      · next hlt =>
        rcases hm : m - older.length with _ | k
        · obtain rfl : older.length = m := by omega
          simp
        · simp
    · next hid =>
      have hlt := newest_lt h
      rw [if_neg hid, List.reverse_cons, List.getElem?_append, List.getElem?_append,
        List.length_reverse, List.length_reverse, length_strike, ih h, List.getElem?_modify]
      split
      · rfl
      · next hm => simp [show n ≠ m by omega]

/-- What a name stands for shows from the names alone. -/
lemma newest_congr {es es' : List Enrolment} (h : es.map (·.id) = es'.map (·.id)) (id : String) :
    newest id es = newest id es' := by
  induction es generalizing es' with
  | nil => rw [List.map_eq_nil_iff.mp h.symm]
  | cons e older ih =>
    cases es' with
    | nil => simp at h
    | cons e' older' =>
      obtain ⟨hid, hrest⟩ : e.id = e'.id ∧ older.map (·.id) = older'.map (·.id) :=
        List.cons.inj h
      have hlength := congrArg List.length hrest
      rw [List.length_map, List.length_map] at hlength
      rw [newest, newest, hid, hlength, ih hrest]

end Enrolment

/-- The coordinators that were armed, the newest first. -/
def Order.roster : List Order → List Enrolment
  | [] => []
  | ⟨.arm id source signals _, _⟩ :: past => ⟨id, source, signals, false⟩ :: roster past
  | ⟨.dispose id, _⟩ :: past => Enrolment.strike id (roster past)
  | _ :: past => roster past

/-- A coordinator of a board as it is enrolled. -/
def Station.enrolment (s : Station) : Enrolment :=
  ⟨s.coordinator.id, s.source, s.coordinator.signals, !s.coordinator.listening⟩

namespace Switchboard

/-- The board after some orders. -/
def board (console : Console) (epoch : Int) : List Order → Switchboard
  | [] => { journal := .start console epoch }
  | o :: past => (board console epoch past).obey o.flush o.command

/-- The coordinators of a board, the newest first. -/
def register (b : Switchboard) : List Enrolment := (b.stations.map Station.enrolment).reverse

/-- The same coordinators are on `b'` as on `b`, and none of them was disposed of in between. -/
structure Stays (b b' : Switchboard) : Prop where
  names : b'.names = b.names
  register : b'.register = b.register

variable {b b' b'' : Switchboard} {s : Station}

lemma Stays.trans (h : b.Stays b') (h' : b'.Stays b'') : b.Stays b'' :=
  ⟨h'.names.trans h.names, h'.register.trans h.register⟩

/-- The journal, the timers and the queue do not matter. -/
lemma stays_of_stations (hnames : b'.names = b.names) (hstations : b'.stations = b.stations) :
    b.Stays b' :=
  ⟨hnames, by rw [register, hstations]; rfl⟩

lemma stays_self (b : Switchboard) : b.Stays b := stays_of_stations rfl rfl

lemma register_update (owner : Nat) (f : Station → Station) (g : Enrolment → Enrolment)
    (hs : ∀ s, b.stations[owner]? = some s → (f s).enrolment = g s.enrolment) :
    (b.update owner f).register = (b.register.reverse.modify owner g).reverse := by
  rw [register, register, List.reverse_reverse]
  refine congrArg List.reverse (List.ext_getElem? fun m => ?_)
  simp only [update, List.getElem?_map, List.getElem?_modify]
  by_cases hm : owner = m
  · subst hm
    cases hstation : b.stations[owner]? with
    | none => rfl
    | some s => simp [hs s hstation]
  · simp [hm]

lemma stays_update (owner : Nat) (f : Station → Station)
    (hs : ∀ s, b.stations[owner]? = some s → (f s).enrolment = s.enrolment) :
    b.Stays (b.update owner f) := by
  refine ⟨rfl, ?_⟩
  rw [register_update owner f id hs]
  simp [List.modify_id]

lemma stays_wakeAll (b : Switchboard) (owner : Nat) (sleepers : List Sleeper) :
    b.Stays (b.wakeAll owner sleepers) := by
  have hwoken : b.Stays (b.update owner fun s => { s with sleepers := [] }) :=
    stays_update owner _ fun _ _ => rfl
  exact hwoken.trans (stays_of_stations rfl rfl)

lemma stays_request (b : Switchboard) (owner : Nat) (reason : String) :
    b.Stays (b.request owner reason) := by
  unfold request
  split
  · exact b.stays_self
  · next s hs =>
    obtain ⟨k, -, hcases⟩ := Coordinator.exec_request_cases (P := fun _ => True)
      (fun _ _ => trivial) s.coordinator reason b.journal
    rcases hcases with ⟨e, hact⟩ | ⟨-, hact⟩ | ⟨-, hact⟩
    · simp only [perform, hact]
      exact stays_of_stations rfl rfl
    · simp only [perform, hact]
      exact stays_of_stations rfl rfl
    · simp only [perform, hact]
      have htold : b.Stays { b with journal := k.add (.abort s.coordinator.id) } :=
        stays_of_stations rfl rfl
      have haborted := htold.trans (stays_update owner
        (fun s' => { s' with coordinator := { s.coordinator with reason := some reason } })
        fun s' hs' => by
          obtain rfl := Option.some.inj (hs.symm.trans hs')
          rfl)
      have hwoken := haborted.trans (stays_wakeAll _ owner s.sleepers)
      split
      · exact hwoken
      · exact hwoken.trans (stays_of_stations rfl rfl)

lemma stays_foldl {α : Type} {f : Switchboard → α → Switchboard}
    (h : ∀ (b : Switchboard) (a : α), b.Stays (f b a))
    (b : Switchboard) (as : List α) : b.Stays (as.foldl f b) := by
  induction as generalizing b with
  | nil => exact b.stays_self
  | cons a as ih => exact (h b a).trans (ih (f b a))

lemma stays_deliver (b : Switchboard) (source : Source) (signal : String) :
    b.Stays (b.deliver source signal) := by
  refine stays_foldl (fun b owner => ?_) b _
  split
  · exact b.stays_self
  · exact b.stays_request owner signal

lemma stays_complete (b : Switchboard) (owner : Nat) : b.Stays (b.complete owner) := by
  unfold complete
  split
  · exact b.stays_self
  · next s hs =>
    have hset : b.Stays (b.update owner fun s' =>
        { s' with coordinator := { s'.coordinator with latch := s.coordinator.latch.set.2.2 } }) :=
      stays_update owner _ fun _ _ => rfl
    refine hset.trans ?_
    simp only [enqueue]
    split <;> exact stays_of_stations rfl rfl

lemma stays_watch (b : Switchboard) (owner : Nat) (name : String) :
    b.Stays (b.watch owner name) := by
  unfold watch
  split
  · exact b.stays_self
  · next s hs =>
    have hwaits : b.Stays (b.update owner fun s' => { s' with coordinator :=
        { s'.coordinator with latch := (s.coordinator.latch.wait (.report name)).2 } }) :=
      stays_update owner _ fun _ _ => rfl
    exact hwaits.trans (stays_of_stations rfl rfl)

lemma stays_sleep (b : Switchboard) (owner : Nat) (name : String) (ms : Number) :
    b.Stays (b.sleep owner name ms) := by
  unfold sleep
  split
  · exact b.stays_self
  · split
    · exact stays_of_stations rfl rfl
    · have hsleeps : b.Stays (b.update owner fun s =>
          { s with sleepers := s.sleepers ++ [⟨b.tickets, name⟩] }) :=
        stays_update owner _ fun _ _ => rfl
      exact hsleeps.trans (stays_of_stations rfl rfl)

lemma stays_drain (b : Switchboard) : b.Stays b.drain := by
  have hempty : b.Stays { b with queue := [] } := stays_of_stations rfl rfl
  refine hempty.trans (stays_foldl (fun b r => ?_) _ _)
  cases r <;> exact stays_of_stations rfl rfl

lemma stays_wake (b : Switchboard) (alarm : Alarm) : b.Stays (b.wake alarm) := by
  cases alarm with
  | grace owner =>
    simp only [wake]
    split
    · exact b.stays_self
    · next s hs =>
      rcases hact : s.coordinator.graceEnded.exec b.journal with ⟨e | forced, k⟩
      · simp only [perform, hact]
        exact stays_of_stations rfl rfl
      · simp only [perform, hact]
        cases forced <;> exact stays_of_stations rfl rfl
  | sleep owner sleeper =>
    have hended : b.Stays (b.update owner fun s =>
        { s with sleepers := s.sleepers.erase sleeper }) :=
      stays_update owner _ fun _ _ => rfl
    exact hended.trans (stays_of_stations rfl rfl)

lemma stays_fire (b : Switchboard) : b.Stays b.fire := by
  unfold fire
  split
  · exact b.stays_self
  · next t rest _ =>
    have hmoved : b.Stays ({ b with timers := rest }.moveTo t.due) := stays_of_stations rfl rfl
    exact hmoved.trans (stays_wake _ _)

lemma stays_advance (b : Switchboard) (flush : Bool) (ms : Nat) :
    b.Stays (b.advance flush ms) := by
  have hadvance : ∀ (time fuel : Nat) (b : Switchboard),
      b.Stays ((clockwork flush).advanceTo time fuel b) := by
    intro time fuel
    induction fuel with
    | zero => exact fun b => stays_of_stations rfl rfl
    | succ fuel ih =>
      intro b
      have hfire : b.Stays ((clockwork flush).fire b) := by
        cases flush with
        | false => exact b.stays_fire
        | true => exact b.stays_fire.trans b.fire.stays_drain
      rw [Clockwork.advanceTo]
      split
      · split
        · exact hfire.trans (ih _)
        · exact stays_of_stations rfl rfl
      · exact stays_of_stations rfl rfl
  cases flush with
  | false => exact hadvance _ _ b
  | true => exact b.stays_drain.trans (hadvance _ _ _)

lemma length_register (b : Switchboard) : b.register.length = b.stations.length := by
  simp [register]

lemma register_arm (b : Switchboard) (id : String) (source : Source) (signals : List String)
    (gracePeriod : Number) : (b.arm id source signals gracePeriod).register =
      ⟨id, source, signals, false⟩ :: b.register := by
  simp only [register, arm, List.map_append, List.reverse_append]
  rfl

lemma register_dispose {owner : Nat} {id : String}
    (howner : Enrolment.newest id b.register = some owner) :
    (b.dispose owner).register = Enrolment.strike id b.register := by
  have hdetached := register_update (b := b) owner
    (fun s => { s with coordinator := s.coordinator.detach }) (fun e => { e with disposed := true })
    fun _ _ => rfl
  rw [← Enrolment.reverse_strike howner, List.reverse_reverse] at hdetached
  rw [← hdetached, dispose]
  split
  · next hnone =>
    have hlt := Enrolment.newest_lt howner
    rw [length_register] at hlt
    rw [List.getElem?_eq_none_iff] at hnone
    omega
  · rfl

/-- Every name stands for the newest coordinator that has it. -/
def Named (b : Switchboard) : Prop := ∀ id, b.owner? id = Enrolment.newest id b.register

lemma Named.stays (h : b.Named) (hb : b.Stays b') : b'.Named := by
  intro id
  rw [owner?, hb.names, hb.register]
  exact h id

lemma owner?_arm (b : Switchboard) (id other : String) (source : Source) (signals : List String)
    (gracePeriod : Number) : (b.arm id source signals gracePeriod).owner? other =
      if id = other then some b.stations.length else b.owner? other := by
  rw [owner?, arm]
  split
  · next hid => rw [hid, Members.get?_set_self]
  · next hid => exact Members.get?_set_of_ne (Ne.symm hid) _ _

lemma Named.arm (h : b.Named) (id : String) (source : Source) (signals : List String)
    (gracePeriod : Number) : (b.arm id source signals gracePeriod).Named := by
  intro other
  rw [owner?_arm, register_arm, Enrolment.newest, length_register, h other]

lemma stays_withOwner (b : Switchboard) (id : String) {f : Switchboard → Nat → Switchboard}
    (hf : ∀ (b : Switchboard) (owner : Nat), b.Stays (f b owner)) : b.Stays (b.withOwner id f) := by
  unfold withOwner
  split
  · exact hf b _
  · exact b.stays_self

lemma Named.dispose (h : b.Named) (id : String) :
    (b.withOwner id Switchboard.dispose).register = Enrolment.strike id b.register ∧
      (b.withOwner id Switchboard.dispose).Named := by
  unfold withOwner
  split
  · next owner howner =>
    have hstruck := register_dispose ((h id).symm.trans howner)
    have hnames : (b.dispose owner).names = b.names := by
      unfold Switchboard.dispose
      split <;> rfl
    refine ⟨hstruck, fun other => ?_⟩
    rw [owner?, hnames, hstruck, Enrolment.newest_congr (Enrolment.map_id_strike _ _)]
    exact h other
  · next hnone => exact ⟨(Enrolment.strike_of_newest_none ((h id).symm.trans hnone)).symm, h⟩

lemma Named.execute (h : b.Named) (flush : Bool) (command : Command) {past : List Order}
    (hpast : b.register = Order.roster past) :
    (b.execute flush command).register = Order.roster (⟨command, flush⟩ :: past) ∧
      (b.execute flush command).Named := by
  have hkept : ∀ {b' : Switchboard}, b.Stays b' → b'.register = Order.roster past ∧ b'.Named :=
    fun hb => ⟨hb.register.trans hpast, h.stays hb⟩
  cases command with
  | arm id source signals gracePeriod =>
    refine ⟨?_, h.arm id source signals gracePeriod⟩
    rw [Switchboard.execute, register_arm, hpast]
    rfl
  | dispose id =>
    have hstruck := h.dispose id
    rw [hpast] at hstruck
    exact hstruck
  | signal source name => exact hkept (b.stays_deliver source name)
  | request id reason =>
    exact hkept (b.stays_withOwner id fun b owner => b.stays_request owner reason)
  | complete id => exact hkept (b.stays_withOwner id stays_complete)
  | watch id name => exact hkept (b.stays_withOwner id fun b owner => b.stays_watch owner name)
  | sleep id name ms =>
    exact hkept (b.stays_withOwner id fun b owner => b.stays_sleep owner name ms)
  | pass ms => exact hkept (b.stays_advance flush ms)

/-- The coordinators on a board after some orders are those that the orders call for. -/
theorem register_board (console : Console) (epoch : Int) (past : List Order) :
    (board console epoch past).register = Order.roster past ∧ (board console epoch past).Named := by
  induction past with
  | nil => exact ⟨rfl, fun _ => rfl⟩
  | cons o past ih =>
    obtain ⟨command, flush⟩ := o
    obtain ⟨hregister, hnamed⟩ := ih.2.execute flush command ih.1
    cases flush with
    | false => exact ⟨hregister, hnamed⟩
    | true =>
      have hdrained := stays_drain ((board console epoch past).execute true command)
      exact ⟨hdrained.register.trans hregister, hnamed.stays hdrained⟩

/-- The listeners of a signal are those of the coordinators that were not disposed of. -/
theorem listeners_eq (b : Switchboard) (source : Source) (signal : String) :
    b.listeners source signal = Enrolment.listeners source signal b.register := by
  have hsum : ∀ ss : List Station,
      ((ss.filter (·.source = source)).map (·.coordinator.listeners signal)).sum =
        Enrolment.listeners source signal (ss.map Station.enrolment) := by
    intro ss
    induction ss with
    | nil => rfl
    | cons s ss ih =>
      rw [Enrolment.listeners] at ih ⊢
      rw [List.map_cons, List.filter_cons, List.filter_cons]
      by_cases hsource : s.source = source
      · cases hl : s.coordinator.listening <;>
          simpa [Station.enrolment, Coordinator.listeners, hsource, hl] using ih
      · simpa [Station.enrolment, hsource] using ih
  rw [register, Enrolment.listeners, List.filter_reverse, List.map_reverse, List.sum_reverse]
  exact hsum b.stations

end Switchboard

end EdgeCaller

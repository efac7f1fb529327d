import EdgeCaller.Proofs.Shutdown.Operations
/-!
Coordinators in company.

Any number of coordinators are armed on one board, at any times, on the same source or not, and are
asked, set and disposed of in any order. What becomes of each of them can be told from the orders
that reach it: those to its name, the signals, and the passing of time. So it is what would become
of it alone.
-/

namespace EdgeCaller

namespace Switchboard.Command

/-- Whether a command is one to the coordinator of this name, to all, or the passing of time. -/
def reaches (id : String) : Command → Bool
  | signal .. | pass _ => true
  | arm other .. | request other _ | complete other | watch other _ | sleep other .. |
    dispose other => other = id

/-- Whether a command arms a coordinator of this name. -/
def arms (id : String) : Command → Bool
  | arm other .. => other = id
  | _ => false

end Switchboard.Command

/-! ### Shares under orders -/

namespace Share

open Switchboard

/-- What a command makes of the share of a coordinator. -/
def after (id : String) (x : Share) : Command → Share
  | .arm other source signals gracePeriod =>
    if other = id then x.arm id source signals gracePeriod else x
  | .signal source name => x.hear id source name
  | .request other reason => if other = id then x.ask id reason else x
  | .complete other => if other = id then x.complete id else x
  | .watch .. | .sleep .. => x
  | .dispose other => if other = id then x.dispose id else x
  | .pass ms => x.await id (x.clock + ms)

/-- What some orders make of the share of a coordinator. -/
def run (id : String) : List Order → Share
  | [] => {}
  | o :: past => (run id past).after id o.command

variable {id : String} {x : Share}

lemma after_of_not_reaches {command : Command} (h : command.reaches id = false) :
    x.after id command = x := by
  cases command <;> simp_all [Command.reaches, after]

/-- Only the orders that reach a coordinator matter to its share. -/
lemma run_filter (id : String) (past : List Order) :
    run id (past.filter fun o => o.command.reaches id) = run id past := by
  induction past with
  | nil => rfl
  | cons o past ih =>
    rw [List.filter_cons]
    cases hreaches : o.command.reaches id with
    | true => rw [if_pos rfl, run, run, ih]
    | false => rw [if_neg (by simp), run, after_of_not_reaches hreaches, ih]

lemma clock_after (id : String) (x : Share) (command : Command) :
    (x.after id command).clock = x.clock + command.duration := by
  cases command with
  | pass ms =>
    simp only [after, await]
    split
    · rfl
    · split <;> rfl
  | signal source name =>
    simp only [after, hear]
    split
    · rfl
    · split
      · exact clock_ask _ _ _
      · rfl
  | request other reason =>
    simp only [after]
    split
    · exact clock_ask _ _ _
    · rfl
  | complete other =>
    simp only [after, complete]
    split
    · split
      · rfl
      · split <;> rfl
    · rfl
  | dispose other =>
    simp only [after, dispose]
    split
    · split <;> rfl
    · rfl
  | arm other source signals gracePeriod =>
    simp only [after]
    split <;> rfl
  | watch | sleep => rfl

lemma clock_run (id : String) (past : List Order) : (run id past).clock = Order.clock past := by
  induction past with
  | nil => rfl
  | cons o past ih => rw [run, clock_after, ih, Order.clock_cons]

/-- To wait is to wait until a moment, whatever time it is. -/
lemma await_moved (id : String) (x : Share) (clock time : Nat) :
    Share.await id { x with clock } time = x.await id time := rfl

/-- Where the grace period ends on the way, the exit is forced then. -/
lemma await_force {due time : Nat} (hdue : x.seat.bind (·.due) = some due) (hle : due ≤ time) :
    (x.force id due).await id time = x.await id time := by
  have hnone : (x.force id due).seat.bind (·.due) = none := by
    rw [force]
    cases x.seat <;> rfl
  rw [await, hnone, await, hdue]
  exact (if_pos hle).symm

end Share

namespace Timers

variable {ts rest : Timers Alarm} {t : Timer Alarm}

lemma gracesOf_rest (h : ts.next? = some (t, rest)) (n : Nat) :
    (gracesOf n rest).Sublist (gracesOf n ts) := by
  obtain ⟨before, after, rfl, rfl⟩ := split_of_next? h
  exact (List.Sublist.append_left (List.sublist_cons_self _ _) _).filter _

lemma gracesOf_rest_of_ne (h : ts.next? = some (t, rest)) {n : Nat}
    (hn : t.wake.isGraceOf n = false) : gracesOf n rest = gracesOf n ts := by
  obtain ⟨before, after, rfl, rfl⟩ := split_of_next? h
  simp [gracesOf, List.filter_append, hn]

/-- Where one grace timer of a coordinator runs and is the next one, none is left. -/
lemma gracesOf_taken (h : ts.next? = some (t, rest)) {n : Nat} (hn : t.wake.isGraceOf n = true)
    {u : Timer Alarm} (hone : gracesOf n ts = [u]) : u = t ∧ gracesOf n rest = [] := by
  obtain ⟨before, after, rfl, rfl⟩ := split_of_next? h
  rw [gracesOf, List.filter_append, List.filter_cons_of_pos (by simpa using hn)] at hone
  rw [gracesOf, List.filter_append]
  rcases hbefore : before.filter fun t => t.wake.isGraceOf n with _ | ⟨v, vs⟩
  · rw [hbefore, List.nil_append] at hone
    obtain ⟨rfl, hafter⟩ := List.cons.inj hone
    exact ⟨rfl, by rw [hbefore, hafter, List.append_nil]⟩
  · rw [hbefore] at hone
    simp at hone

end Timers

namespace Switchboard

variable {b : Switchboard} {epoch : Int} {id : String} {owner : Nat} {s : Station}
  {t : Timer Alarm} {rest : Timers Alarm}

namespace Orderly

/-! ### Time -/

/-- The clock moves to the next timer, which is taken. -/
lemma take (h : b.Orderly epoch) (hnext : b.timers.next? = some (t, rest)) :
    Orderly epoch ({ b with timers := rest }.moveTo t.due) :=
  { h with
    graces := fun n => by
      have hsub := Timers.gracesOf_rest hnext n
      rcases h.graces n with hnil | ⟨s, u, hs, ha, hu⟩
      · rw [hnil] at hsub
        exact .inl (List.sublist_nil.mp hsub)
      · rw [hu] at hsub
        rcases List.sublist_singleton.mp hsub with hnil | hone
        · exact .inl hnil
        · exact .inr ⟨s, u, hs, ha, hone⟩ }

/-- A timer that is taken does not concern a coordinator, unless it is that of its grace period and
its latch is not set. -/
lemma share_take (h : b.Orderly epoch) (id : String) (hnext : b.timers.next? = some (t, rest))
    (hquiet : ∀ n s, b.owner? id = some n → b.stations[n]? = some s →
      t.wake.isGraceOf n = true → s.coordinator.latch.isSet = true) :
    ({ b with timers := rest }.moveTo t.due).share id = { b.share id with clock := t.due } := by
  cases howner : b.owner? id with
  | none =>
    rw [share_eq_of_none howner]
    exact share_eq_of_none (b := { b with timers := rest }.moveTo t.due) howner
  | some n =>
    obtain ⟨s, hs, -⟩ := h.exists_station howner
    have hseat : s.seat ((rest.gracesOf n).head?.map Timer.due) =
        s.seat ((b.timers.gracesOf n).head?.map Timer.due) := by
      cases hgrace : t.wake.isGraceOf n with
      | true => simp [Station.seat, hquiet n s howner hs hgrace]
      | false => rw [Timers.gracesOf_rest_of_ne hnext hgrace]
    rw [share_eq howner hs, ← hseat]
    exact share_eq (b := { b with timers := rest }.moveTo t.due) howner hs

/-- A sleep ends. -/
lemma wake_sleep (h : b.Orderly epoch) (id : String) (owner : Nat) (sleeper : Sleeper) :
    Orderly epoch (b.wake (.sleep owner sleeper)) ∧
      (b.wake (.sleep owner sleeper)).share id = b.share id := by
  obtain ⟨hended, hsame⟩ := h.sleepers id owner
    (f := fun s => { s with sleepers := s.sleepers.erase sleeper }) fun _ => ⟨rfl, rfl⟩
  obtain ⟨hreports, hshare⟩ := hended.reports id sleeper.name
  exact ⟨hreports, hshare.trans hsame⟩

lemma wake_grace_of_isSet (hs : b.stations[owner]? = some s)
    (hset : s.coordinator.latch.isSet = true) : b.wake (.grace owner) = b := by
  simp only [wake, hs, perform, Coordinator.exec_graceEnded_of_isSet hset]

/-- The grace period of a coordinator whose latch is not set ends. -/
lemma wake_grace (h : b.Orderly epoch) (hd : Dated epoch b.journal.now) (hsole : b.Sole id)
    (hs : b.stations[owner]? = some s) (hunset : s.coordinator.latch.isSet = false) :
    Orderly epoch (b.wake (.grace owner)) ∧ (b.wake (.grace owner)).share id =
      if b.owner? id = some owner then
        { b.share id with events := ⟨b.journal.now, .forceExit id⟩ :: (b.share id).events }
      else b.share id := by
  obtain ⟨k, hk, hexec⟩ := Coordinator.exec_graceEnded hunset (h.undisturbed hd)
  have hsame : b.stations.modify owner (fun s => s) = b.stations :=
    List.modify_id owner b.stations
  have hwake : b.wake (.grace owner) =
      { b with
        journal := k.add (.forceExit s.coordinator.id)
        stations := b.stations.modify owner fun s => s } := by
    simp only [wake, hs, perform, hexec, hsame]
  obtain ⟨horderly, hshare⟩ := h.alter hsole hs (f := fun s => s)
    (e := .forceExit s.coordinator.id) hk (fun _ => rfl) rfl (fun _ _ => rfl) (h.grace hs)
    (fun m hm => h.waiting owner s m hs hm) (fun m hm => .inl hm) (fun hset => hset)
  rw [hwake]
  refine ⟨horderly, hshare.trans ?_⟩
  split
  · next howner =>
    obtain rfl := h.id_of_owner howner hs
    rw [share_eq howner hs]
  · rfl

/-- The grace period of a coordinator ends before its latch is set, and the exit is forced. -/
lemma share_fire_of_owner (h : b.Orderly epoch) (hsole : b.Sole id)
    (hnext : b.timers.next? = some (t, rest)) (hd : Dated epoch t.due)
    (hwake : t.wake = .grace owner) (howner : b.owner? id = some owner)
    (hs : b.stations[owner]? = some s) (hunset : s.coordinator.latch.isSet = false) :
    (b.share id).seat.bind (·.due) = some t.due ∧
      b.fire.share id = (b.share id).force id t.due := by
  have hgrace : t.wake.isGraceOf owner = true := by simp [hwake, Alarm.isGraceOf]
  have hmem : t ∈ b.timers.gracesOf owner :=
    List.mem_filter.mpr ⟨(Timers.next?_eq_some hnext).1, hgrace⟩
  rcases h.grace hs with hnil | ⟨-, u, hone⟩
  · simp [hnil] at hmem
  · obtain ⟨rfl, hnone⟩ := Timers.gracesOf_taken hnext hgrace hone
    have htaken : ({ b with timers := rest }.moveTo u.due).share id =
        ⟨u.due, some (s.seat ((rest.gracesOf owner).head?.map Timer.due)), b.journal.eventsOf id⟩ :=
      share_eq (b := { b with timers := rest }.moveTo u.due) howner hs
    have hforced := ((h.take hnext).wake_grace hd hsole hs hunset).2.trans (if_pos howner)
    have hfire : b.fire = ({ b with timers := rest }.moveTo u.due).wake (.grace owner) := by
      rw [Switchboard.fire, hnext, ← hwake]
    rw [hfire, hforced, htaken, share_eq howner hs, hone, hnone]
    refine ⟨if_neg (by simp [hunset]), ?_⟩
    simp [Share.force, Station.seat, moveTo]

/-- The next timer fires. Whoever waits beyond it comes to the same as without a stop. -/
lemma fire (h : b.Orderly epoch) (hsole : b.Sole id) (hnext : b.timers.next? = some (t, rest))
    (hd : Dated epoch t.due) : Orderly epoch b.fire ∧
      ∀ time, t.due ≤ time → (b.fire.share id).await id time = (b.share id).await id time := by
  have htaken := h.take hnext
  have hfire : b.fire = ({ b with timers := rest }.moveTo t.due).wake t.wake := by
    rw [Switchboard.fire, hnext]
  cases hwake : t.wake with
  | sleep other sleeper =>
    obtain ⟨horderly, hshare⟩ := htaken.wake_sleep id other sleeper
    have hquiet := h.share_take id hnext fun n s _ _ hgrace => by
      rw [hwake] at hgrace
      simp [Alarm.isGraceOf] at hgrace
    rw [hfire, hwake]
    exact ⟨horderly, fun time _ => by rw [hshare, hquiet, Share.await_moved]⟩
  | grace owner =>
    have hgrace : ∀ n, t.wake.isGraceOf n = true → owner = n := by simp [hwake, Alarm.isGraceOf]
    have hmem : t ∈ b.timers.gracesOf owner :=
      List.mem_filter.mpr ⟨(Timers.next?_eq_some hnext).1, by simp [hwake, Alarm.isGraceOf]⟩
    obtain hnil | ⟨s, -, hs, -, -⟩ := h.graces owner
    · simp [hnil] at hmem
    cases hset : s.coordinator.latch.isSet with
    | true =>
      have hquiet := h.share_take id hnext fun n s' _ hs' hn => by
        obtain rfl := hgrace n hn
        obtain rfl := Option.some.inj (hs.symm.trans hs')
        exact hset
      have hidle := wake_grace_of_isSet (b := { b with timers := rest }.moveTo t.due) hs hset
      rw [hfire, hwake, hidle]
      exact ⟨htaken, fun time _ => by rw [hquiet, Share.await_moved]⟩
    | false =>
      obtain ⟨horderly, hshare⟩ := htaken.wake_grace hd hsole hs hset
      by_cases howner : b.owner? id = some owner
      · obtain ⟨hdue, hforced⟩ := h.share_fire_of_owner hsole hnext hd hwake howner hs hset
        rw [hforced, hfire, hwake]
        exact ⟨horderly, fun time hle => Share.await_force hdue hle⟩
      · have hquiet := h.share_take id hnext fun n s' hn _ hgraceOf =>
          absurd (hgrace n hgraceOf ▸ hn) howner
        rw [hfire, hwake]
        exact ⟨horderly, fun time _ => by
          rw [hshare.trans (if_neg howner), hquiet, Share.await_moved]⟩

/-- The clock moves to a moment before any timer is due. -/
lemma moveTo (h : b.Orderly epoch) (id : String) {time : Nat}
    (hlate : ∀ t ∈ b.timers, time < t.due) : Orderly epoch (b.moveTo time) ∧
      (b.moveTo time).share id = (b.share id).await id time := by
  refine ⟨{ h with }, ?_⟩
  have hmoved : (b.moveTo time).share id = { b.share id with clock := time } := rfl
  rw [hmoved, Share.await]
  split
  · rfl
  · next due hdue =>
    obtain ⟨c, hc, hcdue⟩ := Option.bind_eq_some_iff.mp hdue
    obtain ⟨owner, -, hseat⟩ := Option.bind_eq_some_iff.mp hc
    obtain ⟨s, -, rfl⟩ := Option.map_eq_some_iff.mp hseat
    have hlt : time < due := by
      rw [Station.seat] at hcdue
      split at hcdue
      · simp at hcdue
      · obtain ⟨t, ht, rfl⟩ := Option.map_eq_some_iff.mp hcdue
        exact hlate t (List.mem_filter.mp (List.mem_of_mem_head? ht)).1
    rw [if_neg (Nat.not_le.mpr hlt)]

end Orderly

/-- Firing takes the next timer away and starts none. -/
lemma timers_fire (hnext : b.timers.next? = some (t, rest)) : b.fire.timers = rest := by
  have hwake : ∀ (b : Switchboard) (alarm : Alarm), (b.wake alarm).timers = b.timers := by
    intro b alarm
    cases alarm with
    | sleep owner sleeper => rfl
    | grace owner =>
      simp only [wake]
      split
      · rfl
      · next s _ =>
        rcases hact : s.coordinator.graceEnded.exec b.journal with ⟨e | forced, k⟩
        · simp only [perform, hact]
        · simp only [perform, hact]
          cases forced <;> rfl
  rw [fire, hnext]
  exact hwake _ _

lemma length_timers_drain (b : Switchboard) : b.drain.timers.length ≤ b.timers.length := by
  have hfold : ∀ (q : List Reaction) (b : Switchboard),
      (q.foldl Switchboard.react b).timers.length ≤ b.timers.length := by
    intro q
    induction q with
    | nil => exact fun b => Nat.le_refl _
    | cons r q ih =>
      intro b
      refine Nat.le_trans (ih (b.react r)) ?_
      cases r with
      | stopGrace owner => exact List.length_filter_le _ _
      | report name => exact Nat.le_refl _
  exact hfold b.queue { b with queue := [] }

namespace Orderly

/-- Every timer that is due on the way fires. -/
lemma advanceTo (flush : Bool) {time fuel : Nat} (hd : Dated epoch time)
    (h : b.Orderly epoch) (hsole : b.Sole id) (hfuel : b.timers.length ≤ fuel) :
    Orderly epoch ((clockwork flush).advanceTo time fuel b) ∧
      ((clockwork flush).advanceTo time fuel b).share id = (b.share id).await id time := by
  induction fuel generalizing b with
  | zero =>
    have hnil : b.timers = [] := List.length_eq_zero_iff.mp (Nat.le_zero.mp hfuel)
    exact h.moveTo id (by simp [hnil])
  | succ fuel ih =>
    have hdue : (clockwork flush).nextDue b = b.timers.next?.map (·.1.due) := rfl
    rw [Clockwork.advanceTo, hdue]
    cases hnext : b.timers.next? with
    | none => exact h.moveTo id (by simp [Timers.next?_eq_none.mp hnext])
    | some next =>
      obtain ⟨t, rest⟩ := next
      obtain ⟨-, hfirst, hlength⟩ := Timers.next?_eq_some hnext
      simp only [Option.map_some]
      split
      · next hle =>
        obtain ⟨hfired, hshare⟩ := h.fire hsole hnext (hd.earlier hle)
        have hrest : b.fire.timers.length ≤ fuel := by
          rw [timers_fire hnext]
          omega
        have hstays := b.stays_fire
        cases flush with
        | false =>
          obtain ⟨horderly, hawaits⟩ := ih hfired (hsole.stays hstays) hrest
          exact ⟨horderly, hawaits.trans (hshare time hle)⟩
        | true =>
          obtain ⟨hdrained, hsame⟩ := hfired.drain (hsole.stays hstays)
          obtain ⟨horderly, hawaits⟩ := ih hdrained (hsole.stays (hstays.trans b.fire.stays_drain))
            (Nat.le_trans b.fire.length_timers_drain hrest)
          rw [hsame] at hawaits
          exact ⟨horderly, hawaits.trans (hshare time hle)⟩
      · next hlt =>
        exact h.moveTo id fun u hu => Nat.lt_of_lt_of_le (Nat.not_le.mp hlt) (hfirst u hu)

lemma advance (h : b.Orderly epoch) (hsole : b.Sole id) (flush : Bool) {ms : Nat}
    (hd : Dated epoch (b.journal.now + ms)) : Orderly epoch (b.advance flush ms) ∧
      (b.advance flush ms).share id = (b.share id).await id (b.journal.now + ms) := by
  cases flush with
  | false => exact advanceTo false hd h hsole (Nat.le_refl _)
  | true =>
    obtain ⟨hdrained, hsame⟩ := h.drain hsole
    have hnow : b.drain.journal.now = b.journal.now := congrArg Share.clock hsame
    rw [← hnow] at hd
    obtain ⟨horderly, hawaits⟩ := advanceTo true hd hdrained (hsole.stays b.stays_drain)
      (Nat.le_refl _)
    rw [hsame, hnow] at hawaits
    rw [Switchboard.advance, if_pos rfl, hnow]
    rw [hnow] at horderly
    exact ⟨horderly, hawaits⟩

/-! ### Commands -/

/-- What a command to a name does to the coordinator that the name stands for. -/
lemma withOwner (h : b.Orderly epoch) (id other : String) {f : Switchboard → Nat → Switchboard}
    {g : Share → Share} (hg : ∀ x : Share, x.seat = none → g x = x)
    (hf : ∀ owner s, b.stations[owner]? = some s → Orderly epoch (f b owner) ∧
      (f b owner).share id = if b.owner? id = some owner then g (b.share id) else b.share id) :
    Orderly epoch (b.withOwner other f) ∧
      (b.withOwner other f).share id = if other = id then g (b.share id) else b.share id := by
  cases howner : b.owner? other with
  | none =>
    have hsame : b.withOwner other f = b := by rw [Switchboard.withOwner, howner]
    rw [hsame]
    refine ⟨h, ?_⟩
    split
    · next hid =>
      subst hid
      exact (hg _ (by rw [Switchboard.share, howner]; rfl)).symm
    · rfl
  | some owner =>
    have hdone : b.withOwner other f = f b owner := by rw [Switchboard.withOwner, howner]
    obtain ⟨s, hs, hid⟩ := h.exists_station howner
    obtain ⟨horderly, hshare⟩ := hf owner s hs
    rw [hdone]
    refine ⟨horderly, hshare.trans (if_congr ?_ rfl rfl)⟩
    exact ⟨fun hown => hid.symm.trans (h.id_of_owner hown hs), fun hname => hname ▸ howner⟩

lemma execute (h : b.Orderly epoch) (hsole : b.Sole id) (flush : Bool) (command : Command)
    (hd : Dated epoch (b.journal.now + command.duration)) :
    Orderly epoch (b.execute flush command) ∧
      (b.execute flush command).share id = (b.share id).after id command := by
  cases command with
  | arm other source signals gracePeriod =>
    exact ⟨h.arm other source signals gracePeriod, h.share_arm id other source signals gracePeriod⟩
  | signal source name => exact h.deliver hd hsole source name
  | request other reason =>
    refine h.withOwner id other (f := fun b owner => b.request owner reason)
      (g := fun x => x.ask id reason) (fun x hx => ?_)
      fun owner s _ => h.request hd hsole owner reason
    rw [Share.ask, hx]
  | complete other =>
    refine h.withOwner id other (g := Share.complete id) (fun x hx => ?_)
      fun owner s hs => h.complete hsole hs
    rw [Share.complete, hx]
  | dispose other =>
    refine h.withOwner id other (g := Share.dispose id) (fun x hx => ?_)
      fun owner s hs => h.dispose hsole hs
    rw [Share.dispose, hx]
  | watch other name =>
    obtain ⟨horderly, hshare⟩ := h.withOwner id other (g := fun x => x)
      (f := fun b owner => b.watch owner name) (fun _ _ => rfl) fun owner s hs => by
        rw [ite_self]
        exact h.watch hsole hs name
    rw [ite_self] at hshare
    exact ⟨horderly, hshare⟩
  | sleep other name ms =>
    obtain ⟨horderly, hshare⟩ := h.withOwner id other (g := fun x => x)
      (f := fun b owner => b.sleep owner name ms) (fun _ _ => rfl) fun owner s hs => by
        rw [ite_self]
        exact h.sleep id hs name ms
    rw [ite_self] at hshare
    exact ⟨horderly, hshare⟩
  | pass ms => exact h.advance hsole flush hd

end Orderly

/-! ### Any number of orders -/

/-- A name is on the roster as often as it was armed. -/
lemma count_roster (id : String) (past : List Order) :
    (Order.roster past).countP (·.id = id) = past.countP fun o => o.command.arms id := by
  have hstrike : ∀ (other : String) (es : List Enrolment),
      (Enrolment.strike other es).countP (·.id = id) = es.countP (·.id = id) := by
    intro other es
    have hids := congrArg (List.countP (· = id)) (Enrolment.map_id_strike other es)
    rwa [List.countP_map, List.countP_map] at hids
  induction past with
  | nil => rfl
  | cons o past ih =>
    obtain ⟨command, flush⟩ := o
    rw [List.countP_cons]
    cases command with
    | arm other source signals gracePeriod => rw [Order.roster, List.countP_cons, ih]; rfl
    | dispose other => rw [Order.roster, hstrike, ih]; rfl
    | _ => exact ih

/-- The share of a coordinator in a board is what the orders call for. -/
theorem share_board {console : Console} {past : List Order} (hfault : console.fault = none)
    (hd : Dated epoch (Order.clock past))
    (honce : past.countP (fun o => o.command.arms id) ≤ 1) :
    (board console epoch past).Orderly epoch ∧
      (board console epoch past).share id = Share.run id past := by
  induction past with
  | nil =>
    exact ⟨{ fault := hfault, epoch := rfl, escaped := rfl, named := fun _ => rfl,
             graces := fun _ => .inl rfl,
             waiting := fun n s m hs _ => by simp [board] at hs
             queued := fun m hm => by simp [board] at hm }, rfl⟩
  | cons o past ih =>
    have hs := List.suffix_cons o past
    obtain ⟨horderly, hshare⟩ := ih (hd.earlier (Order.clock_le_of_suffix hs))
      (Nat.le_trans hs.sublist.countP_le honce)
    obtain ⟨hregister, hnamed⟩ := register_board console epoch past
    have hsole : (board console epoch past).Sole id := by
      rw [Sole, hregister, count_roster]
      exact Nat.le_trans hs.sublist.countP_le honce
    have hsole' : ((board console epoch past).execute o.flush o.command).Sole id := by
      rw [Sole, (hnamed.execute o.flush o.command hregister).1, count_roster]
      exact honce
    have hnow : (board console epoch past).journal.now = Order.clock past :=
      (congrArg Share.clock hshare).trans (Share.clock_run id past)
    rw [Order.clock_cons, ← hnow] at hd
    obtain ⟨hexecuted, hafter⟩ := horderly.execute hsole o.flush o.command hd
    obtain ⟨hdrained, hsame⟩ := hexecuted.drain hsole'
    rw [hshare] at hafter
    rw [board, obey]
    split
    · exact ⟨hdrained, hsame.trans hafter⟩
    · exact ⟨hexecuted, hafter⟩

/-- **Coordinators do not interfere.** Whatever coordinators are armed on a board, at any times and
with any signals and grace periods, and whatever the board is ordered: the state of each that has a
name of its own, and its events with their times, are those that it would have alone, under the
orders to its name, the signals and the passing of time. And a signal has as many listeners as the
coordinators that were not disposed of have entries for it. -/
theorem coordinators_independent (console : Console) (epoch : Int) (past : List Order)
    (hfault : console.fault = none) (hd : Dated epoch (Order.clock past)) :
    (∀ id, past.countP (fun o => o.command.arms id) ≤ 1 →
      (board console epoch past).share id =
        (board console epoch (past.filter fun o => o.command.reaches id)).share id) ∧
    ∀ source signal, (board console epoch past).listeners source signal =
      Enrolment.listeners source signal (Order.roster past) := by
  refine ⟨fun id honce => ?_, fun source signal => ?_⟩
  · have halone : (past.filter fun o => o.command.reaches id).countP
        (fun o => o.command.arms id) ≤ 1 :=
      Nat.le_trans List.filter_sublist.countP_le honce
    have hclock : Order.clock (past.filter fun o => o.command.reaches id) = Order.clock past := by
      rw [← Share.clock_run id, ← Share.clock_run id, Share.run_filter]
    rw [(share_board hfault hd honce).2,
      (share_board hfault (by rw [hclock]; exact hd) halone).2, Share.run_filter]
  · rw [listeners_eq, (register_board console epoch past).1]

/-- Two coordinators with the same signals, one of which is disposed of twice while the grace period
of the other runs out. -/
theorem coordinators_independent_disposed :
    let past : List Order :=
      [⟨.pass 5000, true⟩, ⟨.dispose "b", true⟩, ⟨.dispose "b", false⟩, ⟨.complete "b", false⟩,
        ⟨.signal .shared "SIGTERM", false⟩, ⟨.pass 100, true⟩,
        ⟨.arm "b" .shared ["SIGTERM", "SIGTERM"] 5000, true⟩,
        ⟨.arm "a" .shared ["SIGTERM"] 5000, true⟩]
    let alone : List Order :=
      [⟨.pass 5000, true⟩, ⟨.signal .shared "SIGTERM", false⟩, ⟨.pass 100, true⟩,
        ⟨.arm "a" .shared ["SIGTERM"] 5000, true⟩]
    (board ⟨.everything, none, 0⟩ 0 past).share "a" =
      (board ⟨.everything, none, 0⟩ 0 alone).share "a" ∧
    (board ⟨.everything, none, 0⟩ 0 past).journal.times Event.isForceExit = [5100] ∧
    (board ⟨.everything, none, 0⟩ 0 past).listeners .shared "SIGTERM" = 1 := by
  intro past alone
  obtain ⟨hshares, hlisteners⟩ := coordinators_independent ⟨.everything, none, 0⟩ 0 past rfl
    ⟨by decide, by decide⟩
  exact ⟨hshares "a" (by decide), by decide +kernel,
    (hlisteners .shared "SIGTERM").trans (by decide)⟩

end Switchboard

end EdgeCaller

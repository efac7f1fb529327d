import Mathlib.Data.Fintype.EquivFin
import EdgeCaller.Proofs.Shutdown.Naps
/-!
When sleeps end.

A sleep ends when its timer is due, or when the coordinator whose abort ends it is aborted,
whichever comes first; one that begins after the abort is over at once. Which sleeps were begun, and
when each coordinator was aborted, can be told from the orders. The sleeps that have not ended by
now are those that the board holds, and each of the others was reported once, at its end.
-/

namespace EdgeCaller

/-- When a sleep ends, if its coordinator is aborted at this time. -/
def Nap.ends (x : Nap) : Option Nat → Nat
  | none => x.due
  | some abort => min x.due (max x.began abort)

namespace Nap

variable {x : Nap} {clock : Nat} {abort : Option Nat} {aborts : Bool}

lemma began_lt_due (x : Nap) : x.began < x.due :=
  Nat.lt_add_of_pos_right (Timers.effectiveDelay_pos x.ms)

/-- A sleep that begins after the abort is over at once. -/
lemma ends_eq_began {time : Nat} (htime : time ≤ x.began) : x.ends (some time) = x.began := by
  rw [ends, Nat.max_eq_left htime]
  exact Nat.min_eq_right (Nat.le_of_lt x.began_lt_due)

/-- After an abort that came before no sleep goes on. -/
lemma ends_le {time : Nat} (hbegan : x.began ≤ clock) (htime : time ≤ clock) :
    x.ends (some time) ≤ clock := by
  rw [ends]
  omega

/-- An abort now ends a sleep that goes on, and changes nothing else. -/
lemma ends_or (hbegan : x.began ≤ clock) (habort : ∀ time ∈ abort, time ≤ clock)
    (hmono : abort.isSome = true → aborts = true) :
    (x.ends (abort.or (if aborts then some clock else none)) = x.ends abort ∧
      (x.ends abort ≤ clock ∨ aborts = false)) ∨
    (clock < x.ends abort ∧ aborts = true ∧
      x.ends (abort.or (if aborts then some clock else none)) = clock) := by
  cases abort with
  | some time => exact .inl ⟨rfl, .inl (ends_le hbegan (habort time rfl))⟩
  | none =>
    cases aborts with
    | false => exact .inl ⟨rfl, .inr rfl⟩
    | true =>
      have hnow : x.ends (some clock) = min x.due clock := by
        rw [ends, Nat.max_eq_right hbegan]
      have hnone : x.ends none = x.due := rfl
      rw [Option.none_or, if_pos rfl, hnow, hnone]
      by_cases hlt : clock < x.due
      · exact .inr ⟨hlt, rfl, Nat.min_eq_right (Nat.le_of_lt hlt)⟩
      · exact .inl ⟨Nat.min_eq_left (Nat.not_lt.mp hlt), .inl (Nat.not_lt.mp hlt)⟩

end Nap

namespace Switchboard

/-! ### Sleeps and aborts by the orders -/

section Orders

variable (console : Console) (epoch : Int)

/-- The sleeps that were begun, oldest first. -/
def naps : List Order → List Nap
  | [] => []
  | o :: past => naps past ++
    match o.command with
    | .sleep id name ms =>
      (((board console epoch past).owner? id).map fun owner =>
        ⟨owner, ⟨(board console epoch past).tickets, name⟩, Order.clock past, ms⟩).toList
    | _ => []

/-- When a coordinator was aborted. -/
def abortedAt (n : Nat) : List Order → Option Nat
  | [] => none
  | o :: past => (abortedAt n past).or
    (if (board console epoch (o :: past)).isAborted n then some (Order.clock (o :: past)) else none)

/-- When a sleep ends, by the orders so far. -/
def endOf (past : List Order) (x : Nap) : Nat := x.ends (abortedAt console epoch x.owner past)

/-- The sleeps that have not ended, oldest first. -/
def asleep (past : List Order) : List Nap :=
  (naps console epoch past).filter fun x => Order.clock past < endOf console epoch past x

/-- The ends of the sleeps of one name that have ended. -/
def ended (name : String) (past : List Order) : List Nat :=
  ((naps console epoch past).filter fun x =>
    x.sleeper.name = name ∧ endOf console epoch past x ≤ Order.clock past).map
      (endOf console epoch past)

end Orders

/-- What is queued is worked off before time passes. -/
def Prompt (past : List Order) : Prop := ∀ o ∈ past, ∀ ms, o.command = .pass ms → o.flush = true

/-! ### One order -/

/-- What has ended after some sleeps were ended now. -/
lemma ended_perm {xs : List Nap} {clock : Nat} {e e' : Nap → Nat} {p : Nap → Prop}
    [DecidablePred p] {q : Nap → Bool}
    (h : ∀ x ∈ xs, (e' x = e x ∧ (e x ≤ clock ∨ q x = false)) ∨
      (clock < e x ∧ q x = true ∧ e' x = clock)) :
    ((xs.filter fun x => p x ∧ e' x ≤ clock).map e').Perm
      (List.replicate ((xs.filter (clock < e ·)).countP fun x => p x ∧ q x) clock ++
        (xs.filter fun x => p x ∧ e x ≤ clock).map e) := by
  rw [List.countP_filter]
  induction xs with
  | nil => exact .refl _
  | cons x xs ih =>
    obtain ⟨hx, hxs⟩ := List.forall_mem_cons.mp h
    have hrest := ih hxs
    by_cases hp : p x
    · obtain ⟨hsame, hle | hkept⟩ | ⟨hlt, hq, hnow⟩ := hx
      · have hnot : ¬ clock < e x := Nat.not_lt.mpr hle
        simpa [hp, hsame, hle, hnot] using hrest.cons (e x) |>.trans List.perm_middle.symm
      · by_cases hle : e x ≤ clock
        · simpa [hp, hsame, hle, hkept] using hrest.cons (e x) |>.trans List.perm_middle.symm
        · simpa [hp, hsame, hle, hkept] using hrest
      · have hnot : ¬ e x ≤ clock := Nat.not_le.mpr hlt
        simpa [hp, hq, hlt, hnow, hnot, List.replicate_succ] using hrest.cons clock
    · simpa [hp] using hrest

/-- What has ended by a later time are the sleeps that ended on the way, and those before. -/
lemma ended_later_perm {xs : List Nap} {clock time : Nat} {e : Nap → Nat} {p : Nap → Prop}
    [DecidablePred p] (hle : clock ≤ time) :
    ((((xs.filter (clock < e ·)).filter fun x => p x ∧ e x ≤ time).map e) ++
      (xs.filter fun x => p x ∧ e x ≤ clock).map e).Perm
        ((xs.filter fun x => p x ∧ e x ≤ time).map e) := by
  have hbefore : xs.filter (fun x => p x ∧ e x ≤ clock) =
      (xs.filter fun x => p x ∧ e x ≤ time).filter fun x => !decide (clock < e x) := by
    rw [List.filter_filter]
    refine List.filter_congr fun x _ => ?_
    rw [← decide_not, ← Bool.decide_and, decide_eq_decide]
    constructor
    · exact fun ⟨hp, hx⟩ => ⟨Nat.not_lt.mpr hx, hp, Nat.le_trans hx hle⟩
    · exact fun ⟨hx, hp, _⟩ => ⟨hp, Nat.not_lt.mp hx⟩
  rw [hbefore, List.filter_comm, ← List.map_append]
  exact (List.filter_append_perm _ _).map e

/-- The board holds the sleeps that the orders call for. -/
structure Tracks (console : Console) (epoch : Int) (name : String) (past : List Order) : Prop where
  rests : Rests name (Prompt past) (asleep console epoch past) (ended console epoch name past)
    (board console epoch past)
  now : (board console epoch past).journal.now = Order.clock past
  aborted : ∀ n, (board console epoch past).isAborted n = (abortedAt console epoch n past).isSome
  earlier : ∀ n, ∀ time ∈ abortedAt console epoch n past, time ≤ Order.clock past
  began : ∀ x ∈ naps console epoch past, x.began ≤ Order.clock past

variable {console : Console} {epoch : Int} {name : String} {past : List Order} {o : Order}

lemma Prompt.of_cons (h : Prompt (o :: past)) : Prompt past :=
  fun o' ho' => h o' (List.mem_cons_of_mem o ho')

lemma quiet_obey (o : Order) (past : List Order) :
    Quiet name ((board console epoch past).execute o.flush o.command)
      (board console epoch (o :: past)) := by
  rw [board, obey]
  split
  · exact quiet_drain _
  · exact .refl name _

/-- Every name stands for a coordinator on the board. -/
lemma exists_station_of_owner? {id : String} {owner : Nat}
    (howner : (board console epoch past).owner? id = some owner) :
    ∃ s, (board console epoch past).stations[owner]? = some s := by
  obtain ⟨-, hnamed⟩ := register_board console epoch past
  have hlt := Enrolment.newest_lt ((hnamed id).symm.trans howner)
  rw [length_register] at hlt
  exact ⟨_, List.getElem?_eq_getElem hlt⟩

namespace Tracks

/-- An order that takes no time and begins no sleep ends those whose coordinators it aborts. -/
lemma wakes (h : Tracks console epoch name past) (hduration : o.command.duration = 0)
    (hnaps : naps console epoch (o :: past) = naps console epoch past)
    (hwakes : Rests.Wakes name (Prompt past) (asleep console epoch past)
      (ended console epoch name past) (board console epoch past)
        (board console epoch (o :: past))) : Tracks console epoch name (o :: past) := by
  obtain ⟨hnow, hmono, hrests⟩ := hwakes
  have hclock : Order.clock (o :: past) = Order.clock past := by
    rw [Order.clock_cons, hduration, Nat.add_zero]
  have hsome : ∀ n, (abortedAt console epoch n past).isSome = true →
      (board console epoch (o :: past)).isAborted n = true := fun n hn =>
    hmono n ((h.aborted n).trans hn)
  have hends : ∀ x ∈ naps console epoch past,
      (endOf console epoch (o :: past) x = endOf console epoch past x ∧
        (endOf console epoch past x ≤ Order.clock past ∨
          (board console epoch (o :: past)).isAborted x.owner = false)) ∨
      (Order.clock past < endOf console epoch past x ∧
        (board console epoch (o :: past)).isAborted x.owner = true ∧
          endOf console epoch (o :: past) x = Order.clock past) := fun x hx => by
    rw [endOf, endOf, abortedAt, hclock]
    exact Nap.ends_or (h.began x hx) (h.earlier x.owner) (hsome x.owner)
  have hasleep : asleep console epoch (o :: past) = (asleep console epoch past).filter
      fun x => !(board console epoch (o :: past)).isAborted x.owner := by
    rw [asleep, asleep, hnaps, hclock, List.filter_filter]
    refine List.filter_congr fun x hx => ?_
    obtain ⟨hsame, hle | hkept⟩ | ⟨-, haborts, hend⟩ := hends x hx
    · simp [hsame, Nat.not_lt.mpr hle]
    · simp [hsame, hkept]
    · simp [hend, haborts]
  constructor
  case rests =>
    rw [hasleep]
    refine (hrests.weaken Prompt.of_cons).perm ?_
    have hended : ended console epoch name (o :: past) = ((naps console epoch past).filter fun x =>
        x.sleeper.name = name ∧ endOf console epoch (o :: past) x ≤ Order.clock past).map
          (endOf console epoch (o :: past)) := by
      rw [ended, hnaps, hclock]
    rw [h.now, hended]
    exact (ended_perm hends).symm
  case now =>
    rw [hnow, h.now, hclock]
  case aborted =>
    intro n
    rw [abortedAt, Option.isSome_or]
    cases habort : (abortedAt console epoch n past).isSome with
    | true => exact hsome n habort
    | false => cases (board console epoch (o :: past)).isAborted n <;> rfl
  case earlier =>
    intro n time htime
    rw [hclock]
    rw [abortedAt, hclock] at htime
    rcases habort : abortedAt console epoch n past with - | earlier
    · rw [habort, Option.none_or] at htime
      split at htime
      · exact Nat.le_of_eq (Option.some.inj htime).symm
      · simp at htime
    · rw [habort, Option.some_or] at htime
      exact h.earlier n time (habort.trans htime)
  case began =>
    intro x hx
    rw [hclock]
    exact h.began x (hnaps ▸ hx)

/-- An order that aborts no coordinator leaves the times of the aborts as they are. -/
lemma abortedAt_cons (h : Tracks console epoch name past)
    (haborted : ∀ n, (board console epoch (o :: past)).isAborted n =
      (board console epoch past).isAborted n) (n : Nat) :
    abortedAt console epoch n (o :: past) = abortedAt console epoch n past := by
  rw [abortedAt, haborted, h.aborted]
  cases abortedAt console epoch n past <;> rfl

lemma endOf_cons (h : Tracks console epoch name past)
    (haborted : ∀ n, (board console epoch (o :: past)).isAborted n =
      (board console epoch past).isAborted n) :
    endOf console epoch (o :: past) = endOf console epoch past :=
  funext fun x => by rw [endOf, h.abortedAt_cons haborted, endOf]

/-- The sleeps that go on are those of coordinators that were not aborted. -/
lemma endOf_eq_due (h : Tracks console epoch name past) {x : Nap}
    (hx : x ∈ asleep console epoch past) : endOf console epoch past x = x.due := by
  have hnone := h.rests.awake x hx
  rw [h.aborted, Option.isSome_eq_false_iff, Option.isNone_iff_eq_none] at hnone
  rw [endOf, hnone]
  rfl

/-- An order that aborts no coordinator. -/
lemma of_not_aborted (h : Tracks console epoch name past)
    (haborted : ∀ n, (board console epoch (o :: past)).isAborted n =
      (board console epoch past).isAborted n)
    (hnaps : ∀ x ∈ naps console epoch (o :: past),
      x ∈ naps console epoch past ∨ x.began = Order.clock past)
    (hnow : (board console epoch (o :: past)).journal.now = Order.clock (o :: past))
    (hrests : Rests name (Prompt (o :: past)) (asleep console epoch (o :: past))
      (ended console epoch name (o :: past)) (board console epoch (o :: past))) :
    Tracks console epoch name (o :: past) := by
  have hle : Order.clock past ≤ Order.clock (o :: past) :=
    Order.clock_le_of_suffix (List.suffix_cons o past)
  refine ⟨hrests, hnow, fun n => ?_, fun n time htime => ?_, fun x hx => ?_⟩
  · rw [haborted, h.aborted, h.abortedAt_cons haborted]
  · rw [h.abortedAt_cons haborted] at htime
    exact Nat.le_trans (h.earlier n time htime) hle
  · obtain hx | hbegan := hnaps x hx
    · exact Nat.le_trans (h.began x hx) hle
    · exact hbegan ▸ hle

/-- Time passes, and those sleeps end that are due. -/
lemma pass (h : Tracks console epoch name past) (ms : Nat) (flush : Bool) :
    Tracks console epoch name (⟨.pass ms, flush⟩ :: past) := by
  obtain ⟨hnow, hsame, hrests⟩ := (h.rests.weaken Prompt.of_cons).advance flush
    (fun hp : Prompt (⟨.pass ms, flush⟩ :: past) => hp _ List.mem_cons_self ms rfl) ms
  have hquiet : Quiet name ((board console epoch past).advance flush ms)
      (board console epoch (⟨.pass ms, flush⟩ :: past)) := quiet_obey ⟨.pass ms, flush⟩ past
  have hclock : Order.clock (⟨.pass ms, flush⟩ :: past) = Order.clock past + ms :=
    Order.clock_cons _ _
  have hnaps : naps console epoch (⟨.pass ms, flush⟩ :: past) = naps console epoch past :=
    List.append_nil _
  have haborted : ∀ n, (board console epoch (⟨.pass ms, flush⟩ :: past)).isAborted n =
      (board console epoch past).isAborted n := fun n => (hquiet.isAborted n).trans (hsame n)
  have hend := h.endOf_cons haborted
  rw [h.now] at hnow hrests
  have hasleep : (asleep console epoch past).filter (Order.clock past + ms < ·.due) =
      asleep console epoch (⟨.pass ms, flush⟩ :: past) := by
    rw [List.filter_congr fun x hx => by rw [← h.endOf_eq_due hx], asleep, asleep, hnaps, hclock,
      hend, List.filter_filter]
    refine List.filter_congr fun x _ => ?_
    rw [← Bool.decide_and, decide_eq_decide]
    omega
  have hended : ((((asleep console epoch past).filter fun x =>
      x.sleeper.name = name ∧ x.due ≤ Order.clock past + ms).map Nap.due) ++
        ended console epoch name past).Perm
          (ended console epoch name (⟨.pass ms, flush⟩ :: past)) := by
    rw [List.filter_congr fun x hx => by rw [← h.endOf_eq_due hx],
      List.map_congr_left fun x hx => (h.endOf_eq_due (List.mem_filter.mp hx).1).symm,
      ended, ended, hnaps, hclock, hend]
    exact ended_later_perm (Nat.le_add_right _ ms)
  refine h.of_not_aborted haborted (fun x hx => .inl (hnaps ▸ hx)) ?_ ?_
  · rw [hquiet.now, hnow, hclock]
  · exact hasleep ▸ (hrests.quiet hquiet).perm hended

/-- A sleep begins that the abort of a coordinator ends. -/
lemma sleep (h : Tracks console epoch name past) {id other : String} {ms : Number} {flush : Bool}
    {owner : Nat} (howner : (board console epoch past).owner? id = some owner) :
    Tracks console epoch name (⟨.sleep id other ms, flush⟩ :: past) := by
  obtain ⟨s, hs⟩ := exists_station_of_owner? howner
  have hquiet : Quiet name ((board console epoch past).sleep owner other ms)
      (board console epoch (⟨.sleep id other ms, flush⟩ :: past)) := by
    have hexecuted : (board console epoch past).execute flush (.sleep id other ms) =
        (board console epoch past).sleep owner other ms := by
      simp only [execute, withOwner, howner]
    rw [← hexecuted]
    exact quiet_obey ⟨.sleep id other ms, flush⟩ past
  have hclock : Order.clock (⟨.sleep id other ms, flush⟩ :: past) = Order.clock past :=
    Order.clock_cons _ _
  let x : Nap := ⟨owner, ⟨(board console epoch past).tickets, other⟩, Order.clock past, ms⟩
  have hnaps : naps console epoch (⟨.sleep id other ms, flush⟩ :: past) =
      naps console epoch past ++ [x] := by
    simp only [naps, howner, Option.map_some, Option.toList_some, x]
  have haborted : ∀ n, (board console epoch (⟨.sleep id other ms, flush⟩ :: past)).isAborted n =
      (board console epoch past).isAborted n := fun n =>
    (hquiet.isAborted n).trans (isAborted_sleep _ _ _ _ n)
  have hend := h.endOf_cons haborted
  have hasleep : asleep console epoch (⟨.sleep id other ms, flush⟩ :: past) =
      asleep console epoch past ++
        [x].filter (Order.clock past < endOf console epoch past ·) := by
    rw [asleep, hnaps, hclock, hend, List.filter_append, asleep]
  have hended : ended console epoch name (⟨.sleep id other ms, flush⟩ :: past) =
      ended console epoch name past ++ ([x].filter fun x => x.sleeper.name = name ∧
        endOf console epoch past x ≤ Order.clock past).map (endOf console epoch past) := by
    rw [ended, hnaps, hclock, hend, List.filter_append, List.map_append, ended]
  have hrests := h.rests.weaken (Prompt.of_cons (o := ⟨.sleep id other ms, flush⟩))
  refine h.of_not_aborted haborted (fun y hy => ?_) ?_ ?_
  · rw [hnaps] at hy
    obtain hy | hy := List.mem_append.mp hy
    · exact .inl hy
    · exact .inr (congrArg Nap.began (List.mem_singleton.mp hy))
  · rw [hquiet.now, now_sleep, h.now, hclock]
  rw [hasleep, hended]
  refine Rests.quiet ?_ hquiet
  cases habort : abortedAt console epoch owner past with
  | none =>
    have hdue : endOf console epoch past x = x.due := by
      rw [endOf, show x.owner = owner from rfl, habort]
      rfl
    have ha : s.coordinator.isAborted = false := by
      rw [← Rests.isAborted_eq hs, h.aborted, habort]
      rfl
    have hslept := hrests.sleep_of_not_aborted hs ha other ms
    have hlt : Order.clock past < x.due := x.began_lt_due
    simpa [hdue, hlt, h.now] using hslept
  | some time =>
    have hnow : endOf console epoch past x = Order.clock past := by
      rw [endOf, show x.owner = owner from rfl, habort]
      exact Nap.ends_eq_began (h.earlier owner time habort)
    have ha : s.coordinator.isAborted = true := by
      rw [← Rests.isAborted_eq hs, h.aborted, habort]
      rfl
    have hslept := hrests.sleep_of_aborted hs ha other ms
    rw [h.now] at hslept
    change Rests name _ _ (if x.sleeper.name = name then _ else _) _ at hslept
    split at hslept
    · next hname =>
      simpa [hnow, hname] using hslept.perm (List.perm_append_singleton _ _).symm
    · next hname => simpa [hnow, hname] using hslept

lemma step (h : Tracks console epoch name past) (hfree : o.command.waiter? ≠ some name) :
    Tracks console epoch name (o :: past) := by
  obtain ⟨command, flush⟩ := o
  have hwakes : ∀ {c : Command}, c.duration = 0 →
      naps console epoch (⟨c, flush⟩ :: past) = naps console epoch past →
      Rests.Wakes name (Prompt past) (asleep console epoch past) (ended console epoch name past)
        (board console epoch past) ((board console epoch past).execute flush c) →
      Tracks console epoch name (⟨c, flush⟩ :: past) := fun {c} hduration hnaps hexecuted =>
    h.wakes hduration hnaps (hexecuted.trans fun hrests =>
      hrests.wakes_of_quiet (quiet_obey ⟨c, flush⟩ past))
  have howner : ∀ {id : String} {f : Switchboard → Nat → Switchboard},
      (∀ b owner, Quiet name b (f b owner)) →
      Quiet name (board console epoch past) ((board console epoch past).withOwner id f) := by
    intro id f hf
    unfold withOwner
    split
    · exact hf _ _
    · exact .refl name _
  cases command with
  | pass ms => exact h.pass ms flush
  | sleep id other ms =>
    cases howner : (board console epoch past).owner? id with
    | some owner => exact h.sleep howner
    | none =>
      refine hwakes rfl ?_ ?_
      · simp only [naps, howner, Option.map_none, Option.toList_none, List.append_nil]
      · simp only [execute, withOwner, howner]
        exact h.rests.wakes_of_quiet (.refl name _)
  | arm id source signals gracePeriod =>
    exact hwakes rfl (List.append_nil _) (h.rests.wakes_of_quiet (quiet_arm _ _ _ _ _))
  | signal source signal =>
    exact hwakes rfl (List.append_nil _) (h.rests.deliver source signal)
  | request id reason =>
    refine hwakes rfl (List.append_nil _) ?_
    simp only [execute, withOwner]
    split
    · exact h.rests.request _ reason
    · exact h.rests.wakes_of_quiet (.refl name _)
  | complete id =>
    exact hwakes rfl (List.append_nil _) (h.rests.wakes_of_quiet (howner quiet_complete))
  | watch id other =>
    have hother : other ≠ name := fun hname => hfree (congrArg some hname)
    exact hwakes rfl (List.append_nil _) (h.rests.wakes_of_quiet
      (howner fun b owner => quiet_watch b owner hother))
  | dispose id =>
    exact hwakes rfl (List.append_nil _) (h.rests.wakes_of_quiet (howner quiet_dispose))

end Tracks

/-- Whatever was ordered, the board holds the sleeps that the orders call for. -/
lemma tracks_board (console : Console) (epoch : Int) (name : String) (past : List Order)
    (hfree : ∀ o ∈ past, o.command.waiter? ≠ some name) : Tracks console epoch name past := by
  induction past with
  | nil =>
    have hnone : ∀ n, abortedAt console epoch n [] = none := fun _ => rfl
    refine ⟨?_, rfl, fun _ => rfl, by simp [hnone], by simp [naps]⟩
    exact ⟨rfl, fun _ => rfl, by simp [asleep, naps], List.Pairwise.nil, by simp [asleep, naps],
      fun x hx => absurd hx List.not_mem_nil, by simp [Free, board], rfl, fun _ => .refl _⟩
  | cons o past ih =>
    obtain ⟨ho, hpast⟩ := List.forall_mem_cons.mp hfree
    exact (ih hpast).step ho

/-- Some name is no waiter's. -/
lemma exists_free_name (past : List Order) :
    ∃ name, ∀ o ∈ past, o.command.waiter? ≠ some name := by
  obtain ⟨name, hname⟩ := Infinite.exists_notMem_finset (Order.waiters past).toFinset
  refine ⟨name, fun o ho hwaiter => hname ?_⟩
  rw [List.mem_toFinset, Order.waiters, List.mem_filterMap]
  exact ⟨o, List.mem_reverse.mpr ho, hwaiter⟩

/-- **A sleep ends once, and leaves nothing behind.** Whatever sleeps were begun, at any times and
for any delays, and whenever the coordinators whose aborts end them were aborted: each sleep ends
when its timer is due or at the abort, whichever comes first, and at once if it begins after the
abort. Until then it has one timer and stands once among the sleepers of its coordinator, and from
then on it has neither. Each end is reported once, as no rejection, at its time if what is queued is
worked off before time passes. -/
theorem sleeps_end_once (console : Console) (epoch : Int) (past : List Order) :
    let b := board console epoch past
    (b.sleepTimers = (asleep console epoch past).map Nap.timer ∧
      (∀ n, b.sleepersOf n =
        ((asleep console epoch past).filter (·.owner = n)).map (·.sleeper)) ∧
      ((asleep console epoch past).map (·.sleeper.ticket)).Nodup) ∧
    (∀ x ∈ naps console epoch past, ∀ time ∈ abortedAt console epoch x.owner past,
      time ≤ x.began → endOf console epoch past x = x.began ∧ x ∉ asleep console epoch past) ∧
    (∀ name, (∀ o ∈ past, o.command.waiter? ≠ some name) →
      b.releases name = (ended console epoch name past).length ∧
        (Prompt past → (b.reports name).Perm (ended console epoch name past))) ∧
    (∀ x ∈ b.journal.entries, ∀ name e, x.event ≠ .settled name (.rejected e)) ∧
    ((∀ x ∈ naps console epoch past, endOf console epoch past x ≤ Order.clock past) →
      b.sleepTimers = [] ∧ ∀ s ∈ b.stations, s.sleepers = []) := by
  intro b
  obtain ⟨free, hfree⟩ := exists_free_name past
  have htracks := tracks_board console epoch free past hfree
  have hrests := htracks.rests
  refine ⟨⟨hrests.timers, hrests.sleepers, hrests.increasing.imp Nat.ne_of_lt⟩, ?_, ?_, ?_, ?_⟩
  · intro x hx time htime hbegan
    have hend : endOf console epoch past x = x.began := by
      rw [endOf, htime]
      exact Nap.ends_eq_began hbegan
    refine ⟨hend, fun hasleep => ?_⟩
    have hgoes := (List.mem_filter.mp hasleep).2
    rw [decide_eq_true_eq, hend] at hgoes
    exact Nat.not_lt.mpr (htracks.began x hx) hgoes
  · intro name hname
    have hreported := (tracks_board console epoch name past hname).rests
    exact ⟨(length_reports b name).symm.trans hreported.count, hreported.times⟩
  · intro x hx name e hevent
    have hfulfils := hrests.fulfils x hx
    rw [hevent] at hfulfils
    cases hfulfils
  · intro hover
    have hnone : asleep console epoch past = [] :=
      List.filter_eq_nil_iff.mpr fun x hx => by simpa using hover x hx
    refine ⟨by rw [hrests.timers, hnone]; rfl, fun s hs => ?_⟩
    obtain ⟨n, hn⟩ := List.getElem?_of_mem hs
    rw [hrests.sleepers_eq hn, hnone]
    rfl

/-- Sleeps for no number of milliseconds and for too many, one that is over before the abort, one
that the abort ends, and one that begins after it. -/
theorem sleeps_end_once_aborted :
    let past : List Order :=
      [⟨.pass 10, true⟩, ⟨.sleep "a" "late" 50, false⟩, ⟨.request "a" "stop", false⟩,
        ⟨.pass 99, true⟩, ⟨.sleep "a" "cut" 2147483647, false⟩, ⟨.pass 1, true⟩,
        ⟨.sleep "a" "never" .nan, true⟩, ⟨.sleep "a" "long" 2147483648, true⟩,
        ⟨.sleep "a" "over" 100, true⟩, ⟨.arm "a" .process ["SIGTERM"] 5000, true⟩]
    let b := board ⟨.everything, none, 0⟩ 0 past
    (b.reports "never" = [1] ∧ b.reports "long" = [1] ∧ b.reports "over" = [100] ∧
      b.reports "cut" = [100] ∧ b.reports "late" = [100]) ∧
    b.sleepTimers = [] ∧ ∀ s ∈ b.stations, s.sleepers = [] := by
  intro past b
  obtain ⟨-, -, hreports, -, hover⟩ := sleeps_end_once ⟨.everything, none, 0⟩ 0 past
  have hprompt : Prompt past := by simp [Prompt, past]
  have hreported : ∀ name time, (∀ o ∈ past, o.command.waiter? ≠ some name) →
      ended ⟨.everything, none, 0⟩ 0 name past = [time] → b.reports name = [time] := by
    intro name time hname hended
    exact List.perm_singleton.mp (hended ▸ (hreports name hname).2 hprompt)
  refine ⟨⟨hreported _ _ ?_ ?_, hreported _ _ ?_ ?_, hreported _ _ ?_ ?_, hreported _ _ ?_ ?_,
    hreported _ _ ?_ ?_⟩, hover ?_⟩
  all_goals decide +kernel

end Switchboard

end EdgeCaller

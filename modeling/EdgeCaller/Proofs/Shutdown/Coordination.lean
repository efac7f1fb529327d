import Mathlib.Data.List.Count
import EdgeCaller.Proofs.Shutdown.Orders
import EdgeCaller.Proofs.Shutdown.Requests
/-!
The course of a shutdown.

One coordinator is armed, and whatever commands come, its state and its events are those that the
commands call for: it is aborted by the first request, its latch is set once and releases every
waiter once, its one timer runs from the first request on, and the exit is forced exactly if that
timer comes due before the latch is set and before the coordinator is disposed of. `Follows` says
how the board stands after some commands, and every command keeps to it. How much of what follows
from a command is still queued does not matter, but for the waiters that are released and for a
grace period that is to be called off.
-/

namespace EdgeCaller

namespace Event

def isAbort : Event → Bool
  | abort _ => true
  | _ => false

def isForceExit : Event → Bool
  | forceExit _ => true
  | _ => false

def isCompleted : Event → Bool
  | completed _ => true
  | _ => false

/-- Whether an event is the end of what is watched under a name. -/
def isSettledAs (name : String) : Event → Bool
  | settled other _ => other = name
  | _ => false

lemma isAbort_of_isLine {e : Event} (h : e.isLine = true) : e.isAbort = false := by
  cases e <;> simp_all [isLine, isAbort]

lemma isForceExit_of_isLine {e : Event} (h : e.isLine = true) : e.isForceExit = false := by
  cases e <;> simp_all [isLine, isForceExit]

lemma isCompleted_of_isLine {e : Event} (h : e.isLine = true) : e.isCompleted = false := by
  cases e <;> simp_all [isLine, isCompleted]

lemma isSettledAs_of_isLine {e : Event} (h : e.isLine = true) (name : String) :
    e.isSettledAs name = false := by
  cases e <;> simp_all [isLine, isSettledAs]

end Event

/-- The clock shows dates from the moment at which it starts until this time. -/
structure Dated (epoch : Int) (time : Nat) : Prop where
  start : Calendar.inRange epoch = true
  now : Calendar.inRange (epoch + time) = true

lemma Dated.earlier {epoch : Int} {time time' : Nat} (h : Dated epoch time) (hle : time' ≤ time) :
    Dated epoch time' := by
  obtain ⟨hstart, hnow⟩ := h
  refine ⟨hstart, ?_⟩
  simp only [Calendar.inRange, decide_eq_true_eq] at *
  omega

/-- How often a waiter was released: the releases that were seen, and those that are queued. -/
def Switchboard.releases (b : Switchboard) (name : String) : Nat :=
  (b.journal.times (Event.isSettledAs name)).length + b.queue.count (.report name)

namespace Arming

open Switchboard

variable (a : Arming)

/-- A board on which one coordinator was armed. -/
def start (console : Console) (epoch : Int) : Switchboard :=
  ({ journal := .start console epoch } : Switchboard).arm a.id a.source a.signals a.gracePeriod

/-- The board after some commands. -/
def run (console : Console) (epoch : Int) : List Order → Switchboard
  | [] => a.start console epoch
  | o :: past => (run console epoch past).obey o.flush o.command

/-- The coordinator that an account calls for. -/
def coordinator (x : Account) : Coordinator where
  id := a.id
  signals := a.signals
  gracePeriod := a.gracePeriod
  reason := x.request.map (·.2)
  latch :=
    { isSet := x.isSet
      waiting := if x.isSet then [] else .stopGrace 0 :: x.waiters.map .report }
  listening := !x.isDisposed

/-- The board stands as an account calls for; `lapsed` says whether the grace period ran out. -/
structure Follows (epoch : Int) (x : Account) (lapsed : Prop) (b : Switchboard) : Prop where
  stations : b.stations = [⟨a.coordinator x, a.source, []⟩]
  names : b.names = [(a.id, 0)]
  escaped : b.escaped = none
  fault : b.journal.console.fault = none
  epoch : b.journal.epoch = epoch
  now : b.journal.now = x.clock
  queue : x.isSet = false → b.queue = []
  called : x.isCalledOff = true → x.request.isSome = true
  timers : b.timers = [] ∨ ∃ time reason, x.request = some (time, reason) ∧
    x.isCalledOff = false ∧ x.clock < time + a.delay ∧ b.timers = [⟨time + a.delay, .grace 0⟩]
  running : ∀ time, x.Grants time → x.clock < time + a.delay → b.timers ≠ []
  /-- A timer that runs on after the latch was set is about to be called off. -/
  stopping : x.isSet = true → b.timers ≠ [] → .stopGrace 0 ∈ b.queue
  released : ∀ name, b.releases name = if x.isSet then x.waiters.count name else 0
  completed : (b.journal.times Event.isCompleted).length = x.isSet.toNat
  aborted : b.journal.times Event.isAbort = (x.request.map (·.1)).toList
  lapsing : x.RunsOut a.delay → lapsed
  unforced : ¬ lapsed → b.journal.times Event.isForceExit = []
  forced : lapsed → ∃ time reason, x.request = some (time, reason) ∧
    time + a.delay ≤ x.clock ∧ b.journal.times Event.isForceExit = [time + a.delay]

variable {a} {x : Account} {lapsed : Prop} {b : Switchboard} {console : Console} {epoch : Int}
  {reason : String}

lemma follows_start (hfault : console.fault = none) :
    a.Follows epoch (a.account []) (a.Lapsed []) (a.start console epoch) := by
  have hlapsed : ¬ a.Lapsed [] := by
    rintro ⟨earlier, hs, time, ⟨⟨reason, hreason⟩, -, -⟩, -⟩
    rw [List.suffix_nil.mp hs] at hreason
    simp [account, firstRequest] at hreason
  exact
    { stations := rfl
      names := rfl
      escaped := rfl
      fault := hfault
      epoch := rfl
      now := rfl
      queue := fun _ => rfl
      called := fun h => Bool.noConfusion h
      timers := .inl rfl
      running := fun time h _ => by
        obtain ⟨reason, hreason⟩ := h.began
        simp [account, firstRequest] at hreason
      stopping := fun h _ => Bool.noConfusion h
      released := fun _ => rfl
      completed := rfl
      aborted := rfl
      lapsing := fun h => ⟨[], List.suffix_rfl, h⟩
      unforced := fun _ => rfl
      forced := fun h => absurd h hlapsed }

namespace Follows

lemma undisturbed (h : a.Follows epoch x lapsed b) (hd : Dated epoch x.clock) :
    b.journal.Undisturbed := by
  refine ⟨h.fault, ?_, ?_⟩
  · rw [h.epoch]; exact hd.start
  · rw [h.epoch, h.now]; exact hd.now

/-! ### Requests -/

/-- A line changes nothing. -/
lemma line (h : a.Follows epoch x lapsed b) {k : Journal}
    (hk : b.journal.Extends (·.isLine = true) k) :
    a.Follows epoch x lapsed { b with journal := k } :=
  { h with
    fault := hk.fault.trans h.fault
    epoch := hk.epoch.trans h.epoch
    now := hk.now.trans h.now
    released := fun name => by
      rw [← h.released name, releases, releases,
        hk.times_eq fun e he => Event.isSettledAs_of_isLine he name]
    completed := by rw [hk.times_eq fun e => Event.isCompleted_of_isLine]; exact h.completed
    aborted := by rw [hk.times_eq fun e => Event.isAbort_of_isLine]; exact h.aborted
    unforced := by rw [hk.times_eq fun e => Event.isForceExit_of_isLine]; exact h.unforced
    forced := by rw [hk.times_eq fun e => Event.isForceExit_of_isLine]; exact h.forced }

/-- While there was no request, no timer runs. -/
lemma timers_eq_nil (h : a.Follows epoch x lapsed b) (hnone : x.request = none) :
    b.timers = [] := by
  rcases h.timers with hnil | ⟨time, reason, hfirst, -⟩
  · exact hnil
  · simp [hnone] at hfirst

/-- Once the work is aborted, a request changes nothing. -/
lemma request_again (h : a.Follows epoch x lapsed b) (hd : Dated epoch x.clock)
    (hsome : x.request.isSome = true) (reason : String) :
    a.Follows epoch x lapsed (b.request 0 reason) := by
  have ha : (a.coordinator x).isAborted = true := by
    rw [Coordinator.isAborted, coordinator, Option.isSome_map, hsome]
  obtain ⟨k, hk, hexec⟩ := Coordinator.exec_request_again ha (h.undisturbed hd) reason
  have hrequest : b.request 0 reason = { b with journal := k } := by
    simp only [Switchboard.request, h.stations, List.getElem?_cons_zero, perform, hexec]
  rw [hrequest]
  exact h.line hk

/-- The board after the first request, but for the line that tells of it. -/
lemma request_eq (h : a.Follows epoch x lapsed b) (hd : Dated epoch x.clock)
    (hnone : x.request = none) (reason : String) :
    ∃ k, b.journal.Extends (·.isLine = true) k ∧ b.request 0 reason = { b with
      journal := k.add (.abort a.id)
      stations := [⟨a.coordinator (x.ask reason), a.source, []⟩]
      timers := if x.isSet then [] else [⟨x.clock + a.delay, .grace 0⟩] } := by
  have ha : (a.coordinator x).isAborted = false := by
    rw [Coordinator.isAborted, coordinator, Option.isSome_map, hnone]
    rfl
  have hstation : { a.coordinator x with reason := some reason } =
      a.coordinator (x.ask reason) := by
    simp [coordinator, Account.ask_of_none hnone]
  obtain ⟨k, hk, hexec⟩ := Coordinator.exec_request ha (h.undisturbed hd) reason
  have hnow : (k.add (.abort a.id)).now = x.clock := hk.now.trans h.now
  refine ⟨k, hk, ?_⟩
  simp only [Switchboard.request, h.stations, List.getElem?_cons_zero, perform, hexec, wakeAll,
    update, h.timers_eq_nil hnone, hstation, List.map_nil, List.append_nil, ← hnow]
  cases hset : x.isSet with
  | true =>
    rw [if_pos (by exact hset)]
    rfl
  | false =>
    rw [if_neg (by simp [coordinator, Account.ask, hset])]
    rfl

/-- The first request aborts the work, and lets the grace period begin unless teardown is over. -/
lemma request_first (h : a.Follows epoch x lapsed b) (hd : Dated epoch x.clock)
    (hnone : x.request = none) (reason : String) :
    a.Follows epoch (x.ask reason) lapsed (b.request 0 reason) := by
  obtain ⟨k, hk, hrequest⟩ := h.request_eq hd hnone reason
  have hrequested : (x.ask reason).request = some (x.clock, reason) := by
    rw [Account.ask_of_none hnone]
  have huncalled : x.isCalledOff = false := by
    by_contra hcalled
    have hsome := h.called (by simpa using hcalled)
    simp [hnone] at hsome
  have hlapsed : ¬ lapsed := fun hl => by
    obtain ⟨time, reason, hfirst, -⟩ := h.forced hl
    simp [hnone] at hfirst
  have hother : ∀ kind : Event → Bool, kind (.abort a.id) = false →
      (∀ e, e.isLine = true → kind e = false) →
      (k.add (.abort a.id)).times kind = b.journal.times kind := by
    intro kind habort hline
    rw [Journal.times_add, habort, hk.times_eq hline]
    rfl
  rw [hrequest]
  exact
    { stations := rfl
      names := h.names
      escaped := h.escaped
      fault := hk.fault.trans h.fault
      epoch := hk.epoch.trans h.epoch
      now := hk.now.trans h.now
      queue := h.queue
      called := fun _ => by rw [hrequested]; rfl
      timers := by
        cases hset : x.isSet with
        | true => exact .inl rfl
        | false =>
          exact .inr ⟨x.clock, reason, hrequested, huncalled,
            Nat.lt_add_of_pos_right a.delay_pos, rfl⟩
      running := fun time hgrants _ => by
        have hunset : x.isSet = false := hgrants.unset
        simp [hunset]
      stopping := fun hset htimers => by
        have hset' : x.isSet = true := hset
        simp [hset'] at htimers
      released := fun name => by
        rw [releases, hother _ rfl fun e he => Event.isSettledAs_of_isLine he name]
        exact h.released name
      completed := by
        rw [hother _ rfl fun e => Event.isCompleted_of_isLine]
        exact h.completed
      aborted := by
        have haborts := h.aborted
        rw [hnone] at haborts
        rw [Journal.times_add, hk.times_eq fun e => Event.isAbort_of_isLine, haborts, hrequested,
          hk.now, h.now]
        rfl
      lapsing := fun hout => h.lapsing (hout.of_ask a.delay_pos)
      unforced := fun _ => by
        rw [hother _ rfl fun e => Event.isForceExit_of_isLine]
        exact h.unforced hlapsed
      forced := fun hl => absurd hl hlapsed }

lemma request (h : a.Follows epoch x lapsed b) (hd : Dated epoch x.clock) (reason : String) :
    a.Follows epoch (x.ask reason) lapsed (b.request 0 reason) := by
  cases hx : x.request with
  | none => exact h.request_first hd hx reason
  | some y =>
    have hsome : x.request.isSome = true := by rw [hx]; rfl
    rw [Account.ask_of_some hsome]
    exact h.request_again hd hsome reason

/-! ### Signals -/

lemma hearers_eq (h : a.Follows epoch x lapsed b) (source : Source) (signal : String) :
    b.hearers source signal = if a.source = source ∧ x.isDisposed = false then
      List.replicate (a.signals.count signal) 0 else [] := by
  have hlisteners : (a.coordinator x).listeners signal =
      if x.isDisposed = false then a.signals.count signal else 0 := by
    cases hd : x.isDisposed <;> simp [Coordinator.listeners, coordinator, hd]
  rw [hearers, h.stations]
  simp only [List.zipIdx_cons, List.zipIdx_nil, List.flatMap_cons, List.flatMap_nil,
    List.append_nil, hlisteners]
  by_cases hs : a.source = source <;> by_cases hd : x.isDisposed = false <;> simp [hs, hd]

/-- To hear a signal several times is to hear it once. -/
lemma hear (h : a.Follows epoch x lapsed b) (hd : Dated epoch x.clock) (signal : String) (n : Nat) :
    a.Follows epoch (if n = 0 then x else x.ask signal) lapsed ((List.replicate n 0).foldl
      (fun b owner => if b.escaped.isSome then b else b.request owner signal) b) := by
  induction n generalizing x b with
  | zero => exact h
  | succ n ih =>
    have hagain := ih (h.request hd signal) hd
    have hsome : (x.ask signal).request.isSome = true := by
      rw [Account.ask]
      cases x.request <;> rfl
    rw [Account.ask_of_some hsome, ite_self] at hagain
    rw [List.replicate_succ, List.foldl_cons, h.escaped]
    exact hagain

lemma deliver (h : a.Follows epoch x lapsed b) (hd : Dated epoch x.clock) (source : Source)
    (signal : String) :
    a.Follows epoch (a.after x (.signal source signal)) lapsed (b.deliver source signal) := by
  have hheard := h.hear hd signal (a.signals.count signal)
  rw [Switchboard.deliver, h.hearers_eq, after]
  by_cases hs : a.source = source ∧ x.isDisposed = false
  · rw [if_pos hs]
    by_cases hmem : signal ∈ a.signals
    · have hpos := List.count_pos_iff.mpr hmem
      rw [if_neg (by omega)] at hheard
      rw [if_pos ⟨hs.1.symm, hmem, hs.2⟩]
      exact hheard
    · rw [List.count_eq_zero_of_not_mem hmem] at hheard
      rw [if_neg (by simp [hmem]), List.count_eq_zero_of_not_mem hmem]
      exact hheard
  · rw [if_neg hs, if_neg fun hc => hs ⟨hc.1.symm, hc.2.2⟩]
    exact h

/-! ### The latch -/

lemma latch_set_of_isSet (hset : x.isSet = true) :
    (a.coordinator x).latch.set = (false, [], (a.coordinator x).latch) := by
  rw [Latch.set, if_pos (by exact hset)]

lemma latch_set_of_unset (hset : x.isSet = false) : (a.coordinator x).latch.set =
    (true, .stopGrace 0 :: x.waiters.map .report, (a.coordinator x.complete).latch) := by
  rw [Latch.set, if_neg (by simp [coordinator, hset])]
  simp [coordinator, Account.complete, hset]

/-- Setting the latch releases all who wait for it, unless it was set before. -/
lemma complete_eq (h : a.Follows epoch x lapsed b) : b.complete 0 = if x.isSet then b else { b with
    stations := [⟨a.coordinator x.complete, a.source, []⟩]
    journal := b.journal.add (.completed a.id)
    queue := .stopGrace 0 :: x.waiters.map .report } := by
  obtain ⟨journal, timers, stations, names, queue, tickets, escaped⟩ := b
  obtain rfl : stations = _ := h.stations
  cases hset : x.isSet with
  | true =>
    simp only [Switchboard.complete, List.getElem?_cons_zero, latch_set_of_isSet hset, enqueue,
      List.append_nil]
    rfl
  | false =>
    obtain rfl : queue = [] := h.queue hset
    simp only [Switchboard.complete, List.getElem?_cons_zero, latch_set_of_unset hset]
    rfl

lemma count_reports (names : List String) (name : String) :
    (names.map Reaction.report).count (.report name) = names.count name :=
  List.count_map_of_injective _ _ (fun _ _ h => Reaction.report.inj h) name

lemma complete (h : a.Follows epoch x lapsed b) :
    a.Follows epoch x.complete lapsed (b.complete 0) := by
  rw [h.complete_eq]
  cases hset : x.isSet with
  | true =>
    have hcomplete : x.complete = x := by rw [Account.complete, ← hset]
    rw [if_pos rfl, hcomplete]
    exact h
  | false =>
    rw [if_neg (by simp)]
    have hreleased : ∀ name, (b.journal.times (Event.isSettledAs name)).length = 0 := fun name => by
      have hnone := h.released name
      rw [releases, hset, if_neg (by simp)] at hnone
      omega
    have hcompleted := h.completed
    rw [hset] at hcompleted
    exact
      { h with
        stations := rfl
        queue := fun h => Bool.noConfusion h
        timers := h.timers
        running := fun time hgrants => Bool.noConfusion hgrants.unset
        stopping := fun _ _ => List.mem_cons_self
        released := fun name => by
          have hother : Event.isSettledAs name (.completed a.id) = false := rfl
          rw [releases, Journal.times_add, hother, if_neg (by simp), hreleased name,
            List.count_cons_of_ne (by simp), count_reports, Nat.zero_add]
          rfl
        completed := by
          have hown : Event.isCompleted (.completed a.id) = true := rfl
          rw [Journal.times_add, if_pos hown, List.length_cons, hcompleted]
          rfl
        aborted := h.aborted
        lapsing := fun hout => hout.of_complete.elim
        unforced := h.unforced
        forced := h.forced }

/-- A waiter who comes after the latch was set is released at once. -/
lemma watch_eq (h : a.Follows epoch x lapsed b) (name : String) : b.watch 0 name = { b with
    stations := [⟨a.coordinator (x.addWaiter name), a.source, []⟩]
    queue := if x.isSet then b.queue ++ [.report name] else [] } := by
  obtain ⟨journal, timers, stations, names, queue, tickets, escaped⟩ := b
  obtain rfl : stations = _ := h.stations
  cases hset : x.isSet with
  | true =>
    have hwait : (a.coordinator x).latch.wait (.report name) =
        ([.report name], (a.coordinator (x.addWaiter name)).latch) := by
      rw [Latch.wait, if_pos (by exact hset)]
      simp [coordinator, Account.addWaiter, hset]
    simp only [Switchboard.watch, List.getElem?_cons_zero, hwait]
    rfl
  | false =>
    obtain rfl : queue = [] := h.queue hset
    have hwait : (a.coordinator x).latch.wait (.report name) =
        ([], (a.coordinator (x.addWaiter name)).latch) := by
      rw [Latch.wait, if_neg (by simp [coordinator, hset])]
      simp [coordinator, Account.addWaiter, hset]
    simp only [Switchboard.watch, List.getElem?_cons_zero, hwait]
    rfl

lemma watch (h : a.Follows epoch x lapsed b) (name : String) :
    a.Follows epoch (x.addWaiter name) lapsed (b.watch 0 name) := by
  rw [h.watch_eq]
  exact
    { h with
      stations := rfl
      queue := fun hset => by
        have hset' : x.isSet = false := hset
        rw [hset', if_neg (by simp)]
      timers := h.timers
      running := fun time hgrants => h.running time ⟨hgrants.began, hgrants.unset, hgrants.uncalled⟩
      stopping := fun hset htimers => by
        have hset' : x.isSet = true := hset
        rw [hset', if_pos rfl]
        exact List.mem_append_left _ (h.stopping hset htimers)
      released := fun other => by
        have hreleased := h.released other
        change _ = if x.isSet then (x.waiters ++ [name]).count other else 0
        cases hset : x.isSet with
        | true =>
          rw [hset, if_pos rfl] at hreleased
          rw [if_pos rfl, List.count_append, ← hreleased, releases, releases, if_pos rfl,
            List.count_append, Nat.add_assoc]
          congr 2
          exact count_reports [name] other
        | false =>
          rw [hset, if_neg (by simp), releases, h.queue hset] at hreleased
          rw [if_neg (by simp), releases, if_neg (by simp)]
          exact hreleased
      aborted := h.aborted
      lapsing := fun hout => h.lapsing hout.of_addWaiter
      unforced := h.unforced
      forced := h.forced }

/-! ### Disposal -/

lemma dispose_eq (h : a.Follows epoch x lapsed b) : b.dispose 0 = { b with
    stations := [⟨a.coordinator x.dispose, a.source, []⟩]
    journal := b.journal.add (.detached a.id)
    timers := [] } := by
  have htimers : b.timers.cancel (Alarm.isGraceOf 0) = [] := by
    rcases h.timers with hnil | ⟨time, reason, -, -, -, htimer⟩
    · rw [hnil]
      rfl
    · rw [htimer]
      rfl
  obtain ⟨journal, timers, stations, names, queue, tickets, escaped⟩ := b
  obtain rfl : stations = _ := h.stations
  simp only at htimers
  simp only [Switchboard.dispose, List.getElem?_cons_zero, stopGrace, update, htimers]
  rfl

lemma dispose (h : a.Follows epoch x lapsed b) :
    a.Follows epoch x.dispose lapsed (b.dispose 0) := by
  rw [h.dispose_eq]
  have hother : ∀ kind : Event → Bool, kind (.detached a.id) = false →
      (b.journal.add (.detached a.id)).times kind = b.journal.times kind := fun kind hkind => by
    rw [Journal.times_add, hkind]
    rfl
  exact
    { h with
      stations := rfl
      queue := h.queue
      called := fun hcalled => (Bool.or_eq_true_iff.mp hcalled).elim h.called fun hsome => hsome
      timers := .inl rfl
      running := fun time hgrants hbefore => by
        -- A grace period that is still granted would have begun before, and that calls it off.
        obtain ⟨reason, hreason⟩ := hgrants.began
        have hcalled := (Bool.or_eq_false_iff.mp hgrants.uncalled).2
        have hrequest : x.request = some (time, reason) := hreason
        rw [hrequest] at hcalled
        exact Bool.noConfusion hcalled
      stopping := fun _ htimers => absurd rfl htimers
      released := fun name => by
        rw [releases, hother _ rfl]
        exact h.released name
      completed := (congrArg List.length (hother _ rfl)).trans h.completed
      aborted := (hother _ rfl).trans h.aborted
      lapsing := fun hout => h.lapsing hout.of_dispose
      unforced := fun hl => (hother _ rfl).trans (h.unforced hl)
      forced := by rw [hother _ rfl]; exact h.forced }

/-! ### What follows from a command -/

/-- One reaction of the queue, whose rest is still to come. -/
lemma react {r : Reaction} {q : List Reaction}
    (h : a.Follows epoch x lapsed { b with queue := r :: q }) :
    a.Follows epoch x lapsed { b.react r with queue := q } := by
  have hset : x.isSet = true := by
    by_contra hunset
    exact List.cons_ne_nil r q (h.queue (by simpa using hunset))
  cases r with
  | stopGrace owner =>
    have htimers : (b.react (.stopGrace owner)).timers = if owner = 0 then [] else b.timers := by
      change b.timers.cancel (Alarm.isGraceOf owner) = _
      rcases h.timers with hnil | ⟨time, reason, -, -, -, htimer⟩
      · rw [show b.timers = [] from hnil, ite_self]
        rfl
      · rw [show b.timers = [⟨time + a.delay, .grace 0⟩] from htimer]
        by_cases howner : owner = 0
        · rw [if_pos howner, howner]
          rfl
        · have hkept : Alarm.isGraceOf owner (.grace 0) = false := by
            simpa [Alarm.isGraceOf] using Ne.symm howner
          simp [Timers.cancel, hkept, howner]
    exact
      { h with
        queue := fun hunset => Bool.noConfusion (hset.symm.trans hunset)
        timers := by
          change (b.react (.stopGrace owner)).timers = [] ∨ _
          rw [htimers]
          split
          · exact .inl rfl
          · exact h.timers
        running := fun time hgrants => Bool.noConfusion (hset.symm.trans hgrants.unset)
        stopping := fun hset' hrunning => by
          change (b.react (.stopGrace owner)).timers ≠ [] at hrunning
          rw [htimers] at hrunning
          split at hrunning
          · exact absurd rfl hrunning
          · next howner =>
            refine (List.mem_cons.mp (h.stopping hset' hrunning)).resolve_left fun heq => ?_
            exact howner (Reaction.stopGrace.inj heq).symm
        released := fun name => by
          rw [← h.released name, releases, releases, List.count_cons_of_ne (by simp)]
          rfl }
  | report name =>
    have hother : ∀ kind : Event → Bool, kind (.settled name (.fulfilled .nothing)) = false →
        (b.journal.add (.settled name (.fulfilled .nothing))).times kind = b.journal.times kind :=
      fun kind hkind => by
        rw [Journal.times_add, hkind]
        rfl
    exact
      { h with
        queue := fun hunset => Bool.noConfusion (hset.symm.trans hunset)
        stopping := fun hset' htimers =>
          (List.mem_cons.mp (h.stopping hset' htimers)).resolve_left Reaction.noConfusion
        released := fun other => by
          change ((b.journal.add _).times (Event.isSettledAs other)).length + q.count _ = _
          rw [← h.released other, releases, Journal.times_add, List.count_cons]
          by_cases hname : name = other
          · simp [Event.isSettledAs, hname]
            omega
          · simp [Event.isSettledAs, hname]
        completed := (congrArg List.length (hother _ rfl)).trans h.completed
        aborted := (hother _ rfl).trans h.aborted
        unforced := fun hl => (hother _ rfl).trans (h.unforced hl)
        forced := by
          change lapsed → ∃ time reason, x.request = some (time, reason) ∧
            time + a.delay ≤ x.clock ∧ (b.journal.add _).times Event.isForceExit = [time + a.delay]
          rw [hother _ rfl]
          exact h.forced }

/-- Working off the queue changes nothing that was called for, and leaves nothing queued. -/
lemma drain (h : a.Follows epoch x lapsed b) :
    a.Follows epoch x lapsed b.drain ∧ b.drain.queue = [] := by
  have hqueue : ∀ (q : List Reaction) (b : Switchboard), b.queue = [] →
      a.Follows epoch x lapsed { b with queue := q } →
      a.Follows epoch x lapsed (q.foldl Switchboard.react b) ∧
        (q.foldl Switchboard.react b).queue = [] := by
    intro q
    induction q with
    | nil =>
      rintro b hb h
      rw [← hb] at h
      exact ⟨h, hb⟩
    | cons r q ih =>
      rintro b hb h
      refine ih (b.react r) ?_ h.react
      cases r <;> exact hb
  exact hqueue b.queue { b with queue := [] } rfl h

/-- No reaction starts a timer. -/
lemma timers_drain (hnil : b.timers = []) : b.drain.timers = [] := by
  have hfold : ∀ (q : List Reaction) (b : Switchboard), b.timers = [] →
      (q.foldl Switchboard.react b).timers = [] := by
    intro q
    induction q with
    | nil => exact fun b hb => hb
    | cons r q ih =>
      intro b hb
      refine ih (b.react r) ?_
      cases r with
      | stopGrace owner =>
        change b.timers.cancel _ = []
        rw [hb]
        rfl
      | report name => exact hb
  exact hfold b.queue { b with queue := [] } hnil

end Follows

end Arming

end EdgeCaller

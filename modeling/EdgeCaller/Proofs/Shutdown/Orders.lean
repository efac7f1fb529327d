import Mathlib.Algebra.Ring.Nat
import Mathlib.Tactic.Common
import EdgeCaller.Shutdown.Command
/-!
What a coordinator has been ordered.

A coordinator is armed once, and from then on commands come, each with or without time for what
follows from it. What should have become of the coordinator can be told from the commands alone:
which request was the first and when it came, whether the latch was set, and whether the listeners
were taken away. The commands are kept newest first, so that those of an earlier moment are a
suffix of them.
-/

namespace EdgeCaller

namespace Switchboard.Command

/-- Whether a command is one to a coordinator of this name, to all, or the passing of time. -/
def concerns (id : String) : Command → Bool
  | arm .. | sleep .. => false
  | signal .. | pass _ => true
  | request other _ | complete other | watch other _ | dispose other => other = id

@[simp]
def duration : Command → Nat
  | pass ms => ms
  | _ => 0

@[simp]
def isComplete : Command → Bool
  | complete _ => true
  | _ => false

@[simp]
def isDispose : Command → Bool
  | dispose _ => true
  | _ => false

/-- The name of the waiter that a command adds. -/
@[simp]
def waiter? : Command → Option String
  | watch _ name => some name
  | _ => none

end Switchboard.Command

/-- A command, and whether what follows from it happens before the next one. -/
structure Order where
  command : Switchboard.Command
  flush : Bool

namespace Order

/-- The time that has passed. -/
def clock (past : List Order) : Nat := (past.map fun o => o.command.duration).sum

def wasSet (past : List Order) : Bool := past.any fun o => o.command.isComplete

def wasDisposed (past : List Order) : Bool := past.any fun o => o.command.isDispose

/-- The waiters that were added, in the order in which they came. -/
def waiters (past : List Order) : List String :=
  past.reverse.filterMap fun o => o.command.waiter?

@[simp] lemma clock_nil : clock [] = 0 := rfl

@[simp] lemma clock_cons (o : Order) (past : List Order) :
    clock (o :: past) = clock past + o.command.duration := by
  rw [clock, List.map_cons, List.sum_cons, Nat.add_comm]
  rfl

@[simp] lemma wasSet_cons (o : Order) (past : List Order) :
    wasSet (o :: past) = (o.command.isComplete || wasSet past) := rfl

@[simp] lemma wasDisposed_cons (o : Order) (past : List Order) :
    wasDisposed (o :: past) = (o.command.isDispose || wasDisposed past) := rfl

@[simp] lemma waiters_cons (o : Order) (past : List Order) :
    waiters (o :: past) = waiters past ++ o.command.waiter?.toList := by
  rw [waiters, List.reverse_cons, List.filterMap_append, List.filterMap_cons, List.filterMap_nil]
  cases o.command.waiter? <;> rfl

lemma clock_le_of_suffix {earlier past : List Order} (h : earlier <:+ past) :
    clock earlier ≤ clock past := by
  obtain ⟨new, rfl⟩ := h
  rw [clock, clock, List.map_append, List.sum_append]
  exact Nat.le_add_left _ _

end Order

/-- What a coordinator is armed with. -/
structure Arming where
  id : String
  source : Source
  signals : List String
  gracePeriod : Number

namespace Arming

open EdgeCaller.Order

variable (a : Arming)

/-- The time that the timer of the grace period runs. -/
def delay : Nat := Timers.effectiveDelay a.gracePeriod

lemma delay_pos : 0 < a.delay := Timers.effectiveDelay_pos _

/-- The reason of the request that a command makes. A signal makes one if it is listened for. -/
def asks (past : List Order) : Switchboard.Command → Option String
  | .request _ reason => some reason
  | .signal source name =>
    if source = a.source ∧ name ∈ a.signals ∧ wasDisposed past = false then some name else none
  | _ => none

/-- The time and the reason of the first request. -/
def firstRequest : List Order → Option (Nat × String)
  | [] => none
  | o :: past =>
    (firstRequest past).or ((a.asks past o.command).map fun reason => (clock past, reason))

/-- Whether the listeners were taken away after the first request. -/
def disposedSince : List Order → Bool
  | [] => false
  | o :: past => disposedSince past || (o.command.isDispose && (a.firstRequest past).isSome)

lemma firstRequest_of_suffix {a : Arming} {past earlier : List Order} {x : Nat × String}
    (h : a.firstRequest earlier = some x) (hs : earlier <:+ past) :
    a.firstRequest past = some x := by
  obtain ⟨new, rfl⟩ := hs
  induction new with
  | nil => exact h
  | cons o new ih => rw [List.cons_append, firstRequest, ih, Option.some_or]

/-- There was a first request if there was any. -/
lemma isSome_firstRequest_iff {a : Arming} {past : List Order} :
    (a.firstRequest past).isSome = true ↔
      ∃ o earlier, o :: earlier <:+ past ∧ (a.asks earlier o.command).isSome = true := by
  constructor
  · intro h
    induction past with
    | nil => exact Bool.noConfusion h
    | cons o past ih =>
      rw [firstRequest, Option.isSome_or, Bool.or_eq_true, Option.isSome_map] at h
      rcases h with h | h
      · obtain ⟨o', earlier, hs, hasks⟩ := ih h
        exact ⟨o', earlier, hs.trans (List.suffix_cons o past), hasks⟩
      · exact ⟨o, past, List.suffix_rfl, h⟩
  · rintro ⟨o, earlier, hs, hasks⟩
    have hrequested : (a.firstRequest (o :: earlier)).isSome = true := by
      rw [firstRequest, Option.isSome_or, Option.isSome_map, hasks, Bool.or_true]
    obtain ⟨x, hx⟩ := Option.isSome_iff_exists.mp hrequested
    rw [firstRequest_of_suffix hx hs]
    rfl

end Arming

/-! ### Accounts -/

/-- What some commands come to for a coordinator. -/
@[ext]
structure Account where
  clock : Nat
  request : Option (Nat × String)
  isSet : Bool
  isDisposed : Bool
  waiters : List String
  /-- Whether the grace period was called off by taking the listeners away. -/
  isCalledOff : Bool

namespace Account

/-- A grace period began at this time, and neither was the latch set nor was it called off. -/
structure Grants (x : Account) (time : Nat) : Prop where
  began : ∃ reason, x.request = some (time, reason)
  unset : x.isSet = false
  uncalled : x.isCalledOff = false

/-- The grace period has come to its end before teardown. -/
def RunsOut (delay : Nat) (x : Account) : Prop :=
  ∃ time, x.Grants time ∧ time + delay ≤ x.clock

def ask (x : Account) (reason : String) : Account :=
  { x with request := x.request.or (some (x.clock, reason)) }

def complete (x : Account) : Account := { x with isSet := true }

def addWaiter (x : Account) (name : String) : Account := { x with waiters := x.waiters ++ [name] }

def dispose (x : Account) : Account :=
  { x with isDisposed := true, isCalledOff := x.isCalledOff || x.request.isSome }

def pass (x : Account) (ms : Nat) : Account := { x with clock := x.clock + ms }

variable {x : Account} {delay time : Nat}

lemma ask_of_some (h : x.request.isSome = true) (reason : String) : x.ask reason = x := by
  obtain ⟨r, hr⟩ := Option.isSome_iff_exists.mp h
  rw [ask, hr, Option.some_or, ← hr]

lemma ask_of_none (h : x.request = none) (reason : String) :
    x.ask reason = { x with request := some (x.clock, reason) } := by
  rw [ask, h, Option.none_or]

lemma pass_pass (x : Account) (ms ms' : Nat) : (x.pass ms).pass ms' = x.pass (ms + ms') :=
  Account.ext (Nat.add_assoc _ _ _) rfl rfl rfl rfl rfl

lemma RunsOut.pass (h : x.RunsOut delay) (ms : Nat) : (x.pass ms).RunsOut delay := by
  obtain ⟨time, hgrants, hle⟩ := h
  exact ⟨time, ⟨hgrants.began, hgrants.unset, hgrants.uncalled⟩, Nat.le_add_right_of_le hle⟩

/-- No grace period runs out in the instant in which it begins. -/
lemma RunsOut.of_ask {reason : String} (h : (x.ask reason).RunsOut delay) (hpos : 0 < delay) :
    x.RunsOut delay := by
  obtain ⟨time, ⟨⟨r, hr⟩, hunset, huncalled⟩, hle⟩ := h
  cases hx : x.request with
  | some y =>
    rw [ask_of_some (by rw [hx]; rfl)] at hr
    exact ⟨time, ⟨⟨r, hr⟩, hunset, huncalled⟩, hle⟩
  | none =>
    rw [ask_of_none hx] at hr hle
    obtain rfl : x.clock = time := congrArg Prod.fst (Option.some.inj hr)
    exact absurd hle (by simp; omega)

lemma RunsOut.of_complete (h : x.complete.RunsOut delay) : False := by
  obtain ⟨time, hgrants, -⟩ := h
  exact Bool.noConfusion hgrants.unset

lemma RunsOut.of_addWaiter {name : String} (h : (x.addWaiter name).RunsOut delay) :
    x.RunsOut delay := by
  obtain ⟨time, ⟨hbegan, hunset, huncalled⟩, hle⟩ := h
  exact ⟨time, ⟨hbegan, hunset, huncalled⟩, hle⟩

lemma RunsOut.of_dispose (h : x.dispose.RunsOut delay) : x.RunsOut delay := by
  obtain ⟨time, ⟨hbegan, hunset, huncalled⟩, hle⟩ := h
  exact ⟨time, ⟨hbegan, hunset, (Bool.or_eq_false_iff.mp huncalled).1⟩, hle⟩

end Account

namespace Arming

open EdgeCaller.Order

/-- The account of some commands. -/
def account (a : Arming) (past : List Order) : Account where
  clock := clock past
  request := a.firstRequest past
  isSet := wasSet past
  isDisposed := wasDisposed past
  waiters := waiters past
  isCalledOff := a.disposedSince past

/-- What becomes of an account by a command. -/
def after (a : Arming) (x : Account) : Switchboard.Command → Account
  | .arm .. | .sleep .. => x
  | .request _ reason => x.ask reason
  | .signal source name =>
    if source = a.source ∧ name ∈ a.signals ∧ x.isDisposed = false then x.ask name else x
  | .complete _ => x.complete
  | .watch _ name => x.addWaiter name
  | .dispose _ => x.dispose
  | .pass ms => x.pass ms

/-- The grace period ran out at some moment. -/
def Lapsed (a : Arming) (past : List Order) : Prop :=
  ∃ earlier, earlier <:+ past ∧ (a.account earlier).RunsOut a.delay

variable {a : Arming} {past : List Order} {o : Order}

lemma account_cons (o : Order) (past : List Order) :
    a.account (o :: past) = a.after (a.account past) o.command := by
  obtain ⟨command, flush⟩ := o
  cases command with
  | signal source name =>
    by_cases h : source = a.source ∧ name ∈ a.signals ∧ wasDisposed past = false
    · have hasks : a.asks past (.signal source name) = some name := if_pos h
      have hafter : a.after (a.account past) (.signal source name) = (a.account past).ask name :=
        if_pos h
      rw [hafter]
      ext1 <;> simp [account, Account.ask, firstRequest, disposedSince, hasks]
    · have hasks : a.asks past (.signal source name) = none := if_neg h
      have hafter : a.after (a.account past) (.signal source name) = a.account past := if_neg h
      rw [hafter]
      ext1 <;> simp [account, firstRequest, disposedSince, hasks]
  | _ =>
    ext1 <;> simp [account, after, Account.ask, Account.complete, Account.addWaiter,
      Account.dispose, Account.pass, asks, firstRequest, disposedSince]

lemma lapsed_cons_iff :
    a.Lapsed (o :: past) ↔ a.Lapsed past ∨ (a.account (o :: past)).RunsOut a.delay := by
  constructor
  · rintro ⟨earlier, hs, hout⟩
    rcases List.suffix_cons_iff.mp hs with rfl | hs
    · exact .inr hout
    · exact .inl ⟨earlier, hs, hout⟩
  · rintro (⟨earlier, hs, hout⟩ | hout)
    · exact ⟨earlier, hs.trans (List.suffix_cons o past), hout⟩
    · exact ⟨_, List.suffix_rfl, hout⟩

end Arming

end EdgeCaller

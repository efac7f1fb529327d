import Mathlib.Tactic.Common
import EdgeCaller.Sender.Plan
import EdgeCaller.Timers
/-!
The protocol of a run.

What a run does over its connection follows a protocol: it is always at one `Place`, and each of its
events leads from there to the next one. `History` are the lists of events, newest first, that the
protocol allows, with the place that they lead to and whether the work was aborted. The laws below
hold of every history, whatever program produced it; that a run produces nothing else is shown
apart.
-/

namespace EdgeCaller.Sender

/-- What an event means for the protocol. -/
inductive Mark where
  /-- A line, and whatever else changes nothing. -/
  | remark
  | abort
  | forced
  /-- A step towards a connection. -/
  | dial
  | armed
  | began
  | invoke (target : Target) (call : MethodCall)
  | publish (event : Telemetry)
  | close
  | answered (request : Request) (s : Settlement)
  | consulted (stage : Stage) (e : Value)
  | ended (outcome : Outcome)
  | completed
  | detached

end Sender

open Sender in
/-- What an event means for the protocol. A call over a connection and the call to a module client
that stands behind it mean the same. -/
def Event.mark : Event → Mark
  | .line .. | .policy .. | .wait _ | .ended .. | .settled .. | .exit _ => .remark
  | .abort _ => .abort
  | .forceExit _ => .forced
  | .connect _ | .clientCreate _ | .clientOpen => .dial
  | .armed _ => .armed
  | .attemptBegan => .began
  | .invoke _ target call | .clientInvoke target call => .invoke target call
  | .publish _ event | .clientSend event => .publish event
  | .close _ | .clientClose => .close
  | .answered request s => .answered request s
  | .consulted stage e => .consulted stage e
  | .attemptEnded outcome => .ended outcome
  | .completed _ => .completed
  | .detached _ => .detached

/-- Whether a settlement is that of a call which succeeded. -/
def Settlement.isSuccess : Settlement → Bool
  | .fulfilled (.response status _) => EdgeCaller.isSuccess status
  | _ => false

def Settlement.isFulfilled : Settlement → Bool
  | .fulfilled _ => true
  | .rejected _ => false

namespace Sender

namespace Mark

def isInvoke : Mark → Bool
  | invoke .. => true
  | _ => false

def isPublish : Mark → Bool
  | publish _ => true
  | _ => false

/-- A call of the method, or the sending of the event. -/
def isCall (m : Mark) : Bool := m.isInvoke || m.isPublish

/-- The answer to one of these. -/
def isAnswer : Mark → Bool
  | answered .invoke _ | answered .publish _ => true
  | _ => false

def isSuccess : Mark → Bool
  | answered .invoke s => s.isSuccess
  | _ => false

def isClose : Mark → Bool
  | close => true
  | _ => false

def isAbort : Mark → Bool
  | abort => true
  | _ => false

def isForced : Mark → Bool
  | forced => true
  | _ => false

def isArmed : Mark → Bool
  | armed => true
  | _ => false

def isEnd : Mark → Bool
  | ended _ => true
  | _ => false

def rejection? : Mark → Option (Stage × Value)
  | answered .invoke (.rejected e) => some (.invoke, e)
  | answered .publish (.rejected e) => some (.publish, e)
  | _ => none

def closure? : Mark → Option Settlement
  | answered .close s => some s
  | _ => none

/-- The stage and the value that the policy was asked about. -/
def consultation? : Mark → Option (Stage × Value)
  | consulted stage e => some (stage, e)
  | _ => none

end Mark

def count (kind : Mark → Bool) (past : List Entry) : Nat := past.countP fun x => kind x.event.mark

def rejections (past : List Entry) : List (Stage × Value) :=
  past.filterMap fun x => x.event.mark.rejection?

def closures (past : List Entry) : List Settlement :=
  past.filterMap fun x => x.event.mark.closure?

def consultations (past : List Entry) : List (Stage × Value) :=
  past.filterMap fun x => x.event.mark.consultation?

/-- What some events mean, newest first. -/
def marks (past : List Entry) : List Mark := past.map fun x => x.event.mark

def lastEnd (past : List Entry) : Option Nat :=
  (past.find? fun x => x.event.mark.isEnd).map (·.time)

def abortTime (past : List Entry) : Option Nat :=
  (past.find? fun x => x.event.mark.isAbort).map (·.time)

@[simp] lemma count_nil (kind : Mark → Bool) : count kind [] = 0 := rfl

@[simp] lemma count_cons (kind : Mark → Bool) (x : Entry) (past : List Entry) :
    count kind (x :: past) = count kind past + (kind x.event.mark).toNat := by
  unfold count
  rw [List.countP_cons]
  cases kind x.event.mark <;> rfl

@[simp] lemma rejections_cons (x : Entry) (past : List Entry) :
    rejections (x :: past) = x.event.mark.rejection?.toList ++ rejections past := by
  unfold rejections
  rw [List.filterMap_cons]
  cases x.event.mark.rejection? <;> rfl

@[simp] lemma closures_cons (x : Entry) (past : List Entry) :
    closures (x :: past) = x.event.mark.closure?.toList ++ closures past := by
  unfold closures
  rw [List.filterMap_cons]
  cases x.event.mark.closure? <;> rfl

@[simp] lemma consultations_cons (x : Entry) (past : List Entry) :
    consultations (x :: past) = x.event.mark.consultation?.toList ++ consultations past := by
  unfold consultations
  rw [List.filterMap_cons]
  cases x.event.mark.consultation? <;> rfl

lemma armed_mem_iff {es : List Entry} : .armed ∈ marks es ↔ 0 < count Mark.isArmed es := by
  rw [marks, List.mem_map, count, List.countP_pos_iff]
  refine exists_congr fun x => and_congr_right fun _ => ?_
  cases x.event.mark <;> simp [Mark.isArmed]

lemma mem_closures {es : List Entry} {s : Settlement} :
    s ∈ closures es ↔ .answered .close s ∈ marks es := by
  rw [closures, List.mem_filterMap, marks, List.mem_map]
  refine exists_congr fun x => and_congr_right fun _ => ?_
  cases hm : x.event.mark with
  | answered request s' => cases request <;> simp [Mark.closure?]
  | _ => simp [Mark.closure?]

lemma lastEnd_cons (x : Entry) (past : List Entry) :
    lastEnd (x :: past) = if x.event.mark.isEnd then some x.time else lastEnd past := by
  unfold lastEnd
  rw [List.find?_cons]
  cases x.event.mark.isEnd <;> rfl

lemma abortTime_cons (x : Entry) (past : List Entry) :
    abortTime (x :: past) = if x.event.mark.isAbort then some x.time else abortTime past := by
  unfold abortTime
  rw [List.find?_cons]
  cases x.event.mark.isAbort <;> rfl

lemma lastEnd_remarks {new : List Event} (h : ∀ e ∈ new, e.mark = .remark) (time : Nat)
    (past : List Entry) : lastEnd (new.map (Entry.mk time) ++ past) = lastEnd past := by
  induction new with
  | nil => rfl
  | cons e new ih =>
    rw [List.map_cons, List.cons_append, lastEnd_cons, h e List.mem_cons_self]
    exact ih fun e he => h e (List.mem_cons_of_mem _ he)

lemma abortTime_remarks {new : List Event} (h : ∀ e ∈ new, e.mark = .remark) (time : Nat)
    (past : List Entry) : abortTime (new.map (Entry.mk time) ++ past) = abortTime past := by
  induction new with
  | nil => rfl
  | cons e new ih =>
    rw [List.map_cons, List.cons_append, abortTime_cons, h e List.mem_cons_self]
    exact ih fun e he => h e (List.mem_cons_of_mem _ he)

/-- The connection that is asked for opens. -/
def Plan.Opens (plan : Plan) : Prop :=
  ∃ after a, plan.opening.settlement? .nothing = some (after, .fulfilled a)

/-- Whether a run opens a connection of its own and tears it down. -/
def Scope.tearsDown : Scope → Bool
  | sender | program => true
  | attempt | loop => false

/-- Where a run has come to. -/
inductive Place where
  | opening
  /-- A client that would not open is closed. -/
  | discarding
  /-- In the loop, between two attempts. -/
  | between
  /-- In an attempt that has not yet called the method. -/
  | calling
  | invoking
  /-- The call succeeded, and the event is to be sent. -/
  | succeeded
  /-- The call was answered with another status. -/
  | declined
  /-- A call failed, and the policy is to be asked. -/
  | refused (stage : Stage) (e : Value)
  | dealt
  | publishing
  | sent
  | closing
  | closed (s : Settlement)
  | completed
  | detached

namespace Place

def start (plan : Plan) : Place := if plan.scope.tearsDown then opening else between

def afterInvoke : Settlement → Place
  | .rejected e => refused .invoke e
  | .fulfilled a => if Settlement.isSuccess (.fulfilled a) then succeeded else declined

def afterPublish : Settlement → Place
  | .rejected e => refused .publish e
  | .fulfilled _ => sent

def outcome? : Place → Option Outcome
  | sent => some .published
  | declined => some .skipped
  | dealt => some .failed
  | _ => none

/-- The places at which a loop can be left: no call is in flight, and no failure waits for the
policy. -/
def mayLeave : Place → Bool
  | between | calling | succeeded | declined | dealt | sent => true
  | _ => false

def inFlight : Place → Nat
  | invoking | publishing => 1
  | _ => 0

def owed : Place → Nat
  | succeeded => 1
  | _ => 0

/-- How many events can still be sent in the attempt that is under way, if no other call is made. -/
def unsent : Place → Nat
  | invoking | succeeded => 1
  | _ => 0

def refusal : Place → List (Stage × Value)
  | refused stage e => [(stage, e)]
  | _ => []

/-- How often the coordinator is still to be armed. -/
def unarmed : Place → Nat
  | opening | discarding => 1
  | _ => 0

def closings : Place → Nat
  | discarding | closing | closed _ | completed | detached => 1
  | _ => 0

def listens : Place → Bool
  | opening | discarding | detached => false
  | _ => true

def isComplete : Place → Bool
  | completed | detached => true
  | _ => false

/-- The places of a run that tears down what it has opened, outside its loop. -/
def isOuter : Place → Bool
  | opening | discarding | closing | closed _ | completed | detached => true
  | _ => false

/-- Closing has ended, and well if the connection does not see to that itself. -/
def ClosedWell (plan : Plan) (es : List Entry) : Prop :=
  ∃ s, (plan.link = .direct → s.isFulfilled = true) ∧ closures es = [s]

/-- What has happened before a place of the teardown: closing has ended once, then the latch was
set, then the listeners were removed. -/
def Recalls (plan : Plan) (es : List Entry) : Place → Prop
  | closed s => closures es = [s]
  | completed => .completed ∈ marks es ∧ ClosedWell plan es
  | detached => .detached ∈ marks es ∧ .completed ∈ marks es ∧ ClosedWell plan es
  | _ => closures es = []

end Place

/-- At this time the pause after the last of some attempts is over. -/
def Spaced (plan : Plan) (past : List Entry) (time : Nat) : Prop :=
  plan.pace = .timed → ∀ u, lastEnd past = some u → u + Timers.effectiveDelay plan.interval ≤ time

/-- Where an event leads that comes at this time, after this past. -/
inductive Leads (plan : Plan) (past : List Entry) (time : Nat) (aborted : Bool) :
    Place → Mark → Place → Prop where
  | remark {p} : Leads plan past time aborted p .remark p
  | abort {p} : aborted = false → Leads plan past time aborted p .abort p
  | forced {p} : aborted = true → p.isComplete = false → Leads plan past time aborted p .forced p
  | dial : Leads plan past time aborted .opening .dial .opening
  | discard : plan.link = .client → Leads plan past time aborted .opening .close .discarding
  | arm : (plan.link = .direct → plan.Opens) →
      Leads plan past time aborted .opening .armed .between
  | attempt : aborted = false → Spaced plan past time →
      Leads plan past time aborted .between .began .calling
  | invoke : aborted = false →
      Leads plan past time aborted .calling (.invoke plan.target .standard) .invoking
  | invoked {s} : Leads plan past time aborted .invoking (.answered .invoke s) (.afterInvoke s)
  | publish : Leads plan past time aborted .succeeded (.publish .success) .publishing
  | published {s} :
      Leads plan past time aborted .publishing (.answered .publish s) (.afterPublish s)
  | consult {stage e} : Leads plan past time aborted (.refused stage e) (.consulted stage e) .dealt
  | finish {p o} : p.outcome? = some o → Leads plan past time aborted p (.ended o) .between
  | close {p} : plan.scope.tearsDown = true → p.mayLeave = true →
      Leads plan past time aborted p .close .closing
  | closed {s} : Leads plan past time aborted .closing (.answered .close s) (.closed s)
  | complete {s} : (plan.link = .direct → s.isFulfilled = true) →
      Leads plan past time aborted (.closed s) .completed .completed
  | detach : Leads plan past time aborted .completed .detached .detached

/-- The events of a run so far, newest first, the place that they have led to, and whether the work
was aborted. -/
inductive History (plan : Plan) : List Entry → Place → Bool → Prop where
  | nil : History plan [] (.start plan) false
  | cons {past p q aborted time e m} : History plan past p aborted → e.mark = m →
      Leads plan past time aborted p m q →
      History plan (⟨time, e⟩ :: past) q (aborted || m.isAbort)

end EdgeCaller.Sender

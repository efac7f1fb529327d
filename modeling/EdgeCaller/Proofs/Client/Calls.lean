import Mathlib.Algebra.Ring.Nat
import Mathlib.Data.List.Nodup
import Mathlib.Tactic.Common
import EdgeCaller.Client.Connection
/-!
What is asked of an open client, and what it answers.

Calls may be made over a connection before earlier ones are answered, and several in one go. From
what was ordered so far it can be told which calls the client should have received, and when: all
of them, but closing only once. From the calls and the script it can be told what the client
answers, and when. Orders, calls and answers are kept newest first.
-/

namespace EdgeCaller

/-- An answer to a call, and the time at which it comes. -/
structure Arrival where
  call : CallId
  time : Nat
  settlement : Settlement

/-- Those of some answers that are answers to one call. -/
def answersTo (call : CallId) (l : List Arrival) : List Arrival := l.filter fun a => a.call = call

section

variable {l l' : List Arrival}

lemma length_answersTo_le_one (h : (l.map (·.call)).Nodup) (call : CallId) :
    (answersTo call l).length ≤ 1 := by
  have hcount := List.nodup_iff_count_le_one.mp h call
  rw [List.count, List.countP_map, List.countP_eq_length_filter] at hcount
  refine Nat.le_trans (Nat.le_of_eq (congrArg List.length (List.filter_congr fun a _ => ?_))) hcount
  exact (beq_eq_decide a.call call).symm

/-- Where each call is answered once at most, the order of the answers tells nothing more. -/
lemma answersTo_eq_of_perm (h : l.Perm l') (hnodup : (l'.map (·.call)).Nodup) (call : CallId) :
    answersTo call l = answersTo call l' := by
  have hperm : (answersTo call l).Perm (answersTo call l') := h.filter _
  have hone := length_answersTo_le_one hnodup call
  generalize answersTo call l' = answers at hperm hone
  match answers, hone with
  | [], _ => exact hperm.eq_nil
  | [a], _ => exact List.perm_singleton.mp hperm

end

/-- What a call asks of a client that is open. -/
def Event.request? : Event → Option Request
  | clientInvoke .. => some .invoke
  | clientSend _ => some .publish
  | clientClose => some .close
  | _ => none

/-- A call to a client that is open. -/
def Event.isClientCall (e : Event) : Bool := e.request?.isSome

/-- The end of a method call, or of the sending of an event, as it is seen over a connection. -/
def Entry.served? (x : Entry) : Option Arrival :=
  match x.event with
  | .ended call s => some ⟨call, x.time, s⟩
  | _ => none

/-- How many calls ask for this. -/
def countCalls (request : Request) (l : List Entry) : Nat :=
  l.countP fun x => x.event.request? = some request

lemma countCalls_cons (request : Request) (x : Entry) (l : List Entry) :
    countCalls request (x :: l) =
      countCalls request l + (decide (x.event.request? = some request)).toNat := by
  rw [countCalls, List.countP_cons, countCalls]
  by_cases h : x.event.request? = some request <;> simp [h]

/-- How many calls were made that ask for this. -/
def Tally.made (tally : Tally) : Request → Nat
  | .invoke => tally.invokes
  | .publish => tally.publishes
  | .close => tally.closes

/-- When and how a call is answered that was made at a time. -/
def Reply.arrival? (r : Reply) (answer : Answer) (time : Nat) (call : CallId) : Option Arrival :=
  (r.settlement? answer).map fun (after, s) => ⟨call, time + after, s⟩

namespace Script

/-- The answer to a call that comes after other calls. -/
def answer? (script : Script) (tally : Tally) (earlier : List Entry) (x : Entry) :
    Option Arrival :=
  match x.event with
  | .clientInvoke .. =>
    let n := tally.invokes + countCalls .invoke earlier
    let reply := Reply.nth script.invokes n
    reply.arrival? (.response reply.status reply.payload) x.time ⟨.invoke, n + 1⟩
  | .clientSend _ =>
    let n := tally.publishes + countCalls .publish earlier
    (Reply.nth script.publishes n).arrival? .nothing x.time ⟨.publish, n + 1⟩
  | _ => none

/-- The answers to method calls and events, in whatever order they come. A call that is never
answered has none. -/
def answers (script : Script) (tally : Tally) : List Entry → List Arrival
  | [] => []
  | x :: earlier => (script.answer? tally earlier x).toList ++ script.answers tally earlier

variable {script : Script} {tally : Tally} {x : Entry} {l : List Entry} {a : Arrival}

/-- An answer carries the number of its call. -/
lemma answer?_call (h : script.answer? tally l x = some a) :
    x.event.request? = some a.call.request ∧
      a.call.number = tally.made a.call.request + countCalls a.call.request l + 1 := by
  unfold answer? at h
  split at h
  · next hx =>
    obtain ⟨_, -, rfl⟩ := Option.map_eq_some_iff.mp h
    exact ⟨by rw [hx]; rfl, rfl⟩
  · next hx =>
    obtain ⟨_, -, rfl⟩ := Option.map_eq_some_iff.mp h
    exact ⟨by rw [hx]; rfl, rfl⟩
  · simp at h

lemma number_le (h : a ∈ script.answers tally l) :
    a.call.number ≤ tally.made a.call.request + countCalls a.call.request l := by
  induction l with
  | nil => simp [answers] at h
  | cons x l ih =>
    rw [countCalls_cons]
    rcases List.mem_append.mp h with h | h
    · obtain ⟨hrequest, hnumber⟩ := answer?_call (Option.mem_toList.mp h)
      simp [hrequest, hnumber, Nat.add_assoc]
    · exact Nat.le_trans (ih h) (by omega)

/-- Each call is answered once at most. -/
lemma nodup_answers (script : Script) (tally : Tally) (l : List Entry) :
    ((script.answers tally l).map (·.call)).Nodup := by
  induction l with
  | nil => exact List.nodup_nil
  | cons x l ih =>
    rw [answers]
    cases hx : script.answer? tally l x with
    | none => exact ih
    | some a =>
      refine List.nodup_cons.mpr ⟨fun hmem => ?_, ih⟩
      obtain ⟨b, hb, hcall : b.call = a.call⟩ := List.mem_map.mp hmem
      have hnumber := (answer?_call hx).2
      have hle := number_le hb
      rw [hcall] at hle
      omega

lemma answers_congr (script : Script) {tally tally' : Tally}
    (hinvokes : tally.invokes = tally'.invokes)
    (hpublishes : tally.publishes = tally'.publishes) (calls : List Entry) :
    script.answers tally calls = script.answers tally' calls := by
  induction calls with
  | nil => rfl
  | cons x calls ih => simp only [answers, answer?, hinvokes, hpublishes, ih]

end Script

namespace Connection

namespace Command

def isClose : Command → Bool
  | close => true
  | _ => false

def duration : Command → Nat
  | pass ms => ms
  | _ => 0

end Command

/-- A command, and whether the queue is worked off after it. -/
structure Order where
  command : Command
  flush : Bool

/-- Whether an order is one to an open connection. Before time passes the queue is worked off, and
after each timer. -/
def Order.isPrompt (o : Order) : Bool :=
  match o.command with
  | .openOver _ => false
  | .invoke .. | .publish _ | .close => true
  | .pass _ => o.flush

/-- The time, after these orders. -/
def clock (start : Nat) (past : List Order) : Nat :=
  start + (past.map fun o => o.command.duration).sum

/-- Whether closing was among these orders. -/
def wasClosed (past : List Order) : Bool := past.any fun o => o.command.isClose

/-- The calls that a client should have received. -/
def calls (start : Nat) : List Order → List Entry
  | [] => []
  | o :: past =>
    match o.command with
    | .invoke target call => ⟨clock start past, .clientInvoke target call⟩ :: calls start past
    | .publish event => ⟨clock start past, .clientSend event⟩ :: calls start past
    | .close =>
      if wasClosed past then calls start past
      else ⟨clock start past, .clientClose⟩ :: calls start past
    | .openOver _ | .pass _ => calls start past

/-- A connection after these orders. -/
def run (c₀ : Connection) : List Order → Connection
  | [] => c₀
  | o :: past => (c₀.run past).obey o.flush o.command

@[simp] lemma clock_nil (start : Nat) : clock start [] = start := rfl

@[simp] lemma clock_cons (start : Nat) (o : Order) (past : List Order) :
    clock start (o :: past) = clock start past + o.command.duration := by
  simp [clock, Nat.add_comm, Nat.add_left_comm]

@[simp] lemma wasClosed_nil : wasClosed [] = false := rfl

@[simp] lemma wasClosed_cons (o : Order) (past : List Order) :
    wasClosed (o :: past) = (o.command.isClose || wasClosed past) := rfl

end Connection

end EdgeCaller

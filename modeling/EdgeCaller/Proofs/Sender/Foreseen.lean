import Mathlib.Tactic.Common
import EdgeCaller.Proofs.Writing
import EdgeCaller.Sender.Run
/-!
What a plan foresees.

The replies of a script say which answers can come in each phase of a run. A failure can only come
from a reply that the script holds, for where it holds none a call succeeds.
-/

namespace EdgeCaller

/-- The value that a reply fails with, if it fails. -/
def Reply.failure? (r : Reply) : Option Value :=
  match r.course with
  | .throws e | .fails e _ => some e
  | .never | .succeeds _ => none

namespace Sender

/-- Whenever the policy is asked about a failure it returns, if the console and the clock let it. -/
def Policy.Returns (policy : Policy) (stage : Stage) (e : Value) : Prop :=
  ∀ n j, Journal.Undisturbed j → (policy.consult n stage e).Succeeds j

/-- A policy that only takes note of failures returns for each that there are words for. -/
lemma Policy.returns_record {e words : Value} (h : e.report = .ok words) (stage : Stage) :
    record.Returns stage e := fun n j _ =>
  ⟨(), j.add (.policy stage e.kind words), by simp [record, consult, notePolicy, h, Act.ofText]⟩

namespace Plan

/-- Every status in the script is a number, and the policy returns for every failure in it. -/
structure Benign (plan : Plan) : Prop where
  statuses : ∀ reply ∈ plan.script.invokes, ∃ x, reply.status = .number x
  invokes : ∀ reply ∈ plan.script.invokes, ∀ e, reply.failure? = some e →
    plan.policy.Returns .invoke e
  publishes : ∀ reply ∈ plan.script.publishes, ∀ e, reply.failure? = some e →
    plan.policy.Returns .publish e

/-- The replies that a plan holds for what is awaited in a phase. -/
def Replies (plan : Plan) (phase : Phase) (reply : Option (Nat × Settlement)) : Prop :=
  match phase with
  | .connecting => plan.opening.settlement? .nothing = reply
  | .invoking _ => ∃ n, (Reply.nth plan.script.invokes n).response? = reply
  | .publishing => ∃ n, (Reply.nth plan.script.publishes n).settlement? .nothing = reply
  | .closing _ => ∃ n, (Reply.nth plan.script.closes n).settlement? .nothing = reply
  | .idle | .dialing _ | .pausing | .ended _ => True

/-- The answers that a plan holds for what is awaited in a phase. -/
def Foresees (plan : Plan) (phase : Phase) (s : Settlement) : Prop :=
  ∃ after, plan.Replies phase (some (after, s))

end Plan

end Sender

namespace Reply

lemma nth_mem (replies : List Reply) (n : Nat) : nth replies n ∈ replies ∨ nth replies n = {} := by
  unfold nth
  cases hn : replies[n]? with
  | some reply => exact .inl (List.mem_of_getElem? hn)
  | none =>
    cases hlast : replies.getLast? with
    | some reply => exact .inl (List.mem_of_getLast? hlast)
    | none => exact .inr rfl

variable {reply : Reply} {answer : Answer} {after : Nat}

lemma failure_of_rejected {e : Value} (h : reply.settlement? answer = some (after, .rejected e)) :
    reply.failure? = some e := by
  unfold settlement? at h
  unfold failure?
  split at h
  · simp at h
  · next hcourse =>
    rw [hcourse]
    simp at h
    simp [h]
  · next hcourse =>
    rw [hcourse]
    simp at h
    simp [h]
  · simp at h

lemma answer_of_fulfilled {a : Answer} (h : reply.settlement? answer = some (after, .fulfilled a)) :
    a = answer := by
  unfold settlement? at h
  split at h
  · simp at h
  · simp at h
  · simp at h
  · simp at h
    exact h.2.symm

/-- A failure can only come from a reply that the script holds. -/
lemma mem_of_nth_rejected {replies : List Reply} {n : Nat} {e : Value}
    (h : (nth replies n).settlement? answer = some (after, .rejected e)) :
    ∃ reply ∈ replies, reply.failure? = some e := by
  rcases nth_mem replies n with hmem | hnth
  · exact ⟨_, hmem, failure_of_rejected h⟩
  · rw [hnth] at h
    simp [settlement?] at h

end Reply

namespace Sender

namespace Plan

variable {plan : Plan} {m : Value}

lemma Benign.returns_invoke (hb : plan.Benign) {e : Value}
    (hf : plan.Foresees (.invoking m) (.rejected e)) : plan.policy.Returns .invoke e := by
  obtain ⟨after, n, h⟩ := hf
  obtain ⟨reply, hmem, he⟩ := Reply.mem_of_nth_rejected h
  exact hb.invokes reply hmem e he

lemma Benign.returns_publish (hb : plan.Benign) {e : Value}
    (hf : plan.Foresees .publishing (.rejected e)) : plan.policy.Returns .publish e := by
  obtain ⟨after, n, h⟩ := hf
  obtain ⟨reply, hmem, he⟩ := Reply.mem_of_nth_rejected h
  exact hb.publishes reply hmem e he

/-- A call of the method is answered with a response. -/
lemma Foresees.response {a : Answer} (hf : plan.Foresees (.invoking m) (.fulfilled a)) :
    ∃ reply payload, a = .response reply.status payload ∧
      (reply ∈ plan.script.invokes ∨ reply = {}) := by
  obtain ⟨after, n, h⟩ := hf
  exact ⟨_, _, Reply.answer_of_fulfilled h, Reply.nth_mem _ n⟩

/-- A status that is awaited can be written, where every status in the script is a number. -/
lemma Foresees.writable_status
    (hstatuses : ∀ reply ∈ plan.script.invokes, ∃ x, reply.status = .number x)
    {status payload : Value}
    (hf : plan.Foresees (.invoking m) (.fulfilled (.response status payload))) :
    status.Writable := by
  obtain ⟨reply, payload, ha, hmem⟩ := Foresees.response hf
  obtain ⟨rfl, rfl⟩ := Answer.response.inj ha
  rcases hmem with hmem | rfl
  · obtain ⟨x, hx⟩ := hstatuses reply hmem
    rw [hx]
    exact Value.writable_number x
  · exact Value.writable_number _

lemma Benign.writable_status (hb : plan.Benign) {status payload : Value}
    (hf : plan.Foresees (.invoking m) (.fulfilled (.response status payload))) :
    status.Writable := Foresees.writable_status hb.statuses hf

end Plan

end Sender

end EdgeCaller

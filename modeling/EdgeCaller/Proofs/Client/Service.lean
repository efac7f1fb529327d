import Mathlib.Algebra.Order.BigOperators.Group.List
import Mathlib.Algebra.Order.Ring.Nat
import EdgeCaller.Proofs.Client.Calls
import EdgeCaller.Proofs.Writing
/-!
An open connection hands answers on.

The answer of a client is on its way until its timer fires, then it waits its turn in the queue, and
so does the end of the operation until it is seen. `Serves` says that no answer to a method call or
an event is lost on the way, or changed. It is kept by every turn, and as time passes.
-/

namespace EdgeCaller

/-- The call over an open connection that an operation stands for, closing apart. -/
def Operation.call? : Operation → Option CallId
  | invoking number => some ⟨.invoke, number⟩
  | publishing number => some ⟨.publish, number⟩
  | opening .. | closing => none

namespace Answered

/-- The answer, if it is one to a method call or an event. -/
def arrival? (time : Nat) (a : Answered) : Option Arrival :=
  a.operation.call?.map (⟨·, time, a.settlement⟩)

/-- Nothing is being opened. -/
structure Plain (a : Answered) : Prop where
  operation : ∀ transport dial, a.operation ≠ .opening transport dial
  settlement : a.settlement ≠ .fulfilled .connection

end Answered

namespace Turn

/-- What comes of a turn, if it belongs to a method call or an event. -/
def arrival? (time : Nat) : Turn → Option Arrival
  | answered a => a.arrival? time
  | ending _ operation s => (⟨operation, s⟩ : Answered).arrival? time

/-- A turn that belongs to no opening. -/
inductive Plain : Turn → Prop where
  | answered {a} : a.Plain → Plain (.answered a)
  | ending {operation s} : s ≠ .fulfilled .connection → Plain (.ending 0 operation s)

/-- The turns that it takes until the end is seen, this one included. -/
def toGo : Turn → Nat
  | answered _ => 2
  | ending turns _ _ => turns + 1

lemma Plain.toGo_le {turn : Turn} (h : turn.Plain) : turn.toGo ≤ 2 := by
  cases h <;> simp [toGo]

end Turn

namespace Connection

variable {c₀ c : Connection} {l : List Entry} {shut : Bool} {owed : Option Arrival}
  {past : List Order} {s : Settlement} {a : Answered} {turn : Turn}

/-- The answers that have arrived or are to come. -/
def arriving (c : Connection) : List Arrival :=
  c.queue.filterMap (·.arrival? c.journal.now) ++
    c.timers.filterMap fun t => t.wake.arrival? t.due

/-- The method calls and events whose end was seen. -/
def served (c : Connection) : List Arrival := c.journal.entries.filterMap Entry.served?

def clientCalls (c : Connection) : List Entry :=
  c.journal.entries.filter fun x => x.event.isClientCall

/-- The state of a connection that was open and at rest, after the client has received these calls.
One answer may be `owed`: it is in hand, and neither queued nor seen. -/
structure Serves (c₀ : Connection) (l : List Entry) (shut : Bool) (owed : Option Arrival)
    (c : Connection) : Prop where
  fresh : ∃ new, c.journal.entries = new ++ c₀.journal.entries ∧ ∀ x ∈ new, x.time ≤ c.journal.now
  calls : c.clientCalls = l ++ c₀.clientCalls
  script : c.script = c₀.script
  tally : ∀ request, c.tally.made request = c₀.tally.made request + countCalls request l
  isClosed : c.isClosed = shut
  queue : ∀ turn ∈ c.queue, turn.Plain
  timers : ∀ t ∈ c.timers, t.wake.Plain ∧ c.journal.now ≤ t.due
  ledger : (owed.toList ++ c.arriving ++ c.served).Perm
    (c₀.script.answers c₀.tally l ++ c₀.served)

/-- The end of a call is seen as the end of that call. -/
lemma served?_ended (operation : Operation) (s : Settlement) (time : Nat) :
    Entry.served? ⟨time, operation.ended s⟩ = (⟨operation, s⟩ : Answered).arrival? time := by
  cases operation <;> rfl

lemma served?_time {x : Entry} {arrival : Arrival} (h : x.served? = some arrival) :
    arrival.time = x.time := by
  unfold Entry.served? at h
  split at h
  · rw [← Option.some.inj h]
  · simp at h

lemma arrival?_time {time : Nat} {arrival : Arrival} (h : a.arrival? time = some arrival) :
    arrival.time = time := by
  obtain ⟨call, -, rfl⟩ := Option.map_eq_some_iff.mp h
  rfl

namespace Serves

/-- An answer that was given, and not only just now, is on its way or has been seen. -/
lemma ledger_new (h : Serves c₀ l shut none c) {new : List Entry}
    (hnew : c.journal.entries = new ++ c₀.journal.entries) :
    (c.arriving ++ new.filterMap Entry.served?).Perm (c₀.script.answers c₀.tally l) := by
  have hledger := h.ledger
  rw [served, hnew, List.filterMap_append, ← List.append_assoc] at hledger
  exact (List.perm_append_right_iff _).mp hledger

/-- No call ends twice. -/
lemma nodup_ledger (h : Serves c₀ l shut none c) {new : List Entry}
    (hnew : c.journal.entries = new ++ c₀.journal.entries) :
    ((c.arriving ++ new.filterMap Entry.served?).map (·.call)).Nodup :=
  ((h.ledger_new hnew).map _).nodup_iff.mpr (Script.nodup_answers _ _ _)

/-! ### Turns -/

/-- Lines are of no account. -/
lemma lines (h : Serves c₀ l shut owed c) {k : Journal}
    (hk : c.journal.Extends (·.isLine = true) k) :
    Serves c₀ l shut owed { c with journal := k } := by
  obtain ⟨new, hnew, hline⟩ := hk.entries
  have hfresh : ∀ x ∈ new.map (Entry.mk c.journal.now), x.time = c.journal.now ∧
      x.event.isClientCall = false ∧ x.served? = none := by
    intro x hx
    obtain ⟨e, he, rfl⟩ := List.mem_map.mp hx
    have hisLine := hline e he
    cases e with
    | line level text => exact ⟨rfl, rfl, rfl⟩
    | _ => simp [Event.isLine] at hisLine
  have hcalls : ({ c with journal := k } : Connection).clientCalls = c.clientCalls := by
    rw [clientCalls, clientCalls, hnew, List.filter_append, List.filter_eq_nil_iff.mpr]
    · rfl
    · simpa using fun x hx => (hfresh x hx).2.1
  have hserved : ({ c with journal := k } : Connection).served = c.served := by
    rw [served, served, hnew, List.filterMap_append, List.filterMap_eq_nil_iff.mpr]
    · rfl
    · exact fun x hx => (hfresh x hx).2.2
  have harriving : ({ c with journal := k } : Connection).arriving = c.arriving := by
    rw [arriving, arriving, hk.now]
  exact
    { h with
      fresh := by
        obtain ⟨new', hnew', htime⟩ := h.fresh
        refine ⟨_, by rw [hnew, hnew', ← List.append_assoc], fun x hx => ?_⟩
        rw [hk.now]
        rcases List.mem_append.mp hx with hx | hx
        · exact Nat.le_of_eq (hfresh x hx).1
        · exact htime x hx
      calls := hcalls.trans h.calls
      timers := by rw [hk.now]; exact h.timers
      ledger := by rw [harriving, hserved]; exact h.ledger }

lemma enqueue (h : Serves c₀ l shut (turn.arrival? c.journal.now) c) (hturn : turn.Plain) :
    Serves c₀ l shut none (c.enqueue turn) :=
  { h with
    queue := fun turn' hmem => by
      rcases List.mem_append.mp hmem with hmem | hmem
      · exact h.queue turn' hmem
      · rw [List.mem_singleton.mp hmem]; exact hturn
    ledger := by
      refine List.Perm.trans ?_ h.ledger
      have hlast : [turn].filterMap (·.arrival? c.journal.now) =
          (turn.arrival? c.journal.now).toList := by
        rw [List.filterMap_cons]
        cases turn.arrival? c.journal.now <;> rfl
      simp only [arriving, Connection.enqueue, List.filterMap_append, hlast, Option.toList_none,
        List.nil_append]
      refine List.Perm.append_right _ ?_
      rw [← List.append_assoc]
      exact List.perm_append_comm.append_right _ }

end Serves

/-- An operation on an open connection goes on to its end at once: what closing was answered with is
kept back, the others end as they were answered. -/
lemma resume_eq (c : Connection) (ha : a.Plain) :
    ∃ k s, c.journal.Extends (·.isLine = true) k ∧ s ≠ .fulfilled .connection ∧
      (∀ time, (⟨a.operation, s⟩ : Answered).arrival? time = a.arrival? time) ∧
      c.resume a = { c with journal := k }.enqueue (.ending 0 a.operation s) := by
  obtain ⟨operation, s⟩ := a
  cases operation with
  | opening transport dial => exact absurd rfl (ha.operation transport dial)
  | invoking | publishing => exact ⟨_, s, .refl _ _, ha.settlement, fun _ => rfl, rfl⟩
  | closing =>
    have hk := Client.writes_closeAnswered (P := (·.isLine = true)) (fun _ _ => rfl) s c.journal
    simp only [resume, perform]
    rcases hact : (Client.closeAnswered s).exec c.journal with ⟨e | a, k⟩ <;> rw [hact] at hk
    · exact ⟨k, .rejected e, hk, Settlement.noConfusion, fun _ => rfl, rfl⟩
    · exact ⟨k, .fulfilled .nothing, hk, by simp, fun _ => rfl, rfl⟩

lemma Serves.resume (h : Serves c₀ l shut (a.arrival? c.journal.now) c) (ha : a.Plain) :
    Serves c₀ l shut none (c.resume a) := by
  obtain ⟨k, s, hk, hs, harrival, hresume⟩ := resume_eq c ha
  rw [hresume]
  have howed : Serves c₀ l shut
      ((Turn.ending 0 a.operation s).arrival?
        ({ c with journal := k } : Connection).journal.now)
      { c with journal := k } := by
    rw [Turn.arrival?, harrival, hk.now]
    exact h.lines hk
  exact howed.enqueue (.ending hs)

lemma conclude_eq (operation : Operation) (hs : s ≠ .fulfilled .connection) :
    c.conclude operation s = c.note (operation.ended s) := by
  unfold conclude
  split
  · exact absurd rfl hs
  · rfl

/-- The end of an operation is seen. -/
lemma Serves.conclude {operation : Operation}
    (h : Serves c₀ l shut ((⟨operation, s⟩ : Answered).arrival? c.journal.now) c)
    (hs : s ≠ .fulfilled .connection) : Serves c₀ l shut none (c.conclude operation s) := by
  rw [← served?_ended] at h
  rw [conclude_eq operation hs]
  have hcall : (operation.ended s).isClientCall = false := by cases operation <;> rfl
  generalize operation.ended s = e at h hcall ⊢
  exact
    { h with
      fresh := by
        obtain ⟨new, hnew, htime⟩ := h.fresh
        refine ⟨⟨c.journal.now, e⟩ :: new, ?_, fun x hx => ?_⟩
        · rw [note, Journal.entries_add, hnew]; rfl
        · rcases List.mem_cons.mp hx with rfl | hx
          · exact Nat.le_refl _
          · exact htime x hx
      calls := by
        rw [clientCalls, note, Journal.entries_add, List.filter_cons_of_neg (by simp [hcall])]
        exact h.calls
      ledger := by
        refine List.Perm.trans ?_ h.ledger
        have hserved : (c.note e).served =
            (Entry.served? ⟨c.journal.now, e⟩).toList ++ c.served := by
          rw [served, note, Journal.entries_add, List.filterMap_cons]
          cases Entry.served? ⟨c.journal.now, e⟩ <;> rfl
        rw [hserved, Option.toList_none, List.nil_append, ← List.append_assoc]
        exact List.perm_append_comm.append_right _ }

/-- The turns until everything that is queued is seen. -/
def toGo (c : Connection) : Nat := (c.queue.map Turn.toGo).sum

lemma toGo_enqueue (c : Connection) (turn : Turn) :
    (c.enqueue turn).toGo = c.toGo + turn.toGo := by
  simp [toGo, enqueue]

namespace Serves

/-- A turn brings the end of its operation nearer, and starts nothing. -/
lemma take (h : Serves c₀ l shut (turn.arrival? c.journal.now) c) (hturn : turn.Plain) :
    Serves c₀ l shut none (c.take turn) ∧ (c.take turn).timers = c.timers ∧
      (c.take turn).journal.now = c.journal.now ∧
      (c.take turn).toGo + 1 = turn.toGo + c.toGo := by
  cases hturn with
  | @answered a ha =>
    obtain ⟨k, s, hk, -, -, hresume⟩ := resume_eq c ha
    refine ⟨h.resume ha, ?_⟩
    rw [Connection.take, hresume, toGo_enqueue]
    refine ⟨rfl, hk.now, ?_⟩
    simp only [Turn.toGo, toGo]
    omega
  | @ending operation s hs =>
    refine ⟨h.conclude hs, ?_⟩
    rw [Connection.take, conclude_eq operation hs]
    exact ⟨rfl, rfl, Nat.add_comm _ _⟩

lemma takeNext (h : Serves c₀ l shut none c) {rest : List Turn} (hqueue : c.queue = turn :: rest) :
    Serves c₀ l shut none ({ c with queue := rest }.take turn) ∧
      ({ c with queue := rest }.take turn).timers = c.timers ∧
      ({ c with queue := rest }.take turn).journal.now = c.journal.now ∧
      ({ c with queue := rest }.take turn).toGo + 1 = c.toGo := by
  have howed : Serves c₀ l shut (turn.arrival? c.journal.now) { c with queue := rest } :=
    { h with
      queue := fun turn' hmem => h.queue turn' (by rw [hqueue]; exact List.mem_cons_of_mem _ hmem)
      ledger := by
        refine List.Perm.trans (List.Perm.of_eq ?_) h.ledger
        simp only [arriving, hqueue, List.filterMap_cons, served]
        cases turn.arrival? c.journal.now <;> simp }
  have hgo : c.toGo = turn.toGo + ({ c with queue := rest } : Connection).toGo := by
    rw [toGo, hqueue, List.map_cons, List.sum_cons]
    rfl
  rw [hgo]
  exact howed.take (h.queue turn (by rw [hqueue]; exact List.mem_cons_self))

lemma drainFor (h : Serves c₀ l shut none c) {fuel : Nat} (hfuel : c.toGo ≤ fuel) :
    Serves c₀ l shut none (c.drainFor fuel) ∧ (c.drainFor fuel).queue = [] ∧
      (c.drainFor fuel).timers = c.timers ∧ (c.drainFor fuel).journal.now = c.journal.now := by
  induction fuel generalizing c with
  | zero =>
    refine ⟨h, ?_, rfl, rfl⟩
    cases hqueue : c.queue with
    | nil => exact hqueue
    | cons turn rest =>
      obtain ⟨-, -, -, hgo⟩ := h.takeNext hqueue
      omega
  | succ fuel ih =>
    cases hqueue : c.queue with
    | nil =>
      simp only [Connection.drainFor, hqueue]
      exact ⟨h, trivial, trivial, trivial⟩
    | cons turn rest =>
      simp only [Connection.drainFor, hqueue]
      obtain ⟨htaken, htimers, hnow, hgo⟩ := h.takeNext hqueue
      generalize { c with queue := rest }.take turn = c' at htaken htimers hnow hgo
      obtain ⟨hserves, hqueue', htimers', hnow'⟩ := ih htaken (by omega)
      exact ⟨hserves, hqueue', htimers'.trans htimers, hnow'.trans hnow⟩

lemma drain (h : Serves c₀ l shut none c) :
    Serves c₀ l shut none c.drain ∧ c.drain.queue = [] ∧ c.drain.timers = c.timers ∧
      c.drain.journal.now = c.journal.now := by
  refine h.drainFor ?_
  have hsum : (c.queue.map Turn.toGo).sum ≤ (c.queue.map Turn.toGo).length • 2 := by
    refine List.sum_le_card_nsmul _ _ fun n hn => ?_
    obtain ⟨turn, hturn, rfl⟩ := List.mem_map.mp hn
    exact (h.queue turn hturn).toGo_le
  rw [List.length_map, Nat.nsmul_eq_mul] at hsum
  rw [toGo]
  omega

/-! ### Time -/

lemma moveTo (h : Serves c₀ l shut none c) (hqueue : c.queue = []) {time : Nat}
    (htime : c.journal.now ≤ time) (hdue : ∀ t ∈ c.timers, time ≤ t.due) :
    Serves c₀ l shut none (c.moveTo time) :=
  { h with
    fresh := by
      obtain ⟨new, hnew, hnow⟩ := h.fresh
      exact ⟨new, hnew, fun x hx => Nat.le_trans (hnow x hx) htime⟩
    timers := fun t ht => ⟨(h.timers t ht).1, hdue t ht⟩
    ledger := by
      have hledger := h.ledger
      simp only [arriving, hqueue, List.filterMap_nil] at hledger
      simp only [arriving, Connection.moveTo, hqueue, List.filterMap_nil]
      exact hledger }

/-- The next timer fires, and what it brings is seen. -/
lemma fire (h : Serves c₀ l shut none c) (hqueue : c.queue = []) {t : Timer Answered}
    {rest : Timers Answered} (hnext : c.timers.next? = some (t, rest)) :
    Serves c₀ l shut none c.fire.drain ∧ c.fire.drain.queue = [] ∧
      c.fire.drain.timers = rest ∧ c.fire.drain.journal.now = t.due := by
  obtain ⟨hmem, hmin, -⟩ := Timers.next?_eq_some hnext
  obtain ⟨before, after, htimers, rfl⟩ := Timers.split_of_next? hnext
  have hmoved := h.moveTo hqueue (h.timers t hmem).2 hmin
  have howed : Serves c₀ l shut ((Turn.answered t.wake).arrival? t.due)
      ({ c with timers := before ++ after }.moveTo t.due) :=
    { hmoved with
      timers := fun u hu => by
        refine hmoved.timers u ?_
        change u ∈ c.timers
        rw [htimers]
        rcases List.mem_append.mp hu with hu | hu
        · exact List.mem_append_left _ hu
        · exact List.mem_append_right _ (List.mem_cons_of_mem _ hu)
      ledger := by
        refine List.Perm.trans ?_ hmoved.ledger
        simp only [arriving, Connection.moveTo, hqueue, htimers, List.filterMap_nil,
          List.nil_append, Option.toList_none, List.filterMap_append, List.filterMap_cons]
        refine List.Perm.append_right _ ?_
        change ((t.wake.arrival? t.due).toList ++ _).Perm _
        cases t.wake.arrival? t.due with
        | none => exact .refl _
        | some arrival =>
          change (arrival :: (before.filterMap _ ++ after.filterMap _)).Perm
            (before.filterMap _ ++ arrival :: after.filterMap _)
          exact List.perm_middle.symm }
  have hfire : c.fire =
      ({ c with timers := before ++ after }.moveTo t.due).enqueue (.answered t.wake) := by
    rw [Connection.fire, hnext]
  rw [hfire]
  exact (howed.enqueue (.answered (h.timers t hmem).1)).drain

lemma advanceTo (h : Serves c₀ l shut none c) (hqueue : c.queue = []) {time : Nat}
    (htime : c.journal.now ≤ time) {fuel : Nat} (hfuel : c.timers.length ≤ fuel) :
    ∃ c', (clockwork true).advanceTo time fuel c = c' ∧ Serves c₀ l shut none c' ∧
      c'.queue = [] ∧ c'.journal.now = time ∧ ∀ t ∈ c'.timers, time < t.due := by
  have hmoved : (∀ t ∈ c.timers, time < t.due) → ∃ c', c.moveTo time = c' ∧
      Serves c₀ l shut none c' ∧ c'.queue = [] ∧ c'.journal.now = time ∧
      ∀ t ∈ c'.timers, time < t.due := fun hahead =>
    ⟨_, rfl, h.moveTo hqueue htime fun t ht => Nat.le_of_lt (hahead t ht), hqueue, rfl, hahead⟩
  induction fuel generalizing c with
  | zero =>
    have hnil : c.timers = [] := List.length_eq_zero_iff.mp (Nat.le_zero.mp hfuel)
    exact hmoved (by simp [hnil])
  | succ fuel ih =>
    rw [Clockwork.advanceTo]
    cases hnext : c.timers.next? with
    | none =>
      have hdue : (clockwork true).nextDue c = none := by
        simp [clockwork, Timers.nextDue, hnext]
      rw [hdue]
      exact hmoved (by simp [Timers.next?_eq_none.mp hnext])
    | some next =>
      obtain ⟨t, rest⟩ := next
      have hdue : (clockwork true).nextDue c = some t.due := by
        simp [clockwork, Timers.nextDue, hnext]
      rw [hdue]
      obtain ⟨-, hmin, hlength⟩ := Timers.next?_eq_some hnext
      by_cases hle : t.due ≤ time
      · obtain ⟨hfired, hempty, htimers, hnow⟩ := h.fire hqueue hnext
        simp only [if_pos hle]
        have hfire : (clockwork true).fire c = c.fire.drain := rfl
        rw [hfire]
        generalize c.fire.drain = c' at hfired hempty htimers hnow
        have hfuel' : c'.timers.length ≤ fuel := by rw [htimers]; omega
        have htime' : c'.journal.now ≤ time := by rw [hnow]; exact hle
        refine ih hfired hempty htime' hfuel' fun hahead => ?_
        exact ⟨_, rfl, hfired.moveTo hempty htime' fun u hu => Nat.le_of_lt (hahead u hu),
          hempty, rfl, hahead⟩
      · simp only [if_neg hle]
        exact hmoved fun u hu => Nat.lt_of_lt_of_le (Nat.lt_of_not_le hle) (hmin u hu)

/-- Time passes, and all that is due on the way is seen. -/
lemma advance (h : Serves c₀ l shut none c) (ms : Nat) :
    Serves c₀ l shut none (c.advance true ms) ∧ (c.advance true ms).queue = [] ∧
      (c.advance true ms).journal.now = c.journal.now + ms ∧
      ∀ t ∈ (c.advance true ms).timers, c.journal.now + ms < t.due := by
  obtain ⟨hdrained, hqueue, -, hnow⟩ := h.drain
  obtain ⟨c', hc', hserves, hempty, htime, hahead⟩ := hdrained.advanceTo hqueue
    (Nat.le_add_right _ ms) (Nat.le_mul_of_pos_left c.drain.timers.length (by omega : 0 < 3))
  rw [hnow] at hc' htime hahead
  have hadvance : c.advance true ms = c' := by
    rw [← hc', Connection.advance, if_pos rfl, hnow]
  rw [hadvance]
  exact ⟨hserves, hempty, htime, hahead⟩

end Serves

end Connection

end EdgeCaller

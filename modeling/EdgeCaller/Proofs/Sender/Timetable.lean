import EdgeCaller.Proofs.Sender.Rest
/-!
The timetable of a loop.

How long an attempt takes is up to the replies to its calls, and how long the pause after it to the
interval, so that the plan of a loop says when each of its attempts is due. Which attempts there
were is written in the diary of a run, that is, it is read off its events.

Attempts are counted from zero, and lists of them are newest first, as events are.
-/

namespace EdgeCaller.Sender

/-- An attempt: when it began, and when and how it ended, if it has. -/
structure Slot where
  began : Nat
  ended : Option (Nat × Outcome) := none
  deriving DecidableEq, Repr

/-- What there is of an attempt at a time. -/
def Slot.asOf (now : Nat) (s : Slot) : Slot :=
  { s with ended := s.ended.filter fun (time, _) => time ≤ now }

/-- An attempt that begins so long after the one before it has ended. -/
def Slot.Follows (delay : Nat) (s before : Slot) : Prop :=
  ∃ time outcome, before.ended = some (time, outcome) ∧ s.began = time + delay

/-- Whether the newest of some attempts has not ended. -/
def isUnderWay : List Slot → Bool
  | [] => false
  | s :: _ => s.ended.isNone

/-! ### Plans -/

namespace Plan

/-- How the `n`-th call of the method is answered, and after how long. -/
def called? (plan : Plan) (n : Nat) : Option (Nat × Settlement) :=
  (Reply.nth plan.script.invokes n).response?

/-- How the sending of the `n`-th event is answered, and after how long. -/
def delivered? (plan : Plan) (n : Nat) : Option (Nat × Settlement) :=
  (Reply.nth plan.script.publishes n).settlement? .nothing

/-- How many events are sent in the first `n` attempts: one for each call that succeeds. -/
def sent (plan : Plan) : Nat → Nat
  | 0 => 0
  | n + 1 => plan.sent n + ((plan.called? n).any fun (_, s) => s.isSuccess).toNat

/-- How long the `n`-th attempt takes and how it ends, if it ends at all: it does when the last of
its calls is answered. -/
def span? (plan : Plan) (n : Nat) : Option (Nat × Outcome) :=
  (plan.called? n).bind fun (after, s) =>
    if s.isSuccess then
      (plan.delivered? (plan.sent n)).map fun (more, s) =>
        (after + more, if s.isFulfilled then .published else .failed)
    else some (after, if s.isFulfilled then .skipped else .failed)

/-- The `n`-th attempt, if it begins at this time. -/
def slotAt (plan : Plan) (n began : Nat) : Slot :=
  ⟨began, (plan.span? n).map fun (after, outcome) => (began + after, outcome)⟩

/-- The `n`-th attempt, if it is ever due. -/
def slot? (plan : Plan) : Nat → Option Slot
  | 0 => some (plan.slotAt 0 0)
  | n + 1 => ((plan.slot? n).bind Slot.ended).map fun (time, _) =>
      plan.slotAt (n + 1) (time + Timers.effectiveDelay plan.interval)

/-- The first `n` attempts. -/
def slots (plan : Plan) : Nat → List Slot
  | 0 => []
  | n + 1 => (plan.slot? n).toList ++ plan.slots n

/-- The attempts that have begun at a time. In each millisecond there begins one at most. -/
def timetable (plan : Plan) (now : Nat) : List Slot :=
  ((plan.slots (now + 1)).filter fun s => s.began ≤ now).map (Slot.asOf now)

variable {plan : Plan} {n m now : Nat} {s s' : Slot} {outcome : Outcome}

lemma span?_of_answer {after : Nat} {answer : Settlement}
    (h : plan.called? n = some (after, answer)) (hs : answer.isSuccess = false) :
    plan.span? n = some (after, if answer.isFulfilled then .skipped else .failed) ∧
      plan.sent (n + 1) = plan.sent n := by
  simp [span?, sent, h, hs]

lemma span?_of_success {after : Nat} {answer : Settlement}
    (h : plan.called? n = some (after, answer)) (hs : answer.isSuccess = true) :
    plan.span? n = ((plan.delivered? (plan.sent n)).map fun (more, s) =>
        (after + more, if s.isFulfilled then .published else .failed)) ∧
      plan.sent (n + 1) = plan.sent n + 1 := by
  simp [span?, sent, h, hs]

lemma slotAt_of_span? {after : Nat} (h : plan.span? n = some (after, outcome)) (began : Nat) :
    plan.slotAt n began = ⟨began, some (began + after, outcome)⟩ := by
  rw [slotAt, h]
  rfl

lemma exists_span {began time : Nat} (h : (plan.slotAt n began).ended = some (time, outcome)) :
    ∃ after, plan.span? n = some (after, outcome) ∧ began + after = time := by
  obtain ⟨⟨after, outcome'⟩, hspan, heq⟩ := Option.map_eq_some_iff.mp h
  obtain ⟨htime, rfl⟩ := Prod.mk.inj heq
  exact ⟨after, hspan, htime⟩

/-- An attempt does not end before its first call is answered. -/
lemma exists_called {after : Nat} (h : plan.span? n = some (after, outcome)) :
    ∃ first answer, plan.called? n = some (first, answer) ∧ first ≤ after := by
  obtain ⟨⟨first, answer⟩, hcalled, -⟩ := Option.bind_eq_some_iff.mp h
  refine ⟨first, answer, hcalled, ?_⟩
  cases hs : answer.isSuccess with
  | true =>
    rw [(span?_of_success hcalled hs).1] at h
    obtain ⟨⟨more, answer'⟩, -, heq⟩ := Option.map_eq_some_iff.mp h
    have hafter : first + more = after := congrArg Prod.fst heq
    omega
  | false =>
    rw [(span?_of_answer hcalled hs).1] at h
    exact Nat.le_of_eq (congrArg Prod.fst (Option.some.inj h))

lemma slot?_eq (h : plan.slot? n = some s) : s = plan.slotAt n s.began := by
  cases n with
  | zero =>
    obtain rfl := Option.some.inj h
    rfl
  | succ n =>
    obtain ⟨⟨time, outcome⟩, -, rfl⟩ := Option.map_eq_some_iff.mp h
    rfl

/-- The attempt after one that ends. -/
lemma slot?_succ {time : Nat} (h : plan.slot? n = some s) (hs : s.ended = some (time, outcome)) :
    plan.slot? (n + 1) =
      some (plan.slotAt (n + 1) (time + Timers.effectiveDelay plan.interval)) := by
  rw [slot?, h, Option.bind_some, hs]
  rfl

/-- Before an attempt that is due there is one that it follows. -/
lemma exists_follows (h : plan.slot? (n + 1) = some s') :
    ∃ s, plan.slot? n = some s ∧ Slot.Follows (Timers.effectiveDelay plan.interval) s' s := by
  obtain ⟨⟨time, outcome⟩, hended, rfl⟩ := Option.map_eq_some_iff.mp h
  obtain ⟨s, hs, hend⟩ := Option.bind_eq_some_iff.mp hended
  exact ⟨s, hs, time, outcome, hend, rfl⟩

lemma began_le_of_ended {time : Nat} (h : plan.slot? n = some s)
    (hs : s.ended = some (time, outcome)) : s.began ≤ time := by
  rw [slot?_eq h] at hs
  obtain ⟨after, -, htime⟩ := exists_span hs
  omega

lemma began_lt_succ (h : plan.slot? (n + 1) = some s') :
    ∃ s, plan.slot? n = some s ∧ s.began < s'.began := by
  obtain ⟨s, hs, time, outcome, hend, hbegan⟩ := exists_follows h
  have hle := began_le_of_ended hs hend
  have hpos := Timers.effectiveDelay_pos plan.interval
  exact ⟨s, hs, by omega⟩

/-- At least a millisecond passes from one beginning to the next. -/
lemma le_began (h : plan.slot? n = some s) : n ≤ s.began := by
  induction n generalizing s with
  | zero => exact Nat.zero_le _
  | succ n ih =>
    obtain ⟨before, hbefore, hlt⟩ := began_lt_succ h
    have hle := ih hbefore
    omega

/-- What is due before an attempt that is due, is due earlier. -/
lemma exists_earlier (h : plan.slot? n = some s) (hm : m ≤ n) :
    ∃ s', plan.slot? m = some s' ∧ s'.began ≤ s.began := by
  induction hm generalizing s with
  | refl => exact ⟨s, h, Nat.le_refl _⟩
  | step _ ih =>
    obtain ⟨before, hbefore, hlt⟩ := began_lt_succ h
    obtain ⟨s', hs', hle⟩ := ih hbefore
    exact ⟨s', hs', by omega⟩

lemma slots_succ (h : plan.slot? n = some s) : plan.slots (n + 1) = s :: plan.slots n := by
  rw [slots, h]
  rfl

lemma mem_slots : s ∈ plan.slots n ↔ ∃ k < n, plan.slot? k = some s := by
  induction n with
  | zero => simp [slots]
  | succ n ih =>
    rw [slots, List.mem_append, Option.mem_toList, ih]
    constructor
    · rintro (h | ⟨k, hk, h⟩)
      · exact ⟨n, Nat.lt_succ_self n, h⟩
      · exact ⟨k, Nat.lt_succ_of_lt hk, h⟩
    · rintro ⟨k, hk, h⟩
      rcases Nat.lt_succ_iff_lt_or_eq.mp hk with hk | rfl
      · exact .inr ⟨k, hk, h⟩
      · exact .inl h

/-- The first attempts come first among more of them. -/
lemma slots_append (plan : Plan) (hm : m ≤ n) :
    ∃ later, plan.slots n = later ++ plan.slots m ∧
      ∀ s ∈ later, ∃ k, m ≤ k ∧ plan.slot? k = some s := by
  induction hm with
  | refl => exact ⟨[], rfl, by simp⟩
  | @step n hle ih =>
    obtain ⟨later, hlater, hdue⟩ := ih
    refine ⟨(plan.slot? n).toList ++ later, by rw [slots, hlater, List.append_assoc], ?_⟩
    intro s hs
    rcases List.mem_append.mp hs with hs | hs
    · exact ⟨n, hle, Option.mem_toList.mp hs⟩
    · exact hdue s hs

/-- The attempts before one that is due have ended when it begins. -/
lemma ended_before (h : plan.slot? n = some s) (hs : s' ∈ plan.slots n) :
    ∃ time outcome, s'.ended = some (time, outcome) ∧ time ≤ s.began := by
  obtain ⟨k, hk, hs'⟩ := mem_slots.mp hs
  obtain ⟨next, hnext, hle⟩ := exists_earlier h hk
  obtain ⟨before, hbefore, time, outcome, hend, hbegan⟩ := exists_follows hnext
  obtain rfl := Option.some.inj (hbefore.symm.trans hs')
  exact ⟨time, outcome, hend, by omega⟩

lemma began_le_of_mem (h : plan.slot? n = some s) (hs : s' ∈ plan.slots n) :
    s'.began ≤ s.began := by
  obtain ⟨time, outcome, hended, hle⟩ := ended_before h hs
  obtain ⟨k, -, hdue⟩ := mem_slots.mp hs
  exact Nat.le_trans (began_le_of_ended hdue hended) hle

/-- Each attempt begins a pause after the end of the one before. -/
lemma isChain_slots (plan : Plan) (n : Nat) :
    (plan.slots n).IsChain (Slot.Follows (Timers.effectiveDelay plan.interval)) := by
  induction n with
  | zero => exact .nil
  | succ n ih =>
    cases h : plan.slot? n with
    | none =>
      rw [slots, h]
      exact ih
    | some s =>
      rw [slots_succ h]
      cases n with
      | zero => exact .singleton s
      | succ n =>
        obtain ⟨before, hbefore, hfollows⟩ := exists_follows h
        rw [slots_succ hbefore] at ih ⊢
        exact .cons_cons hfollows ih

/-- At a time, of these attempts `n` have begun, which are the first of the plan. -/
structure Begun (plan : Plan) (n now : Nat) (attempts : List Slot) : Prop where
  eq : attempts = (plan.slots n).map (Slot.asOf now)
  began_le : ∀ s ∈ plan.slots n, s.began ≤ now

namespace Begun

variable {attempts : List Slot}

/-- Attempts that have begun are in the timetable, and what else is there begins when the next
attempt is due or after that. -/
lemma timetable_append (h : plan.Begun n now attempts) :
    ∃ later, plan.timetable now = later ++ attempts ∧
      ∀ s ∈ later, s.began ≤ now ∧ ∃ next, plan.slot? n = some next ∧ next.began ≤ s.began := by
  obtain ⟨more, hmore, hdue⟩ := plan.slots_append (Nat.le_max_left n (now + 1))
  obtain ⟨beyond, hbeyond, hfar⟩ := plan.slots_append (Nat.le_max_right n (now + 1))
  have hnone : beyond.filter (fun s => s.began ≤ now) = [] := by
    refine List.filter_eq_nil_iff.mpr fun s hs => ?_
    obtain ⟨k, hk, hs⟩ := hfar s hs
    have hle := le_began hs
    simp only [decide_eq_true_eq]
    omega
  have hall : (plan.slots n).filter (fun s => s.began ≤ now) = plan.slots n :=
    List.filter_eq_self.mpr fun s hs => decide_eq_true (h.began_le s hs)
  have hfilter : (plan.slots (now + 1)).filter (fun s => s.began ≤ now) =
      more.filter (fun s => s.began ≤ now) ++ plan.slots n := by
    calc (plan.slots (now + 1)).filter (fun s => s.began ≤ now)
        = (beyond ++ plan.slots (now + 1)).filter (fun s => s.began ≤ now) := by
          rw [List.filter_append, hnone, List.nil_append]
      _ = more.filter (fun s => s.began ≤ now) ++ plan.slots n := by
          rw [← hbeyond, hmore, List.filter_append, hall]
  refine ⟨(more.filter fun s => s.began ≤ now).map (Slot.asOf now), ?_, fun s hs => ?_⟩
  · rw [timetable, hfilter, List.map_append, h.eq]
  · obtain ⟨s, hmem, rfl⟩ := List.mem_map.mp hs
    obtain ⟨hmore, hle⟩ := List.mem_filter.mp hmem
    obtain ⟨k, hk, hdue⟩ := hdue s hmore
    obtain ⟨next, hnext, hbegan⟩ := exists_earlier hdue hk
    exact ⟨of_decide_eq_true hle, next, hnext, hbegan⟩

/-- While the next attempt is still to come, these are the attempts in the timetable. -/
lemma timetable_eq (h : plan.Begun n now attempts)
    (hnext : ∀ s, plan.slot? n = some s → now < s.began) : plan.timetable now = attempts := by
  obtain ⟨later, heq, hlater⟩ := h.timetable_append
  have hnil : later = [] := by
    refine List.eq_nil_iff_forall_not_mem.mpr fun s hs => ?_
    obtain ⟨hle, next, hdue, hbegan⟩ := hlater s hs
    have hlt := hnext next hdue
    omega
  rw [heq, hnil, List.nil_append]

end Begun

end Plan

/-! ### Diaries -/

/-- What the events of a loop tell of it: its attempts, when it was aborted and the attempts before
that, and when and how it ended. -/
structure Diary where
  slots : List Slot := []
  halted : Option (Nat × List Slot) := none
  settled : List (Nat × Settlement) := []

namespace Diary

/-- The diary when the work is aborted. -/
def halt (d : Diary) (time : Nat) : Diary :=
  { d with halted := d.halted.or (some (time, d.slots)) }

/-- The diary after one more event. -/
def add (x : Entry) (d : Diary) : Diary :=
  match x.event with
  | .attemptBegan => { d with slots := ⟨x.time, none⟩ :: d.slots }
  | .attemptEnded outcome =>
    { d with slots := d.slots.modifyHead fun s => { s with ended := some (x.time, outcome) } }
  | .abort _ => d.halt x.time
  | .settled _ s => { d with settled := (x.time, s) :: d.settled }
  | _ => d

/-- Whether a diary says nothing of an event. -/
def omits : Event → Bool
  | .attemptBegan | .attemptEnded _ | .abort _ | .settled .. => false
  | _ => true

end Diary

/-- The diary of what has happened so far. -/
def diary (past : List Entry) : Diary := past.foldr Diary.add {}

@[simp] lemma diary_cons (x : Entry) (past : List Entry) :
    diary (x :: past) = (diary past).add x := rfl

namespace Diary

variable {new past : List Entry} {x : Entry}

lemma add_of_omits (h : omits x.event = true) (d : Diary) : d.add x = d := by
  unfold add
  split <;> simp_all [omits]

lemma diary_append (h : ∀ x ∈ new, omits x.event = true) : diary (new ++ past) = diary past := by
  induction new with
  | nil => rfl
  | cons x new ih =>
    rw [List.cons_append, diary_cons, add_of_omits (h x List.mem_cons_self),
      ih fun y hy => h y (List.mem_cons_of_mem x hy)]

/-- Only the first abort is entered. -/
lemma halted_add {halt : Nat × List Slot} {d : Diary} (h : d.halted = some halt) (x : Entry) :
    (d.add x).halted = some halt := by
  unfold add
  split
  case h_3 =>
    rw [Diary.halt, h]
    rfl
  all_goals exact h

lemma halted_append {halt : Nat × List Slot} (h : (diary past).halted = some halt)
    (new : List Entry) : (diary (new ++ past)).halted = some halt := by
  induction new with
  | nil => exact h
  | cons x new ih => exact halted_add ih x

lemma halted_eq_none (h : .abort ∉ marks past) : (diary past).halted = none := by
  induction past with
  | nil => rfl
  | cons x past ih =>
    rw [marks, List.map_cons, List.mem_cons, not_or] at h
    rw [diary_cons, add]
    split
    case h_3 hx =>
      rw [hx] at h
      exact absurd rfl h.1
    all_goals exact ih h.2

/-- The abort that is entered is one of the events. -/
lemma exists_abort {a : Nat} {before : List Slot}
    (h : (diary past).halted = some (a, before)) :
    ∃ later id earlier, past = later ++ ⟨a, .abort id⟩ :: earlier ∧
      (diary earlier).slots = before := by
  induction past with
  | nil => exact absurd h (by simp [diary])
  | cons x past ih =>
    have hearlier : (diary past).halted = some (a, before) → ∃ later id earlier,
        x :: past = later ++ ⟨a, .abort id⟩ :: earlier ∧ (diary earlier).slots = before := by
      intro hpast
      obtain ⟨later, id, earlier, rfl, hslots⟩ := ih hpast
      exact ⟨x :: later, id, earlier, rfl, hslots⟩
    obtain ⟨time, e⟩ := x
    rw [diary_cons, add] at h
    split at h
    case h_3 id he =>
      obtain rfl : e = .abort id := he
      cases hhalted : (diary past).halted with
      | none =>
        rw [halt, hhalted] at h
        obtain ⟨rfl, rfl⟩ := Prod.mk.inj (Option.some.inj h)
        exact ⟨[], id, past, rfl, rfl⟩
      | some halt =>
        rw [Diary.halt, hhalted] at h
        exact hearlier (hhalted.trans h)
    all_goals exact hearlier h

variable {plan : Plan} {p : Place} {aborted : Bool}

/-- The abort of a run, in its diary. -/
lemma halted_of_abort {a : Nat} {id : String}
    (h : History plan (new ++ ⟨a, .abort id⟩ :: past) p aborted) :
    (diary (new ++ ⟨a, .abort id⟩ :: past)).halted = some (a, (diary past).slots) := by
  refine halted_append ?_ new
  obtain ⟨q, q', b, hpast, hl⟩ := h.leads_of_suffix (List.suffix_append new _)
  have hnone : (diary past).halted = none := by
    refine halted_eq_none fun hmem => ?_
    obtain rfl := hpast.aborted_of_mem hmem
    cases hl with
    | abort hfalse => exact absurd hfalse (by simp)
  rw [diary_cons, add, halt, hnone]
  rfl

/-- Once the work is aborted no attempt begins. -/
lemma map_began_append (h : History plan (new ++ past) p aborted) (hmem : .abort ∈ marks past) :
    (diary (new ++ past)).slots.map Slot.began = (diary past).slots.map Slot.began := by
  induction new generalizing p aborted with
  | nil => rfl
  | cons x new ih =>
    obtain ⟨q, q', b, hpast, hl⟩ := h.leads_of_suffix (List.suffix_refl _)
    have hmem' : .abort ∈ marks (new ++ past) := by
      rw [marks, List.map_append]
      exact List.mem_append_right _ hmem
    rw [List.cons_append, diary_cons, ← ih hpast, add]
    split
    case h_1 hx =>
      obtain rfl := hpast.aborted_of_mem hmem'
      rw [hx] at hl
      cases hl with
      | attempt hfalse => exact absurd hfalse (by simp)
    case h_2 =>
      cases (diary (new ++ past)).slots with
      | nil => rfl
      | cons s before => rfl
    all_goals rfl

end Diary

end EdgeCaller.Sender

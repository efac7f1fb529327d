import EdgeCaller.Proofs.Sender.Protocol
/-!
The laws of a history.

What an event of the protocol changes is said first, one lemma for each thing that is counted; the
law of a whole history follows by induction. A law about an earlier moment is the law of a suffix.
-/

namespace EdgeCaller.Sender

/-! ### What one event does -/

namespace Place

variable {p : Place} {o : Outcome}

lemma inFlight_of_outcome (h : p.outcome? = some o) : p.inFlight = 0 := by
  cases p <;> simp_all [outcome?, inFlight]

lemma inFlight_of_mayLeave (h : p.mayLeave = true) : p.inFlight = 0 := by
  cases p <;> simp_all [mayLeave, inFlight]

lemma refusal_of_outcome (h : p.outcome? = some o) : p.refusal = [] := by
  cases p <;> simp_all [outcome?, refusal]

lemma refusal_of_mayLeave (h : p.mayLeave = true) : p.refusal = [] := by
  cases p <;> simp_all [mayLeave, refusal]

lemma owed_of_outcome (h : p.outcome? = some o) : p.owed = 0 := by
  cases p <;> simp_all [outcome?, owed]

lemma closings_of_outcome (h : p.outcome? = some o) : p.closings = 0 := by
  cases p <;> simp_all [outcome?, closings]

lemma closings_of_mayLeave (h : p.mayLeave = true) : p.closings = 0 := by
  cases p <;> simp_all [mayLeave, closings]

lemma unarmed_of_outcome (h : p.outcome? = some o) : p.unarmed = 0 := by
  cases p <;> simp_all [outcome?, unarmed]

lemma unarmed_le_one (p : Place) : p.unarmed ≤ 1 := by
  cases p <;> simp [unarmed]

lemma inFlight_le_one (p : Place) : p.inFlight ≤ 1 := by
  cases p <;> simp [inFlight]

lemma unsent_le_one (p : Place) : p.unsent ≤ 1 := by
  cases p <;> simp [unsent]

lemma closings_le_one (p : Place) : p.closings ≤ 1 := by
  cases p <;> simp [closings]

lemma listens_of_unarmed (h : p.unarmed = 1) : p.listens = false := by
  cases p <;> simp_all [unarmed, listens]

lemma isOuter_of_unarmed (h : p.unarmed = 1) : p.isOuter = true := by
  cases p <;> simp_all [unarmed, isOuter]

lemma isOuter_of_outcome (h : p.outcome? = some o) : p.isOuter = false := by
  cases p <;> simp_all [outcome?, isOuter]

lemma isOuter_of_mayLeave (h : p.mayLeave = true) : p.isOuter = false := by
  cases p <;> simp_all [mayLeave, isOuter]

lemma unarmed_of_mayLeave (h : p.mayLeave = true) : p.unarmed = 0 := by
  cases p <;> simp_all [mayLeave, unarmed]

lemma afterInvoke_cases (s : Settlement) :
    (s.isSuccess = true ∧ afterInvoke s = succeeded) ∨
      (s.isSuccess = false ∧ afterInvoke s = declined) ∨
      ∃ e, s = .rejected e ∧ afterInvoke s = refused .invoke e := by
  cases s with
  | rejected e => exact .inr (.inr ⟨e, rfl, rfl⟩)
  | fulfilled a =>
    rcases hs : Settlement.isSuccess (.fulfilled a) with _ | _
    · exact .inr (.inl ⟨rfl, by simp [afterInvoke, hs]⟩)
    · exact .inl ⟨rfl, by simp [afterInvoke, hs]⟩

lemma afterInvoke_isOuter (s : Settlement) : (afterInvoke s).isOuter = false := by
  rcases afterInvoke_cases s with ⟨-, h⟩ | ⟨-, h⟩ | ⟨e, -, h⟩ <;> rw [h] <;> rfl

lemma ClosedWell.cons {plan : Plan} {es : List Entry} (h : ClosedWell plan es) {x : Entry}
    (hx : x.event.mark.closure? = none) : ClosedWell plan (x :: es) := by
  obtain ⟨s, hs, hclosures⟩ := h
  exact ⟨s, hs, by rw [closures_cons, hx, hclosures]; rfl⟩

lemma Recalls.cons {plan : Plan} {es : List Entry} (h : p.Recalls plan es) {x : Entry}
    (hx : x.event.mark.closure? = none) : p.Recalls plan (x :: es) := by
  have hclosures : closures (x :: es) = closures es := by rw [closures_cons, hx]; rfl
  cases p with
  | completed => exact ⟨List.mem_cons_of_mem _ h.1, h.2.cons hx⟩
  | detached =>
    obtain ⟨hd, hc, hclose⟩ := h
    exact ⟨List.mem_cons_of_mem _ hd, List.mem_cons_of_mem _ hc, hclose.cons hx⟩
  | _ => exact hclosures.trans h

/-- Away from the end of a teardown there is only to recall that closing has not ended. -/
lemma recalls_iff_of_open {plan : Plan} {es : List Entry} (h : p.isOuter = false ∨ p = closing) :
    p.Recalls plan es ↔ closures es = [] := by
  rcases h with h | rfl
  · cases p with
    | closed s => simp [isOuter] at h
    | completed => simp [isOuter] at h
    | detached => simp [isOuter] at h
    | _ => exact Iff.rfl
  · exact Iff.rfl

end Place

namespace Leads

variable {plan : Plan} {past : List Entry} {time : Nat} {aborted : Bool} {p q : Place} {m : Mark}

lemma calls (h : Leads plan past time aborted p m q) :
    m.isCall.toNat + p.inFlight = m.isAnswer.toNat + q.inFlight := by
  cases h with
  | @invoked s =>
    rcases Place.afterInvoke_cases s with ⟨-, hq⟩ | ⟨-, hq⟩ | ⟨e, -, hq⟩ <;> rw [hq] <;> rfl
  | @published s => cases s <;> rfl
  | finish ho => rw [Place.inFlight_of_outcome ho]; rfl
  | close _ hp => rw [Place.inFlight_of_mayLeave hp]; rfl
  | _ => rfl

lemma successes (hscope : plan.scope.tearsDown = false) (h : Leads plan past time aborted p m q) :
    m.isSuccess.toNat + p.owed = m.isPublish.toNat + q.owed := by
  cases h with
  | @invoked s =>
    rcases Place.afterInvoke_cases s with ⟨hs, hq⟩ | ⟨hs, hq⟩ | ⟨e, rfl, hq⟩
    · rw [hq, Mark.isSuccess, hs]; rfl
    · rw [hq, Mark.isSuccess, hs]; rfl
    · rw [hq]; rfl
  | @published s => cases s <;> rfl
  | finish ho => rw [Place.owed_of_outcome ho]; rfl
  | close hs _ => simp [hscope] at hs
  | _ => rfl

/-- After an abort no call of the method begins, and only the attempt that is under way can still
send its event. -/
lemma calls_of_aborted (h : Leads plan past time true p m q) :
    m.isInvoke = false ∧ m.isPublish.toNat + q.unsent ≤ p.unsent := by
  cases h with
  | attempt ha => simp at ha
  | invoke ha => simp at ha
  | @invoked s =>
    rcases Place.afterInvoke_cases s with ⟨-, hq⟩ | ⟨-, hq⟩ | ⟨e, -, hq⟩ <;> rw [hq]
    · exact ⟨rfl, Nat.le_refl _⟩
    · exact ⟨rfl, Nat.zero_le _⟩
    · exact ⟨rfl, Nat.zero_le _⟩
  | @published s => cases s <;> exact ⟨rfl, Nat.zero_le _⟩
  | remark | abort | forced => exact ⟨rfl, Nat.le_of_eq (Nat.zero_add _)⟩
  | publish => exact ⟨rfl, Nat.le_refl _⟩
  | _ => exact ⟨rfl, Nat.zero_le _⟩

lemma failures (h : Leads plan past time aborted p m q) (cs : List (Stage × Value)) :
    m.rejection?.toList ++ (p.refusal ++ cs) = q.refusal ++ (m.consultation?.toList ++ cs) := by
  cases h with
  | @invoked s =>
    rcases Place.afterInvoke_cases s with ⟨hs, hq⟩ | ⟨hs, hq⟩ | ⟨e, rfl, hq⟩
    · cases s with
      | fulfilled a => rw [hq]; rfl
      | rejected e => simp [Settlement.isSuccess] at hs
    · cases s with
      | fulfilled a => rw [hq]; rfl
      | rejected e => simp [Place.afterInvoke] at hq
    · rw [hq]; rfl
  | @published s => cases s <;> rfl
  | finish ho => rw [Place.refusal_of_outcome ho]; rfl
  | close _ hp => rw [Place.refusal_of_mayLeave hp]; rfl
  | _ => rfl

lemma closings (h : Leads plan past time aborted p m q) :
    m.isClose.toNat + p.closings = q.closings := by
  cases h with
  | @invoked s =>
    rcases Place.afterInvoke_cases s with ⟨-, hq⟩ | ⟨-, hq⟩ | ⟨e, -, hq⟩ <;> rw [hq] <;> rfl
  | @published s => cases s <;> rfl
  | finish ho => rw [Place.closings_of_outcome ho]; rfl
  | close _ hp => rw [Place.closings_of_mayLeave hp]; rfl
  | @remark p | @abort p | @forced p => exact Nat.zero_add _
  | _ => rfl

lemma unarmed (h : Leads plan past time aborted p m q) :
    m.isArmed.toNat + q.unarmed = p.unarmed := by
  cases h with
  | @invoked s =>
    rcases Place.afterInvoke_cases s with ⟨-, hq⟩ | ⟨-, hq⟩ | ⟨e, -, hq⟩ <;> rw [hq] <;> rfl
  | @published s => cases s <;> rfl
  | finish ho => rw [Place.unarmed_of_outcome ho]; rfl
  | close _ hp => rw [Place.unarmed_of_mayLeave hp]; rfl
  | @remark p | @abort p | @forced p => exact Nat.zero_add _
  | _ => rfl

lemma recalls {e : Event} (h : Leads plan past time aborted p m q) (hm : e.mark = m)
    (hp : p.Recalls plan past) : q.Recalls plan (⟨time, e⟩ :: past) := by
  -- Only the answer to closing adds to what is recalled of it.
  have hsame : m.closure? = none → p.Recalls plan (⟨time, e⟩ :: past) := fun hnone =>
    hp.cons (hm ▸ hnone)
  cases h with
  | remark | abort | forced => exact hsame rfl
  | invoked =>
    exact (Place.recalls_iff_of_open (.inl (Place.afterInvoke_isOuter _))).mpr (hsame rfl)
  | @published s => cases s <;> exact hsame rfl
  | finish ho =>
    exact (Place.recalls_iff_of_open (.inl (Place.isOuter_of_outcome ho))).mp (hsame rfl)
  | close _ hleave =>
    exact (Place.recalls_iff_of_open (.inl (Place.isOuter_of_mayLeave hleave))).mp (hsame rfl)
  | @closed s =>
    have hnil : closures past = [] := hp
    rw [Place.Recalls, closures_cons, hm, hnil]
    rfl
  | @complete s hs =>
    have hclosed : closures (⟨time, e⟩ :: past) = [s] := hsame rfl
    exact ⟨List.mem_cons.mpr (.inl hm.symm), s, hs, hclosed⟩
  | detach =>
    obtain ⟨hc, hclose⟩ := hsame rfl
    exact ⟨List.mem_cons.mpr (.inl hm.symm), hc, hclose⟩
  | _ => exact hsame rfl

lemma isOuter (h : Leads plan past time aborted p m q) (hq : q.isOuter = true) :
    p.isOuter = true ∨ plan.scope.tearsDown = true := by
  cases h with
  | remark | abort | forced => exact .inl hq
  | invoked => rw [Place.afterInvoke_isOuter] at hq; simp at hq
  | @published s => cases s <;> simp [Place.afterPublish, Place.isOuter] at hq
  | close hs => exact .inr hs
  | _ => first | exact .inl rfl | simp [Place.isOuter] at hq

lemma unarmed_of_end (h : Leads plan past time aborted p m q) (hm : m.isEnd = true) :
    p.unarmed = 0 := by
  cases h with
  | finish ho => exact Place.unarmed_of_outcome ho
  | _ => simp [Mark.isEnd] at hm

lemma closings_of_call (h : Leads plan past time aborted p m q) (hm : m.isCall = true) :
    p.closings = 0 := by
  cases h <;> first | rfl | simp [Mark.isCall, Mark.isInvoke, Mark.isPublish] at hm

lemma inFlight_of_close (h : Leads plan past time aborted p m q) (hm : m.isClose = true) :
    p.inFlight = 0 := by
  cases h with
  | close _ hp => exact Place.inFlight_of_mayLeave hp
  | _ => first | rfl | simp [Mark.isClose] at hm

end Leads

/-! ### What holds of every history -/

namespace History

variable {plan : Plan} {es past later : List Entry} {x : Entry} {p : Place} {aborted : Bool}

/-- What a run had done at an earlier moment is a history too. -/
theorem of_suffix (h : History plan es p aborted) (hs : past <:+ es) :
    ∃ q b, History plan past q b := by
  induction h with
  | nil => exact ⟨_, _, by rw [List.suffix_nil.mp hs]; exact .nil⟩
  | cons h hm hl ih =>
    rcases List.suffix_cons_iff.mp hs with rfl | hs
    · exact ⟨_, _, .cons h hm hl⟩
    · exact ih hs

/-- An event of a run, between the place that it came from and the place that it led to. -/
theorem leads_of_suffix (h : History plan es p aborted) (hs : x :: past <:+ es) :
    ∃ q q' b, History plan past q b ∧ Leads plan past x.time b q x.event.mark q' := by
  obtain ⟨q', b', h'⟩ := h.of_suffix hs
  cases h' with
  | cons h' hm hl => exact ⟨_, _, _, h', hm ▸ hl⟩

lemma exists_leads (h : History plan es p aborted) {m : Mark} (hm : m ∈ marks es) :
    ∃ past time q q' b, Leads plan past time b q m q' := by
  obtain ⟨x, hx, rfl⟩ := List.mem_map.mp hm
  obtain ⟨new, past, rfl⟩ := List.append_of_mem hx
  obtain ⟨q, q', b, -, hl⟩ := h.leads_of_suffix (List.suffix_append new (x :: past))
  exact ⟨_, _, _, _, _, hl⟩

theorem aborted_eq (h : History plan es p aborted) :
    aborted = decide (0 < count Mark.isAbort es) := by
  induction h with
  | nil => rfl
  | @cons past p q aborted time e m _ hm _ ih =>
    rw [count_cons, hm, ih]
    cases m.isAbort <;> simp

theorem aborted_of_mem (h : History plan es p aborted) (hmem : .abort ∈ marks es) :
    aborted = true := by
  obtain ⟨x, hx, hmark⟩ := List.mem_map.mp hmem
  rw [h.aborted_eq, decide_eq_true_eq, count, List.countP_pos_iff]
  exact ⟨x, hx, by rw [hmark]; rfl⟩

/-- What follows an abort: no call of the method, and at most one event. -/
theorem calls_after_abort {new : List Entry} (h : History plan (new ++ es) p aborted)
    (hmem : .abort ∈ marks es) :
    count Mark.isInvoke new = 0 ∧ count Mark.isPublish new + p.unsent ≤ 1 := by
  -- What can still be sent at a place bounds what comes of the attempt that is under way.
  induction new generalizing p aborted with
  | nil =>
    have := p.unsent_le_one
    rw [count_nil, count_nil]
    omega
  | cons x new ih =>
    cases h with
    | @cons _ q _ b _ _ m h hm hl =>
      have habort : .abort ∈ marks (new ++ es) := by
        rw [marks, List.map_append]
        exact List.mem_append_right _ hmem
      have hb : b = true := h.aborted_of_mem habort
      obtain ⟨hinvoke, hpublish⟩ := (hb ▸ hl).calls_of_aborted
      obtain ⟨ihinvoke, ihpublish⟩ := ih h
      rw [count_cons, count_cons, hm, hinvoke, ihinvoke]
      refine ⟨rfl, ?_⟩
      omega

theorem isSome_abortTime (h : History plan es p aborted) : (abortTime es).isSome = aborted := by
  induction h with
  | nil => rfl
  | @cons past p q aborted time e m _ hm _ ih =>
    rw [abortTime_cons, hm, ← ih]
    cases m.isAbort <;> simp

theorem lastEnd_of_unarmed (h : History plan es p aborted) (hp : p.unarmed = 1) :
    lastEnd es = none := by
  induction h with
  | nil => rfl
  | @cons past p q aborted time e m _ hm hl ih =>
    have harmed := hl.unarmed
    have hone := p.unarmed_le_one
    have hend : m.isEnd = false := by
      rcases hm : m.isEnd with _ | _
      · rfl
      · have := hl.unarmed_of_end hm
        omega
    rw [lastEnd_cons, hm, hend]
    exact ih (by omega)

theorem remark (h : History plan es p aborted) {e : Event} (he : e.mark = .remark) (time : Nat) :
    History plan (⟨time, e⟩ :: es) p aborted := by
  have hcons : History plan (⟨time, e⟩ :: es) p (aborted || Mark.isAbort .remark) :=
    h.cons he .remark
  simpa [Mark.isAbort] using hcons

theorem remarks (h : History plan es p aborted) {new : List Event}
    (hnew : ∀ e ∈ new, e.mark = .remark) (time : Nat) :
    History plan (new.map (Entry.mk time) ++ es) p aborted := by
  induction new with
  | nil => exact h
  | cons e new ih =>
    have hrest := ih fun e he => hnew e (List.mem_cons_of_mem _ he)
    exact hrest.remark (hnew e (List.mem_cons_self)) time

/-- Every call is answered before the next one. -/
theorem count_calls (h : History plan es p aborted) :
    count Mark.isCall es = count Mark.isAnswer es + p.inFlight := by
  induction h with
  | nil => simp only [count_nil, Place.start]; split <;> rfl
  | cons _ hm hl ih =>
    have := hl.calls
    rw [count_cons, count_cons, hm]
    omega

/-- In a loop, every call that succeeded is followed by the sending of the event. -/
theorem count_successes (hscope : plan.scope.tearsDown = false) (h : History plan es p aborted) :
    count Mark.isSuccess es = count Mark.isPublish es + p.owed := by
  induction h with
  | nil => simp [Place.start, hscope, Place.owed]
  | cons _ hm hl ih =>
    have := hl.successes hscope
    rw [count_cons, count_cons, hm]
    omega

/-- The policy is asked about every failed call, in the order in which they fail. -/
theorem rejections_eq (h : History plan es p aborted) :
    rejections es = p.refusal ++ consultations es := by
  induction h with
  | nil => simp only [Place.start]; split <;> rfl
  | cons _ hm hl ih => rw [rejections_cons, consultations_cons, hm, ih, hl.failures]

theorem count_closings (h : History plan es p aborted) :
    count Mark.isClose es = p.closings := by
  induction h with
  | nil => simp only [count_nil, Place.start]; split <;> rfl
  | cons _ hm hl ih =>
    have := hl.closings
    rw [count_cons, hm]
    omega

theorem recalls (h : History plan es p aborted) : p.Recalls plan es := by
  induction h with
  | nil => unfold Place.start; split <;> rfl
  | cons _ hm hl ih => exact hl.recalls hm ih

theorem tearsDown_of_isOuter (h : History plan es p aborted) (hp : p.isOuter = true) :
    plan.scope.tearsDown = true := by
  induction h with
  | nil =>
    unfold Place.start at hp
    split at hp
    · assumption
    · simp [Place.isOuter] at hp
  | cons _ _ hl ih =>
    rcases hl.isOuter hp with hp | hs
    · exact ih hp
    · exact hs

theorem count_armed (h : History plan es p aborted) :
    count Mark.isArmed es + p.unarmed = (Place.start plan).unarmed := by
  induction h with
  | nil => exact Nat.zero_add _
  | cons _ hm hl ih =>
    have := hl.unarmed
    rw [count_cons, hm]
    omega

theorem opens_of_armed (h : History plan es p aborted) (hm : .armed ∈ marks es)
    (hlink : plan.link = .direct) : plan.Opens := by
  obtain ⟨past, time, q, q', b, hl⟩ := h.exists_leads hm
  cases hl with
  | arm hopens => exact hopens hlink

lemma unarmed_of_not_mem (h : History plan es p aborted) (hscope : plan.scope.tearsDown = true)
    (hm : .armed ∉ marks es) : p.unarmed = 1 := by
  have hcount := h.count_armed
  have hzero : count Mark.isArmed es = 0 := by
    rw [armed_mem_iff] at hm
    omega
  rw [hzero, Place.start, hscope, if_pos rfl, Nat.zero_add] at hcount
  exact hcount

theorem call_before_close (h : History plan es p aborted) (hs : x :: past <:+ es)
    (hx : x.event.mark.isCall = true) : count Mark.isClose past = 0 := by
  obtain ⟨q, q', b, hpast, hl⟩ := h.leads_of_suffix hs
  rw [hpast.count_closings]
  exact hl.closings_of_call hx

lemma unarmed_of_mem (h : History plan es p aborted) (hm : .armed ∈ marks es) :
    p.unarmed = 0 := by
  have hcount := h.count_armed
  have hle := (Place.start plan).unarmed_le_one
  have hpos := armed_mem_iff.mp hm
  omega

theorem close_after_calls (h : History plan es p aborted) (hs : x :: past <:+ es)
    (hx : x.event.mark.isClose = true) : count Mark.isCall past = count Mark.isAnswer past := by
  obtain ⟨q, q', b, hpast, hl⟩ := h.leads_of_suffix hs
  rw [hpast.count_calls, hl.inFlight_of_close hx, Nat.add_zero]

theorem complete_after_close (h : History plan es p aborted) (hs : x :: past <:+ es)
    (hx : x.event.mark = .completed) : Place.ClosedWell plan past := by
  obtain ⟨q, q', b, hpast, hl⟩ := h.leads_of_suffix hs
  rw [hx] at hl
  cases hl with
  | @complete s hs => exact ⟨s, hs, hpast.recalls⟩

theorem detach_after_complete (h : History plan es p aborted) (hs : x :: past <:+ es)
    (hx : x.event.mark = .detached) : .completed ∈ marks past := by
  obtain ⟨q, q', b, hpast, hl⟩ := h.leads_of_suffix hs
  rw [hx] at hl
  cases hl with
  | detach => exact hpast.recalls.1

end History

end EdgeCaller.Sender

import EdgeCaller.Proofs.Client.Service
/-!
An open connection passes calls on.

Whatever is asked of an open connection, in whatever order and however many calls are under way, the
client receives the same calls in the same order, but that it is closed only once, and each method
call and each event ends as the client answers it.
-/

namespace EdgeCaller

namespace Connection

variable {c₀ c : Connection} {l : List Entry} {shut : Bool} {past : List Order}

/-! ### Calls -/

/-- An answer to a call other than an opening concerns no opening. -/
lemma plain_of_settlement {operation : Operation} {reply : Reply} {answer : Answer} {after : Nat}
    {s : Settlement} (hoperation : ∀ transport dial, operation ≠ .opening transport dial)
    (hanswer : answer ≠ .connection) (hs : reply.settlement? answer = some (after, s)) :
    (⟨operation, s⟩ : Answered).Plain := by
  refine ⟨hoperation, ?_⟩
  rintro rfl
  cases hcourse : reply.course <;> simp [Reply.settlement?, hcourse] at hs
  exact hanswer hs.2

namespace Serves

/-- The client receives a call, to which it owes the answer. -/
lemma called (h : Serves c₀ l shut none c) (c' : Connection) {e : Event}
    (he : e.isClientCall = true) (hj : c'.journal = c.journal.add e)
    (hscript : c'.script = c.script) (hqueue : c'.queue = c.queue) (htimers : c'.timers = c.timers)
    (htally : ∀ request, c'.tally.made request =
      c.tally.made request + (decide (e.request? = some request)).toNat) :
    Serves c₀ (⟨c.journal.now, e⟩ :: l) c'.isClosed
      (c₀.script.answer? c₀.tally l ⟨c.journal.now, e⟩) c' where
  fresh := by
    obtain ⟨new, hnew, htime⟩ := h.fresh
    refine ⟨⟨c.journal.now, e⟩ :: new, by rw [hj, Journal.entries_add, hnew]; rfl, fun x hx => ?_⟩
    rw [hj]
    rcases List.mem_cons.mp hx with rfl | hx
    · exact Nat.le_refl _
    · exact htime x hx
  calls := by
    rw [clientCalls, hj, Journal.entries_add, List.filter_cons_of_pos (by exact he)]
    exact congrArg _ h.calls
  script := hscript.trans h.script
  tally request := by rw [countCalls_cons, ← Nat.add_assoc, ← h.tally, htally]
  isClosed := rfl
  queue := by rw [hqueue]; exact h.queue
  timers := by rw [htimers, hj]; exact h.timers
  ledger := by
    have hserved : c'.served = c.served := by
      rw [served, hj, Journal.entries_add, List.filterMap_cons]
      cases e with
      | ended => simp [Event.isClientCall, Event.request?] at he
      | _ => rfl
    have harriving : c'.arriving = c.arriving := by
      rw [arriving, arriving, hqueue, htimers, hj]
      rfl
    rw [hserved, harriving, Script.answers, List.append_assoc, List.append_assoc]
    exact h.ledger.append_left _

lemma await (operation : Operation) {settlement? : Option (Nat × Settlement)}
    (h : Serves c₀ l shut (settlement?.bind fun (after, s) =>
      (⟨operation, s⟩ : Answered).arrival? (c.journal.now + after)) c)
    (hplain : ∀ after s, settlement? = some (after, s) → (⟨operation, s⟩ : Answered).Plain) :
    Serves c₀ l shut none (c.await operation settlement?) := by
  match settlement? with
  | none => exact h
  | some (0, s) => exact h.enqueue (.answered (hplain _ _ rfl))
  | some (after + 1, s) =>
    exact
      { h with
        timers := fun t ht => by
          rcases List.mem_append.mp ht with ht | ht
          · exact h.timers t ht
          · rw [List.mem_singleton.mp ht]
            exact ⟨hplain _ _ rfl, Nat.le_add_right _ _⟩
        ledger := by
          refine List.Perm.trans ?_ h.ledger
          have hlast : [(⟨c.journal.now + (after + 1), ⟨operation, s⟩⟩ : Timer Answered)].filterMap
              (fun t => t.wake.arrival? t.due) =
              ((⟨operation, s⟩ : Answered).arrival? (c.journal.now + (after + 1))).toList := by
            rw [List.filterMap_cons]
            cases (⟨operation, s⟩ : Answered).arrival? (c.journal.now + (after + 1)) <;> rfl
          simp only [arriving, Connection.await, Timers.add, List.filterMap_append, hlast,
            Option.toList_none, List.nil_append, Option.bind_some]
          refine List.Perm.append_right _ ?_
          rw [← List.append_assoc]
          exact List.perm_append_comm }

lemma receive (operation : Operation) {reply : Reply} {answer : Answer}
    (h : Serves c₀ l shut ((reply.settlement? answer).bind fun (after, s) =>
      (⟨operation, s⟩ : Answered).arrival? (c.journal.now + after)) c)
    (hoperation : ∀ transport dial, operation ≠ .opening transport dial)
    (hanswer : answer ≠ .connection) :
    Serves c₀ l shut none (c.receive operation reply (reply.settlement? answer)) := by
  have hplain : ∀ after s, reply.settlement? answer = some (after, s) →
      (⟨operation, s⟩ : Answered).Plain := fun _ _ => plain_of_settlement hoperation hanswer
  cases hcourse : reply.course with
  | throws e =>
    have hs : reply.settlement? answer = some (0, .rejected e) := by
      rw [Reply.settlement?, hcourse]
    rw [hs] at h
    simp only [Connection.receive, hcourse]
    exact h.resume (hplain 0 _ hs)
  | never | fails | succeeds =>
    simp only [Connection.receive, hcourse]
    exact h.await operation hplain

end Serves

/-- Everything that is on its way comes later. -/
def Ahead (c : Connection) : Prop := ∀ t ∈ c.timers, c.journal.now < t.due

lemma ahead_receive (h : c.Ahead) {operation : Operation}
    (hoperation : ∀ transport dial, operation ≠ .opening transport dial) (reply : Reply)
    (settlement? : Option (Nat × Settlement)) :
    (c.receive operation reply settlement?).Ahead ∧
      (c.receive operation reply settlement?).journal.now = c.journal.now := by
  have hawait : (c.await operation settlement?).Ahead ∧
      (c.await operation settlement?).journal.now = c.journal.now := by
    match settlement? with
    | none => exact ⟨h, rfl⟩
    | some (0, s) => exact ⟨h, rfl⟩
    | some (after + 1, s) =>
      refine ⟨fun t ht => ?_, rfl⟩
      rcases List.mem_append.mp ht with ht | ht
      · exact h t ht
      · rw [List.mem_singleton.mp ht]
        exact Nat.lt_add_of_pos_right (Nat.succ_pos after)
  unfold receive
  split
  · next e _ =>
    obtain ⟨k, s, hk, -, -, hresume⟩ := resume_eq (a := ⟨operation, .rejected e⟩) c
      ⟨hoperation, Settlement.noConfusion⟩
    rw [hresume]
    refine ⟨fun t ht => ?_, hk.now⟩
    change k.now < t.due
    rw [hk.now]
    exact h t ht
  · exact hawait

/-! ### Commands -/

/-- An open connection between two commands. -/
structure Stands (c₀ : Connection) (l : List Entry) (shut : Bool) (time : Nat)
    (c : Connection) : Prop extends Serves c₀ l shut none c where
  now : c.journal.now = time
  ahead : c.Ahead

namespace Stands

variable {time : Nat}

lemma receive {operation : Operation} {reply : Reply} {answer : Answer}
    (h : Serves c₀ l shut ((reply.settlement? answer).bind fun (after, s) =>
      (⟨operation, s⟩ : Answered).arrival? (time + after)) c) (hnow : c.journal.now = time)
    (hahead : c.Ahead) (hoperation : ∀ transport dial, operation ≠ .opening transport dial)
    (hanswer : answer ≠ .connection) :
    Stands c₀ l shut time (c.receive operation reply (reply.settlement? answer)) := by
  subst hnow
  obtain ⟨hahead', hnow⟩ := ahead_receive hahead hoperation reply (reply.settlement? answer)
  exact ⟨h.receive operation hoperation hanswer, hnow, hahead'⟩

lemma beginInvoke (h : Stands c₀ l shut time c) (target : Target) (call : MethodCall) :
    Stands c₀ (⟨time, .clientInvoke target call⟩ :: l) shut time (c.beginInvoke target call) := by
  have hcalled := h.called (e := .clientInvoke target call)
    ({ c with tally := { c.tally with invokes := c.tally.invokes + 1 } }.note
      (.clientInvoke target call)) rfl rfl rfl rfl rfl fun request => by cases request <;> rfl
  have hmade : c.tally.invokes = c₀.tally.invokes + countCalls .invoke l := h.tally .invoke
  have howed : c₀.script.answer? c₀.tally l ⟨c.journal.now, .clientInvoke target call⟩ =
      (Reply.nth c.script.invokes c.tally.invokes).response?.bind fun (after, s) =>
        (⟨.invoking (c.tally.invokes + 1), s⟩ : Answered).arrival? (c.journal.now + after) := by
    rw [h.script, hmade, Reply.response?]
    simp only [Script.answer?, Reply.arrival?]
    cases Reply.settlement? _ _ <;> rfl
  rw [howed] at hcalled
  rw [← h.now, ← h.isClosed]
  exact receive hcalled rfl h.ahead (by simp) (by simp)

lemma beginPublish (h : Stands c₀ l shut time c) (event : Telemetry) :
    Stands c₀ (⟨time, .clientSend event⟩ :: l) shut time (c.beginPublish event) := by
  have hcalled := h.called (e := .clientSend event)
    ({ c with tally := { c.tally with publishes := c.tally.publishes + 1 } }.note
      (.clientSend event)) rfl rfl rfl rfl rfl fun request => by cases request <;> rfl
  have hmade : c.tally.publishes = c₀.tally.publishes + countCalls .publish l := h.tally .publish
  have howed : c₀.script.answer? c₀.tally l ⟨c.journal.now, .clientSend event⟩ =
      ((Reply.nth c.script.publishes c.tally.publishes).settlement? .nothing).bind fun (after, s) =>
        (⟨.publishing (c.tally.publishes + 1), s⟩ : Answered).arrival?
          (c.journal.now + after) := by
    rw [h.script, hmade]
    simp only [Script.answer?, Reply.arrival?]
    cases Reply.settlement? _ _ <;> rfl
  rw [howed] at hcalled
  rw [← h.now, ← h.isClosed]
  exact receive hcalled rfl h.ahead (by simp) (by simp)

/-- Closing calls the client once only. -/
lemma beginClose (h : Stands c₀ l shut time c) :
    Stands c₀ (if shut then l else ⟨time, .clientClose⟩ :: l) true time c.beginClose := by
  cases hshut : c.isClosed with
  | true =>
    obtain rfl : shut = true := h.isClosed.symm.trans hshut
    have hended : (Turn.ending 0 .closing (.fulfilled .nothing)).arrival?
        c.journal.now = none := rfl
    simp only [Connection.beginClose, hshut, if_true]
    exact ⟨(hended ▸ h.toServes).enqueue (.ending (by simp)), h.now, h.ahead⟩
  | false =>
    obtain rfl : shut = false := h.isClosed.symm.trans hshut
    have hcalled := h.called (e := .clientClose)
      ({ c with isClosed := true, tally := { c.tally with closes := c.tally.closes + 1 } }.note
        .clientClose) rfl rfl rfl rfl rfl fun request => by cases request <;> rfl
    have howed : c₀.script.answer? c₀.tally l ⟨c.journal.now, .clientClose⟩ =
        ((Reply.nth c.script.closes c.tally.closes).settlement? .nothing).bind fun (after, s) =>
          (⟨.closing, s⟩ : Answered).arrival? (c.journal.now + after) := by
      cases Reply.settlement? _ _ <;> rfl
    rw [howed] at hcalled
    rw [← h.now]
    simp only [Connection.beginClose, hshut]
    exact receive hcalled rfl h.ahead (by simp) (by simp)

lemma drain (h : Stands c₀ l shut time c) :
    Stands c₀ l shut time c.drain ∧ c.drain.queue = [] := by
  obtain ⟨hserves, hqueue, htimers, hnow⟩ := h.toServes.drain
  refine ⟨⟨hserves, hnow.trans h.now, fun t ht => ?_⟩, hqueue⟩
  rw [hnow]
  rw [htimers] at ht
  exact h.ahead t ht

end Stands

variable {o : Order}

/-- What an order adds to the calls. -/
lemma stands_obey (h : Stands c₀ (calls c₀.journal.now past) (wasClosed past)
    (clock c₀.journal.now past) c) (ho : o.isPrompt = true) :
    Stands c₀ (calls c₀.journal.now (o :: past)) (wasClosed (o :: past))
        (clock c₀.journal.now (o :: past)) (c.obey o.flush o.command) ∧
      (o.flush = true → (c.obey o.flush o.command).queue = []) := by
  obtain ⟨command, flush⟩ := o
  have hexecuted : Stands c₀ (calls c₀.journal.now (⟨command, flush⟩ :: past))
      (wasClosed (⟨command, flush⟩ :: past)) (clock c₀.journal.now (⟨command, flush⟩ :: past))
      (c.execute flush command) := by
    rw [clock_cons, wasClosed_cons]
    cases command with
    | openOver transport => simp [Order.isPrompt] at ho
    | invoke target call => exact h.beginInvoke target call
    | publish event => exact h.beginPublish event
    | close => exact h.beginClose
    | pass ms =>
      obtain rfl : flush = true := ho
      obtain ⟨hserves, -, hnow, hahead⟩ := h.toServes.advance ms
      rw [h.now] at hnow hahead
      exact ⟨hserves, hnow, fun t ht => Nat.lt_of_le_of_lt (Nat.le_of_eq hnow) (hahead t ht)⟩
  cases flush with
  | false => exact ⟨hexecuted, Bool.noConfusion⟩
  | true => exact ⟨hexecuted.drain.1, fun _ => hexecuted.drain.2⟩

/-- A connection that is open, and over which nothing is under way. -/
structure Idle (c : Connection) : Prop where
  isClosed : c.isClosed = false
  queue : c.queue = []
  timers : c.timers = []

/-- A connection over this script that nothing was asked of yet, at the beginning of time. -/
structure Unused (script : Script) (c : Connection) : Prop extends Idle c where
  script : c.script = script
  invokes : c.tally.invokes = 0
  publishes : c.tally.publishes = 0
  now : c.journal.now = 0

lemma Idle.stands (h : c₀.Idle) : Stands c₀ [] false c₀.journal.now c₀ := by
  refine ⟨⟨⟨[], rfl, by simp⟩, rfl, rfl, fun _ => rfl, h.isClosed, by simp [h.queue],
    by simp [h.timers], ?_⟩, rfl, by simp [Ahead, h.timers]⟩
  simp [arriving, h.queue, h.timers, Script.answers]

/-- However many orders there are. -/
lemma stands_run (h : c₀.Idle) (hprompt : ∀ o ∈ past, o.isPrompt = true) :
    Stands c₀ (calls c₀.journal.now past) (wasClosed past) (clock c₀.journal.now past)
      (c₀.run past) := by
  induction past with
  | nil => exact h.stands
  | cons o past ih =>
    exact (stands_obey (ih fun o' ho' => hprompt o' (List.mem_cons_of_mem _ ho'))
      (hprompt o List.mem_cons_self)).1

/-- What an open connection has done, the newest first, after some orders. The client received the
calls that were made over the connection, but that it is closed only once. When nothing waits its
turn, each method call and each event has ended that the client has answered by then, as the client
answered that very call and at that time, and none other has ended. No call ends twice. -/
structure Conveys (c₀ : Connection) (past : List Order) (new : List Entry) : Prop where
  entries : (c₀.run past).journal.entries = new ++ c₀.journal.entries
  calls : (new.filter fun x => x.event.isClientCall) = calls c₀.journal.now past
  served : (c₀.run past).queue = [] → ∀ call, answersTo call (new.filterMap Entry.served?) =
    answersTo call ((c₀.script.answers c₀.tally (Connection.calls c₀.journal.now past)).filter
      fun a => a.time ≤ clock c₀.journal.now past)
  once : ∀ call, (answersTo call (new.filterMap Entry.served?)).length ≤ 1
  flushed : ∀ o earlier, past = o :: earlier → o.flush = true → (c₀.run past).queue = []

/-- The ends that were seen by now are the answers that have come by now. -/
lemma Stands.served_perm {time : Nat} {new : List Entry} (h : Stands c₀ l shut time c)
    (hnew : c.journal.entries = new ++ c₀.journal.entries) (htime : ∀ x ∈ new, x.time ≤ time)
    (hqueue : c.queue = []) : (new.filterMap Entry.served?).Perm
      ((c₀.script.answers c₀.tally l).filter fun a => a.time ≤ time) := by
  have hseen : ((new.filterMap Entry.served?).filter fun a => a.time ≤ time) =
      new.filterMap Entry.served? := by
    refine List.filter_eq_self.mpr fun a ha => ?_
    obtain ⟨x, hx, hserved⟩ := List.mem_filterMap.mp ha
    rw [served?_time hserved]
    exact decide_eq_true (htime x hx)
  have hcoming : (c.arriving.filter fun a => a.time ≤ time) = [] := by
    refine List.filter_eq_nil_iff.mpr fun a ha => ?_
    rw [arriving, hqueue, List.filterMap_nil, List.nil_append] at ha
    obtain ⟨t, ht, hbrings⟩ := List.mem_filterMap.mp ha
    rw [arrival?_time hbrings, decide_eq_true_eq, Nat.not_le]
    exact lt_of_eq_of_lt h.now.symm (h.ahead t ht)
  have hfiltered := (h.ledger_new hnew).filter fun a => a.time ≤ time
  rwa [List.filter_append, hcoming, hseen] at hfiltered

theorem conveys_run (h : c₀.Idle) (hprompt : ∀ o ∈ past, o.isPrompt = true) :
    ∃ new, Conveys c₀ past new := by
  have hstands := stands_run h hprompt
  obtain ⟨new, hnew, htime⟩ := hstands.fresh
  rw [hstands.now] at htime
  refine ⟨new, hnew, ?_, fun hqueue call => ?_, fun call => ?_, ?_⟩
  · have hcalls := hstands.calls
    rw [clientCalls, hnew, List.filter_append] at hcalls
    exact List.append_cancel_right hcalls
  · refine answersTo_eq_of_perm (hstands.served_perm hnew htime hqueue) ?_ call
    exact (Script.nodup_answers _ _ _).sublist (List.filter_sublist.map _)
  · refine length_answersTo_le_one (List.Nodup.sublist ?_ (hstands.nodup_ledger hnew)) call
    exact (List.sublist_append_right _ _).map _
  · rintro o earlier rfl hflush
    exact (stands_obey (stands_run h fun o' ho' => hprompt o' (List.mem_cons_of_mem _ ho'))
      (hprompt o List.mem_cons_self)).2 hflush

end Connection

end EdgeCaller

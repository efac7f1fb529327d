import EdgeCaller.Proofs.Client.Conveyance
import EdgeCaller.Proofs.Sender.Rest
/-!
A loop and its connection.

A loop over a client makes its calls over a connection, one at a time. If the same calls are made,
at the same times, over a connection as it stands by itself, the client receives the same calls, and
the connection answers them as the loop was answered: so a loop over a client is what a loop and a
connection make together.
-/

namespace EdgeCaller

open Connection (Order)

/-- The answers that a run goes on from. It awaits one at a time, so each is the answer to the last
call before it that asks for the same. -/
def answersIn : List Entry → List Arrival
  | [] => []
  | x :: earlier =>
    match x.event with
    | .answered request s =>
      ⟨⟨request, countCalls request earlier⟩, x.time, s⟩ :: answersIn earlier
    | _ => answersIn earlier

/-- Whether an event is neither a call to an open client nor the answer to one. -/
def Event.isAside : Event → Bool
  | clientInvoke .. | clientSend _ | clientClose | answered .. => false
  | _ => true

lemma Event.isAside_of_remark {e : Event} (h : e.mark = .remark) : e.isAside = true := by
  cases e <;> simp_all [Event.mark, Event.isAside]

lemma Event.isClientCall_of_isAside {e : Event} (h : e.isAside = true) :
    e.isClientCall = false := by
  cases e <;> simp_all [Event.isAside, Event.isClientCall, Event.request?]

lemma answersIn_cons_of_isAside {e : Event} (h : e.isAside = true) (time : Nat) (l : List Entry) :
    answersIn (⟨time, e⟩ :: l) = answersIn l := by
  cases e <;> simp_all [Event.isAside, answersIn]

lemma answersIn_append_of_isAside {new : List Event} (h : ∀ e ∈ new, e.isAside = true)
    (time : Nat) (l : List Entry) : answersIn (new.map (Entry.mk time) ++ l) = answersIn l := by
  induction new with
  | nil => rfl
  | cons e new ih =>
    obtain ⟨he, hnew⟩ := List.forall_mem_cons.mp h
    exact (answersIn_cons_of_isAside he time _).trans (ih hnew)

lemma countCalls_filter (request : Request) (l : List Entry) :
    countCalls request (l.filter fun x => x.event.isClientCall) = countCalls request l := by
  rw [countCalls, countCalls, List.countP_filter]
  refine List.countP_congr fun x _ => ?_
  rw [Bool.and_eq_true, and_iff_left_iff_imp, decide_eq_true_eq]
  intro h
  rw [Event.isClientCall, h]
  rfl

namespace Sender

/-- The request that is under way in a phase of a loop. -/
def Phase.request? : Phase → Option Request
  | invoking _ => some .invoke
  | publishing => some .publish
  | _ => none

namespace Run

variable {plan : Plan} {r r' : Run} {l : List Arrival} {s : Settlement} {e : Event}

def clientCalls (r : Run) : List Entry := r.journal.entries.filter fun x => x.event.isClientCall

/-- The answers that the run has gone on from. -/
def answered (r : Run) : List Arrival := answersIn r.journal.entries

/-- The answer that has arrived, and those that are to come. -/
def coming (r : Run) : List Arrival :=
  match r.phase.request? with
  | none => []
  | some request =>
    let call : CallId := ⟨request, r.tally.made request⟩
    (r.ready.map (⟨call, r.journal.now, ·⟩)).toList ++ r.timers.filterMap fun t =>
      match t.wake with
      | .answer s => some ⟨call, t.due, s⟩
      | .pause | .grace => none

/-- A loop over a client, to which these answers are to come. A connection can be ordered to make
the same calls. -/
structure Owed (l : List Arrival) (r : Run) : Prop where
  scope : r.plan.scope = .loop
  link : r.plan.link = .client
  tally : ∀ request, r.tally.made request = countCalls request r.clientCalls
  earlier : ∀ a ∈ r.answered, a.time ≤ r.journal.now
  ledger : r.plan.script.answers {} r.clientCalls = l ++ r.answered
  orders : ∃ past : List Order, (∀ o ∈ past, o.isPrompt = true ∧ o.flush = true) ∧
    Connection.clock 0 past = r.journal.now ∧ Connection.calls 0 past = r.clientCalls

namespace Owed

/-- Phase, timers and what is ready do not matter. -/
lemma set (h : Owed l r) (hplan : r'.plan = r.plan) (hj : r'.journal = r.journal)
    (htally : r'.tally = r.tally) : Owed l r' := by
  obtain ⟨hscope, hlink, hcounted, hearlier, hledger, horders⟩ := h
  simp only [clientCalls, answered] at hcounted hearlier hledger horders
  exact ⟨by rw [hplan]; exact hscope, by rw [hplan]; exact hlink,
    by rw [clientCalls, htally, hj]; exact hcounted, by rw [answered, hj]; exact hearlier,
    by rw [clientCalls, answered, hplan, hj]; exact hledger,
    by rw [clientCalls, hj]; exact horders⟩

/-- Only calls and answers are of account. -/
lemma journal (h : Owed l r) {P : Event → Prop} (hP : ∀ e, P e → e.isAside = true) {k : Journal}
    (hk : r.journal.Extends P k) : Owed l { r with journal := k } := by
  obtain ⟨new, hnew, hnewP⟩ := hk.entries
  have hcalls : ({ r with journal := k } : Run).clientCalls = r.clientCalls := by
    rw [clientCalls, clientCalls, hnew, List.filter_append, List.filter_eq_nil_iff.mpr]
    · rfl
    · intro x hx
      obtain ⟨e, he, rfl⟩ := List.mem_map.mp hx
      simp [Event.isClientCall_of_isAside (hP e (hnewP e he))]
  have hanswered : ({ r with journal := k } : Run).answered = r.answered := by
    rw [answered, answered, hnew]
    exact answersIn_append_of_isAside (fun e he => hP e (hnewP e he)) _ _
  exact
    { h with
      tally := by rw [hcalls]; exact h.tally
      earlier := by rw [hanswered, hk.now]; exact h.earlier
      ledger := by rw [hcalls, hanswered]; exact h.ledger
      orders := by rw [hcalls, hk.now]; exact h.orders }

lemma aside (h : Owed l r) (he : e.isAside = true) : Owed l (r.note e) :=
  h.journal (P := fun e => e.isAside = true) (fun _ h => h) (Journal.extends_add he r.journal)

lemma endPause (h : Owed l r) : Owed l r.endPause := by
  unfold Run.endPause
  split
  · exact h.set rfl rfl rfl
  · exact h

lemma abort (h : Owed l r) : Owed l r.abort := by
  unfold Run.abort
  split
  · exact h
  · have hset : Owed l { r with coordinator := { r.coordinator with reason := some "abort" } } :=
      h.set rfl rfl rfl
    exact (hset.aside rfl).endPause

lemma abortAt (h : Owed l r) (due : Option Nat) (n : Nat) : Owed l (r.abortAt due n) := by
  unfold Run.abortAt
  split
  · exact h.abort
  · exact h

lemma await (h : Owed l r) (reply : Option (Nat × Settlement)) : Owed l (r.await reply) := by
  match reply with
  | none | some (0, s) | some (after + 1, s) => exact h.set rfl rfl rfl

end Owed

/-! ### Moves -/

/-- The answers that are to come are those that have arrived or that a timer brings. -/
def Balanced (r : Run) : Prop := Owed r.coming r

lemma Owed.balanced (h : Owed [] r) (hphase : r.phase.request? = none) : r.Balanced := by
  have hcoming : r.coming = [] := by rw [coming, hphase]
  rw [Balanced, hcoming]
  exact h

/-- A loop in the middle of a move, when it waits for nothing. -/
structure Acts (l : List Arrival) (r : Run) : Prop extends Owed l r where
  ready : r.ready = none
  timers : r.timers = []

namespace Acts

lemma set (h : Acts l r) (hplan : r'.plan = r.plan) (hj : r'.journal = r.journal)
    (htally : r'.tally = r.tally) (hready : r'.ready = r.ready) (htimers : r'.timers = r.timers) :
    Acts l r' :=
  ⟨h.toOwed.set hplan hj htally, hready.trans h.ready, htimers.trans h.timers⟩

lemma aside (h : Acts l r) (he : e.isAside = true) : Acts l (r.note e) :=
  ⟨h.toOwed.aside he, h.ready, h.timers⟩

lemma abort (h : Acts l r) (hphase : r.phase ≠ .pausing) : Acts l r.abort := by
  have hi := interrupted_abort (.inl hphase)
  exact ⟨h.toOwed.abort, hi.ready.trans h.ready, hi.timers.trans h.timers⟩

lemma abortAt (h : Acts l r) (hphase : r.phase ≠ .pausing) (due : Option Nat) (n : Nat) :
    Acts l (r.abortAt due n) := by
  unfold Run.abortAt
  split
  · exact h.abort hphase
  · exact h

lemma perform {α : Type} {act : Act α} {fail : Run → Value → Run} {next : Run → α → Run}
    (h : Acts [] r) (hw : act.Writes fun e => e.mark = .remark)
    (hfail : ∀ r' e, Acts [] r' → (fail r' e).Balanced)
    (hnext : ∀ r' a, Acts [] r' → (next r' a).Balanced) :
    (r.perform act fail next).Balanced := by
  have hj := hw r.journal
  unfold Run.perform
  rcases hact : act.exec r.journal with ⟨e | a, k⟩ <;> rw [hact] at hj
  · exact hfail _ e ⟨h.toOwed.journal (fun _ => Event.isAside_of_remark) hj, h.ready, h.timers⟩
  · exact hnext _ a ⟨h.toOwed.journal (fun _ => Event.isAside_of_remark) hj, h.ready, h.timers⟩

lemma finish (h : Acts [] r) (s : Settlement) : (r.finish s).Balanced := by
  have hended : Owed [] { r with phase := .ended s } := h.toOwed.set rfl rfl rfl
  simp only [Run.finish, h.scope]
  exact (hended.aside (e := .settled r.plan.name s) rfl).balanced rfl

lemma breakLoop (h : Acts [] r) (e : Value) : (r.breakLoop e).Balanced := by
  simp only [Run.breakLoop, Run.leaveLoop, h.scope]
  exact h.finish _

lemma leaveLoop (h : Acts [] r) : (r.leaveLoop none).Balanced := by
  simp only [Run.leaveLoop, h.scope]
  exact h.finish _

lemma pause (h : Acts [] r) : r.pause.Balanced := by
  cases hpace : r.plan.pace with
  | timed =>
    simp only [Run.pause, hpace]
    split
    · exact Owed.balanced (h.toOwed.set rfl rfl rfl) rfl
    · exact Owed.balanced (h.toOwed.set rfl rfl rfl) rfl
  | immediate =>
    simp only [Run.pause, hpace]
    have helapsed : Owed [] { r with
        phase := .pausing, waits := r.waits + 1, ready := some (.fulfilled .nothing) } :=
      h.toOwed.set rfl rfl rfl
    have hnoted := helapsed.aside (e := .wait r.plan.interval) rfl
    refine (hnoted.abortAt _ _).balanced ?_
    rw [(interrupted_abortAt (.inr (by simp [Run.note])) _ _).phase]
    rfl

lemma endAttempt (h : Acts [] r) (outcome : Outcome) : (r.endAttempt outcome).Balanced := by
  have hnoted : Acts [] (r.note (.attemptEnded outcome)) := h.aside rfl
  have hscope := h.scope
  simp only [Run.endAttempt, Run.note, hscope]
  exact hnoted.pause

lemma failAttempt (h : Acts [] r) (hphase : r.phase ≠ .pausing) (stage : Stage) (e : Value) :
    (r.failAttempt stage e).Balanced := by
  have hasked : Acts [] { r with consults := r.consults + 1 } := h.set rfl rfl rfl rfl rfl
  have hnoted : Acts [] ({ r with consults := r.consults + 1 }.note (.consulted stage e)) :=
    hasked.aside rfl
  exact (hnoted.abortAt hphase r.plan.abortOnConsult (r.consults + 1)).perform
    (writes_consult (fun _ _ => rfl) (fun _ _ _ => rfl) _ _ _ _) (fun _ e hr => hr.breakLoop e)
    fun _ _ hr => hr.endAttempt _

/-- The client receives a call, to which it owes the answer. -/
lemma called (h : Acts [] r) {o : Order} (ho : o.isPrompt = true ∧ o.flush = true)
    (hduration : o.command.duration = 0) (he : e.isClientCall = true)
    (hcalls : ∀ past, Connection.calls 0 (o :: past) =
      ⟨Connection.clock 0 past, e⟩ :: Connection.calls 0 past)
    (hplan : r'.plan = r.plan) (hj : r'.journal = r.journal.add e) (hready : r'.ready = r.ready)
    (htimers : r'.timers = r.timers)
    (htally : ∀ request, r'.tally.made request =
      r.tally.made request + (decide (e.request? = some request)).toNat) :
    Acts (r.plan.script.answer? {} r.clientCalls ⟨r.journal.now, e⟩).toList r' := by
  have hadded : r'.clientCalls = ⟨r.journal.now, e⟩ :: r.clientCalls := by
    rw [clientCalls, hj, Journal.entries_add, List.filter_cons_of_pos (by exact he)]
    rfl
  have hanswered : r'.answered = r.answered := by
    rw [answered, hj, Journal.entries_add]
    cases e with
    | answered => simp [Event.isClientCall, Event.request?] at he
    | _ => rfl
  obtain ⟨past, hpast, hclock, hcalled⟩ := h.orders
  refine ⟨⟨?_, ?_, fun request => ?_, ?_, ?_, ⟨o :: past, ?_, ?_, ?_⟩⟩, hready.trans h.ready,
    htimers.trans h.timers⟩
  · rw [hplan]; exact h.scope
  · rw [hplan]; exact h.link
  · rw [hadded, countCalls_cons, ← h.tally, htally]
  · rw [hanswered, hj]; exact h.earlier
  · have hledger := h.ledger
    rw [List.nil_append] at hledger
    rw [hplan, hadded, hanswered, Script.answers, hledger]
  · intro o' ho'
    rcases List.mem_cons.mp ho' with rfl | ho'
    · exact ho
    · exact hpast o' ho'
  · rw [Connection.clock_cons, hduration, hj]
    exact hclock
  · rw [hcalls, hclock, hcalled, hadded]

/-- The answer to a call is awaited. The work may be aborted during the call. -/
lemma await (call : CallId) {reply : Option (Nat × Settlement)} {time : Nat}
    (h : Acts (reply.map fun (after, s) => ⟨call, time + after, s⟩).toList r)
    (hphase : r.phase.request? = some call.request) (hnow : r.journal.now = time)
    (hnumber : r.tally.made call.request = call.number) (due : Option Nat) (n : Nat) :
    ((r.abortAt due n).await reply).Balanced := by
  have hpausing : r.phase ≠ .pausing := by
    intro hpausing
    simp [hpausing, Phase.request?] at hphase
  have hi := interrupted_abortAt (.inl hpausing) due n
  have habort := h.abortAt hpausing due n
  have hphase' : (r.abortAt due n).phase.request? = some call.request := by rw [hi.phase, hphase]
  have hnow' : (r.abortAt due n).journal.now = time := hi.journal.now.trans hnow
  have hnumber' : (r.abortAt due n).tally.made call.request = call.number := by
    rw [hi.tally, hnumber]
  generalize r.abortAt due n = r' at habort hphase' hnow' hnumber'
  have hcoming : (r'.await reply).coming =
      (reply.map fun (after, s) => ⟨call, time + after, s⟩).toList := by
    match reply with
    | none | some (0, s) | some (after + 1, s) =>
      simp [coming, Run.await, hphase', habort.ready, habort.timers, Timers.add, hnow', hnumber']
  rw [Balanced, hcoming]
  exact habort.toOwed.await reply

lemma invoke (h : Acts [] r) : r.invoke.Balanced := by
  have howed : r.plan.script.answer? {} r.clientCalls
      ⟨r.journal.now, .clientInvoke r.plan.target MethodCall.standard⟩ =
      (Reply.nth r.plan.script.invokes r.tally.invokes).response?.map fun (after, s) =>
        ⟨⟨.invoke, r.tally.invokes + 1⟩, r.journal.now + after, s⟩ := by
    have hcount : r.tally.invokes = countCalls .invoke r.clientCalls := h.tally .invoke
    simp only [Script.answer?, Reply.arrival?, Reply.response?, hcount, Nat.zero_add]
  have hcalled : ∀ shown, Acts _ ({ r with
      phase := .invoking shown
      tally := { r.tally with invokes := r.tally.invokes + 1 } }.note
      (.clientInvoke r.plan.target MethodCall.standard)) := fun _ =>
    h.called (o := ⟨.invoke r.plan.target MethodCall.standard, true⟩) ⟨rfl, rfl⟩ rfl rfl
      (fun _ => rfl) rfl rfl rfl rfl fun request => by cases request <;> rfl
  simp only [howed] at hcalled
  simp only [Run.invoke, h.link]
  exact (hcalled _).await ⟨.invoke, r.tally.invokes + 1⟩ rfl rfl rfl _ _

lemma beginAttempt (h : Acts [] r) : r.beginAttempt.Balanced :=
  perform (h.aside rfl) (Act.writes_tell (fun _ => rfl) _ _) (fun _ e hr => hr.breakLoop e)
    fun _ _ hr => hr.invoke

lemma publish (h : Acts [] r) : r.publish.Balanced := by
  have howed : r.plan.script.answer? {} r.clientCalls ⟨r.journal.now, .clientSend .success⟩ =
      ((Reply.nth r.plan.script.publishes r.tally.publishes).settlement? .nothing).map
        fun (after, s) => ⟨⟨.publish, r.tally.publishes + 1⟩, r.journal.now + after, s⟩ := by
    have hcount : r.tally.publishes = countCalls .publish r.clientCalls := h.tally .publish
    simp only [Script.answer?, Reply.arrival?, hcount, Nat.zero_add]
  have hcalled : Acts _ ({ r with
      phase := .publishing
      tally := { r.tally with publishes := r.tally.publishes + 1 } }.note
      (.clientSend .success)) :=
    h.called (o := ⟨.publish .success, true⟩) ⟨rfl, rfl⟩ rfl rfl (fun _ => rfl) rfl rfl rfl rfl
      fun request => by cases request <;> rfl
  rw [howed] at hcalled
  simp only [Run.publish, h.link]
  exact hcalled.await ⟨.publish, r.tally.publishes + 1⟩ rfl rfl rfl _ _

lemma invoked (h : Acts [] r) (methodName status : Value) :
    (r.invoked methodName status).Balanced := by
  unfold Run.invoked
  split
  · exact h.perform (Act.writes_tell (fun _ => rfl) _ _) (fun _ e hr => hr.breakLoop e)
      fun _ _ hr => hr.publish
  · exact h.perform (Act.writes_tell (fun _ => rfl) _ _) (fun _ e hr => hr.breakLoop e)
      fun _ _ hr => hr.endAttempt _

lemma published (h : Acts [] r) : r.published.Balanced :=
  h.perform (Act.writes_tell (fun _ => rfl) _ _) (fun _ e hr => hr.breakLoop e)
    fun _ _ hr => hr.endAttempt _

lemma turn (h : Acts [] r) : r.turn.Balanced := by
  unfold Run.turn
  split
  · exact h.perform (Act.writes_say (fun _ => rfl) _) (fun _ e hr => hr.breakLoop e)
      fun _ _ hr => hr.leaveLoop
  · exact h.beginAttempt

/-- A loop goes on from an answer that is noted. -/
lemma resume (h : Acts [] (r.heard s)) (hgoes : r.GoesOnFrom s) : (r.resume s).Balanced := by
  rcases hgoes with ⟨name, hphase, -⟩ | hphase | hphase
  · have hnot : (r.note (.answered .invoke s)).phase ≠ .pausing := by simp [Run.note, hphase]
    simp only [Run.heard, Run.resume, hphase] at h ⊢
    cases s with
    | rejected e => exact h.failAttempt hnot _ _
    | fulfilled a => cases a <;> exact h.invoked _ _
  · have hnot : (r.note (.answered .publish s)).phase ≠ .pausing := by simp [Run.note, hphase]
    simp only [Run.heard, Run.resume, hphase] at h ⊢
    cases s with
    | rejected e => exact h.failAttempt hnot _ _
    | fulfilled a => exact h.published
  · simp only [Run.heard, Run.resume, hphase] at h ⊢
    exact h.turn

end Acts

/-! ### Steps -/

namespace Owed

lemma answered {request : Request}
    (h : Owed [⟨⟨request, r.tally.made request⟩, r.journal.now, s⟩] r) :
    Owed [] (r.note (.answered request s)) := by
  have hanswered : (r.note (.answered request s)).answered =
      ⟨⟨request, r.tally.made request⟩, r.journal.now, s⟩ :: r.answered := by
    rw [h.tally, clientCalls, countCalls_filter]
    rfl
  exact
    { h with
      earlier := fun a ha => by
        rw [hanswered] at ha
        rcases List.mem_cons.mp ha with rfl | ha
        · exact Nat.le_refl _
        · exact h.earlier a ha
      ledger := by
        rw [hanswered]
        exact h.ledger }

lemma moveTo (h : Owed l r) {time : Nat} (htime : r.journal.now ≤ time) :
    Owed l (r.moveTo time) := by
  obtain ⟨past, hpast, hclock, hcalls⟩ := h.orders
  exact
    { h with
      earlier := fun a ha => Nat.le_trans (h.earlier a ha) htime
      orders := by
        refine ⟨⟨.pass (time - r.journal.now), true⟩ :: past, fun o ho => ?_, ?_, hcalls⟩
        · rcases List.mem_cons.mp ho with rfl | ho
          · exact ⟨rfl, rfl⟩
          · exact hpast o ho
        · rw [Connection.clock_cons, hclock]
          exact Nat.add_sub_cancel' htime }

end Owed

lemma heard_of_request? {request : Request} (h : r.phase.request? = some request) :
    r.heard s = r.note (.answered request s) := by
  unfold Run.heard
  split <;> simp_all [Phase.request?]

lemma heard_of_pausing (h : r.phase = .pausing) : r.heard s = r := by
  rw [Run.heard, h]

namespace Balanced

/-- The answer that a loop goes on from is no longer to come. -/
lemma heard (h : r.Balanced) (hready : r.ready = some s) (htimers : r.timers = [])
    (hgoes : GoesOnFrom { r with ready := none } s) :
    Acts [] ({ r with ready := none }.heard s) := by
  have hnoted : ∀ request, r.phase.request? = some request →
      Acts [] ({ r with ready := none }.note (.answered request s)) := by
    intro request hphase
    have hcoming : r.coming = [⟨⟨request, r.tally.made request⟩, r.journal.now, s⟩] := by
      simp [coming, hphase, hready, htimers]
    have howed : Owed [⟨⟨request, r.tally.made request⟩, r.journal.now, s⟩]
        { r with ready := none } := by
      rw [← hcoming]
      exact Owed.set h rfl rfl rfl
    exact ⟨howed.answered, rfl, htimers⟩
  rcases hgoes with ⟨name, hphase, -⟩ | hphase | hphase
  · have hrequest := congrArg Phase.request? hphase
    rw [heard_of_request? hrequest]
    exact hnoted .invoke hrequest
  · have hrequest := congrArg Phase.request? hphase
    rw [heard_of_request? hrequest]
    exact hnoted .publish hrequest
  · have hcoming : r.coming = [] := by
      rw [coming, show r.phase = _ from hphase]
      rfl
    rw [heard_of_pausing hphase]
    refine ⟨?_, rfl, htimers⟩
    rw [← hcoming]
    exact Owed.set h rfl rfl rfl

lemma resume (h : r.Balanced) (hr : r.Sound plan) (hscope : plan.scope = .loop)
    (hready : r.ready = some s) : ({ r with ready := none }.resume s).Balanced := by
  have hgoes : GoesOnFrom { r with ready := none } s := hr.goesOnFrom hscope hready
  exact (h.heard hready (hr.timers_of_ready hscope hready) hgoes).resume hgoes

/-- A timer brings the answer that was to come, or ends the pause. -/
lemma fire (h : r.Balanced) (hr : r.Sound plan) (hscope : plan.scope = .loop)
    (hexit : r.exit = none) : r.fire.Balanced := by
  have htimers := (hr.timers_loop hscope).2
  obtain ⟨p, hp⟩ := hr.exists_stands
  unfold Run.fire
  split
  · exact h
  · next t rest hnext =>
    have hdue := (hp.due_next hexit hnext).1
    obtain ⟨hrest, hsingle, hgrace⟩ := hr.timers_eq_singleton hscope hnext
    have hmoved : Owed r.coming ({ r with timers := rest }.moveTo t.due) :=
      (Owed.moveTo h hdue).set rfl rfl rfl
    have hnone : r.ready = none := by
      by_contra hready
      obtain ⟨s, hs⟩ := Option.ne_none_iff_exists'.mp hready
      simp [hr.timers_of_ready hscope hs] at hsingle
    obtain ⟨due, wake⟩ := t
    cases wake with
    | grace => simp [Alarm.isGrace] at hgrace
    | pause =>
      have hphase := hr.pausing_of_timer (htimers.symm.trans hsingle)
      have hcoming : r.coming = [] := by
        rw [coming, hphase]
        rfl
      rw [hcoming] at hmoved
      exact Owed.balanced (hmoved.set rfl rfl rfl) (congrArg Phase.request? hphase)
    | answer s =>
      have hcoming : r.coming =
          ({ r with timers := rest }.moveTo due |>.wake (.answer s)).coming := by
        simp only [coming, Run.wake, Run.moveTo, hsingle, hrest, hnone]
        cases r.phase.request? <;> rfl
      rw [Balanced, ← hcoming]
      exact hmoved.set rfl rfl rfl

lemma wait (h : r.Balanced) {time : Nat} (htime : r.journal.now ≤ time)
    (hready : r.journal.now < time → r.ready = none) : (r.moveTo time).Balanced := by
  have hcoming : (r.moveTo time).coming = r.coming := by
    rcases Nat.eq_or_lt_of_le htime with rfl | hlt
    · rfl
    · simp [coming, Run.moveTo, hready hlt]
  rw [Balanced, hcoming]
  exact Owed.moveTo h htime

lemma abort (h : r.Balanced) : r.abort.Balanced := by
  have hcoming : r.abort.coming = r.coming := by
    by_cases hphase : r.phase = .pausing
    · rw [coming, coming, (undergoes_abort r).phase, hphase]
      rfl
    · have hi := interrupted_abort (.inl hphase)
      rw [coming, coming, hi.phase, hi.ready, hi.timers, hi.journal.now, hi.tally]
  rw [Balanced, hcoming]
  exact Owed.abort h

lemma step (h : r.Balanced) (hr : r.Sound plan) (hscope : plan.scope = .loop) (hstep : Step r r')
    (hprompt : r.journal.now < r'.journal.now → r.ready = none) : r'.Balanced := by
  cases hstep with
  | goOn _ hready => exact h.resume hr hscope hready
  | fire hexit => exact h.fire hr hscope hexit
  | wait htime => exact h.wait htime hprompt
  | signal name =>
    rw [hr.deliver_loop hscope]
    exact h
  | abort => exact h.abort

end Balanced

lemma Begins.balanced (h : Begins plan r) (hscope : plan.scope = .loop)
    (hlink : plan.link = .client) : r.Balanced := by
  have hcreate : ∀ console epoch, Acts [] (create plan (.start console epoch)) := fun _ _ =>
    ⟨⟨hscope, hlink, fun request => by cases request <;> rfl,
      by simp [answered, answersIn, create, Journal.start], rfl, ⟨[], by simp, rfl, rfl⟩⟩, rfl, rfl⟩
  have hbegin : ∀ r', Acts [] r' → r'.begin.Balanced := fun r' hr' => by
    simp only [begin, hr'.scope]
    exact hr'.turn
  cases h with
  | @fresh console epoch => exact hbegin _ (hcreate console epoch)
  | @aborted console epoch _ => exact hbegin _ ((hcreate console epoch).abort Phase.noConfusion)

/-- At every moment, the answers that a prompt loop was given and those on their way to it are those
that a client gives to its calls. -/
theorem Prompt.balanced (h : Prompt plan r) (hscope : plan.scope = .loop)
    (hlink : plan.link = .client) : r.Balanced := by
  induction h with
  | begins hbegins => exact hbegins.balanced hscope hlink
  | step hprompt hstep hnow ih => exact ih.step hprompt.reached.sound hscope hstep hnow

/-- Whatever is to come to a loop at rest comes later. -/
lemma Balanced.answers_eq (h : r.Balanced) (hready : r.ready = none)
    (hahead : ∀ t ∈ r.timers, r.journal.now < t.due) :
    (r.plan.script.answers {} r.clientCalls).filter (fun a => a.time ≤ r.journal.now) =
      r.answered := by
  have hlater : ∀ a ∈ r.coming, r.journal.now < a.time := by
    intro a ha
    unfold coming at ha
    split at ha
    · simp at ha
    · simp only [hready, Option.map_none, Option.toList_none, List.nil_append] at ha
      obtain ⟨t, ht, harrival⟩ := List.mem_filterMap.mp ha
      split at harrival
      · rw [← Option.some.inj harrival]
        exact hahead t ht
      · simp at harrival
      · simp at harrival
  rw [Owed.ledger h, List.filter_append, List.filter_eq_nil_iff.mpr, List.nil_append]
  · exact List.filter_eq_self.mpr fun a ha => decide_eq_true (Owed.earlier h a ha)
  · intro a ha
    rw [decide_eq_true_eq, Nat.not_le]
    exact hlater a ha

/-- What a run asks of its client can be asked of this connection, at the same times: the client
behind it then receives the calls of the run, and each ends as that call of the run was answered. -/
def CarriedBy (r : Run) (c₀ : Connection) : Prop :=
  ∃ past new, (∀ o ∈ past, o.isPrompt = true) ∧
    Connection.clock c₀.journal.now past = r.journal.now ∧ c₀.Conveys past new ∧
    (new.filter fun x => x.event.isClientCall) = r.clientCalls ∧
    ∀ call, answersTo call (new.filterMap Entry.served?) = answersTo call r.answered

lemma Prompt.carriedBy (h : Prompt plan r) (hscope : plan.scope = .loop)
    (hlink : plan.link = .client) (hready : r.ready = none)
    (hahead : ∀ t ∈ r.timers, r.journal.now < t.due) {c₀ : Connection}
    (hc : c₀.Unused plan.script) : r.CarriedBy c₀ := by
  have hbalanced := h.balanced hscope hlink
  obtain ⟨past, hpast, hclock, hcalls⟩ := Owed.orders hbalanced
  obtain ⟨new, hnew⟩ := Connection.conveys_run hc.toIdle fun o ho => (hpast o ho).1
  have hqueue : (c₀.run past).queue = [] := by
    cases past with
    | nil => exact hc.queue
    | cons o past => exact hnew.flushed o past rfl (hpast o List.mem_cons_self).2
  have hmade := hnew.calls
  rw [hc.now, hcalls] at hmade
  have hgiven : ((c₀.script.answers c₀.tally (Connection.calls c₀.journal.now past)).filter
      fun a => a.time ≤ Connection.clock c₀.journal.now past) = r.answered := by
    rw [hc.now, hcalls, hclock, hc.script, ← h.reached.sound.plan_eq,
      ← hbalanced.answers_eq hready hahead]
    exact congrArg _ (Script.answers_congr _ hc.invokes hc.publishes _)
  exact ⟨past, new, fun o ho => (hpast o ho).1, by rw [hc.now, hclock], hnew, hmade,
    fun call => (hnew.served hqueue call).trans (congrArg _ hgiven)⟩

/-- **A connection over a client stands for any other.** Whatever is asked of an open connection,
and however calls overlap, the client receives the same calls in the same order, closing only once,
and each method call and each event ends as the client answers that very call. A loop over a client
therefore does, at the same times, what it does over a connection of its own: its attempts and their
outcomes, what its policy is asked, and its end are the same. And the calls of a loop over a client,
each with its answer, are those that a connection conveys: so it is wherever such a loop rests, and
a timed loop always comes to rest before time passes. -/
theorem overClient_refines (plan : Plan) (hscope : plan.scope = .loop)
    (hunaltered : ∀ reply ∈ plan.script.invokes, reply.alters = false) :
    (∀ (c₀ : Connection) (past : List Order), c₀.Idle → (∀ o ∈ past, o.isPrompt = true) →
      ∃ new, c₀.Conveys past new) ∧
    (∀ console epoch aborted past, course plan.overClient console epoch aborted past =
      (course { plan with link := .direct } console epoch aborted past).overClient) ∧
    (∀ r, Prompt plan.overClient r → r.ready = none → (∀ t ∈ r.timers, r.journal.now < t.due) →
      ∀ c₀ : Connection, c₀.Unused plan.script → r.CarriedBy c₀) ∧
    (plan.pace = .timed → ∀ console epoch aborted past (c₀ : Connection), c₀.Unused plan.script →
      (course plan.overClient console epoch aborted past).CarriedBy c₀) := by
  have hrests : ∀ r, Prompt plan.overClient r → r.ready = none →
      (∀ t ∈ r.timers, r.journal.now < t.due) → ∀ c₀ : Connection, c₀.Unused plan.script →
      r.CarriedBy c₀ := fun _ hprompt hready hahead _ hc =>
    hprompt.carriedBy hscope rfl hready hahead hc
  refine ⟨fun _ _ => Connection.conveys_run, fun console epoch aborted past => ?_, hrests,
    fun hpace console epoch aborted past c₀ hc => ?_⟩
  · have hdirect : ({ plan with link := .direct } : Plan).scope = .loop := hscope
    exact (mirrors_course hdirect hunaltered console epoch aborted past).eq
  · have hclient : plan.overClient.scope = .loop := hscope
    obtain ⟨htimely, hready⟩ := timely_course hclient hpace console epoch aborted past
    exact hrests _ htimely.prompt hready htimely.ahead c₀ hc

/-- A client that fails at once at first, then takes its time, and later less of it. -/
def slow : Plan where
  scope := .loop
  link := .client
  script := {
    closes := [{ course := .succeeds 10 }]
    invokes := [{ course := .throws (.text "busy") },
      { course := .succeeds 20, payload := .text "done" },
      { course := .succeeds 10, payload := .text "done again" }]
    publishes := [{ course := .fails (.text "lost") 5 }] }
  target := ⟨"device", "module"⟩
  interval := 1000
  policy := .record

/-- A connection that was opened over it. -/
def connected : Connection :=
  ({ journal := .start ⟨.from .error, none, 0⟩ 0, script := slow.script } : Connection).obey true
    (.openOver "Amqp")

/-- Three calls at once, closed twice, and a call after that; then time passes. -/
def overlapping : List Order :=
  [⟨.pass 50, true⟩, ⟨.publish .success, true⟩, ⟨.close, true⟩, ⟨.close, false⟩,
    ⟨.invoke slow.target .standard, false⟩, ⟨.invoke slow.target .standard, false⟩,
    ⟨.invoke slow.target .standard, false⟩]

lemma connected_unused : connected.Unused slow.script where
  isClosed := by decide +kernel
  queue := List.isEmpty_iff.mp (by decide +kernel)
  timers := List.isEmpty_iff.mp (by decide +kernel)
  script := rfl
  invokes := by decide +kernel
  publishes := by decide +kernel
  now := by decide +kernel

/-- The connection passes overlapping calls on, of which the third ends before the second, and it
carries the loop, which makes its calls one after the other. -/
theorem overClient_refines_slow :
    (∃ new, connected.Conveys overlapping new ∧
      [⟨.invoke, 1⟩, ⟨.invoke, 2⟩, ⟨.invoke, 3⟩, ⟨.publish, 1⟩].map (fun call =>
        (answersTo call (new.filterMap Entry.served?)).map (·.time)) = [[0], [20], [10], [5]]) ∧
    (course slow ⟨.from .error, none, 0⟩ 0 false [.abort, .pass 2500]).CarriedBy connected ∧
    (course slow ⟨.from .error, none, 0⟩ 0 false [.abort, .pass 2500]).clientCalls.map (·.time) =
      [2035, 2025, 1020, 1000, 0] := by
  have hrefines := overClient_refines slow rfl fun reply hreply => by
    simp only [slow, List.mem_cons, List.not_mem_nil, or_false] at hreply
    rcases hreply with rfl | rfl | rfl <;> rfl
  obtain ⟨new, hnew⟩ := hrefines.1 connected overlapping connected_unused.toIdle (by decide)
  have hqueue : (connected.run overlapping).queue = [] := hnew.flushed _ _ rfl rfl
  refine ⟨⟨new, hnew, ?_⟩, hrefines.2.2.2 rfl _ _ _ _ _ connected_unused, by decide +kernel⟩
  simp only [List.map_cons, List.map_nil, hnew.served hqueue]
  decide +kernel

end Run

end Sender

end EdgeCaller

import EdgeCaller.Proofs.Client.Conveyance
import EdgeCaller.Proofs.Client.Opening
import EdgeCaller.Proofs.Sender.Protocol
/-!
What failures of a client come to.

A connection may be closed while calls over it are under way, and more than once. Closing it again
succeeds at once; the first time it succeeds when the client has answered, unless the client fails
to close and this cannot be told. `Shuts` says that no end of a closing is lost on the way, or
changed. It is kept by every turn, and as time passes.

With how openings end this makes the whole of what is told of a failing client, and to whom.
-/

namespace EdgeCaller

/-- The end of a closing, as it is seen over a connection: when, and whether it succeeded. -/
def Entry.closure? (x : Entry) : Option (Nat × Bool) :=
  match x.event with
  | .settled "close" s => some (x.time, s.isFulfilled)
  | _ => none

/-- The end that comes of a turn, if it belongs to a closing. -/
def Turn.closure? (t : Threshold) (time : Nat) : Turn → Option (Nat × Bool)
  | answered ⟨.closing, s⟩ => some (time, s.Contained t)
  | answered _ => none
  | ending _ operation s => Entry.closure? ⟨time, operation.ended s⟩

namespace Connection

variable {c₀ c : Connection} {bound : Nat} {shut : Bool} {expected : List (Nat × Bool)}
  {owed : Option (Nat × Bool)} {a : Answered} {turn : Turn} {past : List Order} {s : Settlement}

/-- The ends of closings that are to come. -/
def closings (t : Threshold) (c : Connection) : List (Nat × Bool) :=
  c.queue.filterMap (·.closure? t c.journal.now) ++
    c.timers.filterMap fun u => (Turn.answered u.wake).closure? t u.due

/-- The ends of closings that were seen. -/
def closed (c : Connection) : List (Nat × Bool) := c.journal.entries.filterMap Entry.closure?

/-- How a closing ends that is begun at this time: after others at once, or else when the client
answers. -/
def closureAt? (c₀ : Connection) (shut : Bool) (time : Nat) : Option (Nat × Bool) :=
  if shut then some (time, true)
  else (c₀.closing.settlement? .nothing).map fun (after, s) =>
    (time + after, decide (s.Contained c₀.journal.console.threshold))

/-- The ends of the closings among these orders. A closing that is never answered has none. -/
def closures (c₀ : Connection) : List Order → List (Nat × Bool)
  | [] => []
  | o :: past =>
    match o.command with
    | .close =>
      (c₀.closureAt? (wasClosed past) (clock c₀.journal.now past)).toList ++ c₀.closures past
    | _ => c₀.closures past

/-- The state of a connection that was open and at rest, when its closings are to end like this. One
end may be `owed`: it is in hand, and neither queued nor seen. -/
structure Shuts (c₀ : Connection) (bound : Nat) (shut : Bool) (expected : List (Nat × Bool))
    (owed : Option (Nat × Bool)) (c : Connection) : Prop where
  script : c.script = c₀.script
  within : c₀.journal.Within bound c.journal
  isClosed : c.isClosed = shut
  closes : shut = false → c.tally.closes = c₀.tally.closes
  queue : ∀ turn ∈ c.queue, turn.Plain
  timers : ∀ t ∈ c.timers, t.wake.Plain
  ledger : (owed.toList ++ c.closings c₀.journal.console.threshold ++ c.closed).Perm
    (expected ++ c₀.closed)

namespace Shuts

/-! ### Turns -/

lemma mono (h : Shuts c₀ bound shut expected owed c) {bound' : Nat} (hbound : bound ≤ bound') :
    Shuts c₀ bound' shut expected owed c := { h with within := h.within.mono hbound }

/-- Lines are of no account. -/
lemma lines (h : Shuts c₀ bound shut expected owed c) {k : Journal}
    (hk : c.journal.Extends (·.isLine = true) k) :
    Shuts c₀ bound shut expected owed { c with journal := k } := by
  obtain ⟨new, hnew, hline⟩ := hk.entries
  have hnone : (new.map (Entry.mk c.journal.now)).filterMap Entry.closure? = [] := by
    refine List.filterMap_eq_nil_iff.mpr fun x hx => ?_
    obtain ⟨e, he, rfl⟩ := List.mem_map.mp hx
    have hisLine := hline e he
    cases e with
    | line level text => rfl
    | _ => simp [Event.isLine] at hisLine
  have hclosed : ({ c with journal := k } : Connection).closed = c.closed := by
    rw [closed, closed, hnew, List.filterMap_append, hnone, List.nil_append]
  have hclosings : ∀ t, ({ c with journal := k } : Connection).closings t = c.closings t := by
    intro t
    rw [closings, closings, hk.now]
  exact
    { h with
      within := h.within.extends hk
      ledger := by rw [hclosed, hclosings]; exact h.ledger }

lemma enqueue
    (h : Shuts c₀ bound shut expected
      (turn.closure? c₀.journal.console.threshold c.journal.now) c)
    (hturn : turn.Plain) : Shuts c₀ bound shut expected none (c.enqueue turn) :=
  { h with
    queue := fun turn' hmem => by
      rcases List.mem_append.mp hmem with hmem | hmem
      · exact h.queue turn' hmem
      · rw [List.mem_singleton.mp hmem]; exact hturn
    ledger := by
      refine List.Perm.trans ?_ h.ledger
      have hlast : [turn].filterMap (·.closure? c₀.journal.console.threshold c.journal.now) =
          (turn.closure? c₀.journal.console.threshold c.journal.now).toList := by
        rw [List.filterMap_cons]
        cases turn.closure? c₀.journal.console.threshold c.journal.now <;> rfl
      simp only [closings, Connection.enqueue, List.filterMap_append, hlast, Option.toList_none,
        List.nil_append]
      refine List.Perm.append_right _ ?_
      rw [← List.append_assoc]
      exact List.perm_append_comm.append_right _ }

end Shuts

/-- The failure of an open client to close is told, and closing succeeds. -/
lemma closeAnswered_rejected (e : Value) :
    Client.closeAnswered (.rejected e) = Client.warn "Failed to close module client" [] e := rfl

/-- A closing comes to the end that the answer to it leads to, and the others to none. -/
lemma closure?_resume (hu : c.journal.Undisturbed) (ha : a.Plain) :
    ∃ k s, c.journal.Extends (·.isLine = true) k ∧ s ≠ .fulfilled .connection ∧
      (∀ time, (Turn.ending 0 a.operation s).closure? c.journal.console.threshold time =
        (Turn.answered a).closure? c.journal.console.threshold time) ∧
      c.resume a = { c with journal := k }.enqueue (.ending 0 a.operation s) := by
  obtain ⟨operation, s⟩ := a
  cases operation with
  | opening transport dial => exact absurd rfl (ha.operation transport dial)
  | invoking | publishing => exact ⟨_, s, .refl _ _, ha.settlement, fun _ => rfl, rfl⟩
  | closing =>
    simp only [resume, perform]
    cases s with
    | fulfilled answer => exact ⟨_, .fulfilled .nothing, .refl _ _, by simp, fun _ => rfl, rfl⟩
    | rejected e =>
      have htold := Client.succeeds_warn_iff hu "Failed to close module client"
        (fun _ hm => absurd hm List.not_mem_nil) e
      have hlines := Client.writes_warn "Failed to close module client" [] e c.journal
      rw [closeAnswered_rejected]
      rcases hwarn : (Client.warn "Failed to close module client" [] e).exec c.journal
        with ⟨g | ⟨⟩, k⟩ <;> rw [hwarn] at hlines
      · have huntold : ¬(Settlement.rejected e).Contained c.journal.console.threshold := fun h =>
          (htold.mpr h).ne_error hwarn
        refine ⟨k, .rejected g, hlines, Settlement.noConfusion, fun time => ?_, rfl⟩
        exact congrArg (fun succeeds => some (time, succeeds)) (decide_eq_false huntold).symm
      · have hcontained : (Settlement.rejected e).Contained c.journal.console.threshold :=
          htold.mp ⟨_, _, hwarn⟩
        refine ⟨k, .fulfilled .nothing, hlines, by simp, fun time => ?_, rfl⟩
        exact congrArg (fun succeeds => some (time, succeeds)) (decide_eq_true hcontained).symm

namespace Shuts

lemma resume (hu : Journal.Undisturbed { c₀.journal with now := bound })
    (h : Shuts c₀ bound shut expected
      ((Turn.answered a).closure? c₀.journal.console.threshold c.journal.now) c) (ha : a.Plain) :
    Shuts c₀ bound shut expected none (c.resume a) := by
  obtain ⟨k, s, hk, hs, hclosure, hresume⟩ := closure?_resume (h.within.undisturbed hu) ha
  rw [h.within.threshold] at hclosure
  rw [hresume]
  have howed : Shuts c₀ bound shut expected
      ((Turn.ending 0 a.operation s).closure? c₀.journal.console.threshold
        ({ c with journal := k } : Connection).journal.now) { c with journal := k } := by
    rw [hclosure, hk.now]
    exact h.lines hk
  exact howed.enqueue (.ending hs)

/-- An event is added, which may be the end that was owed. -/
lemma note {e : Event} (h : Shuts c₀ bound shut expected (Entry.closure? ⟨c.journal.now, e⟩) c) :
    Shuts c₀ bound shut expected none (c.note e) :=
  { h with
    within := h.within.extends (Journal.extends_add (P := fun _ => True) trivial c.journal)
    ledger := by
      refine List.Perm.trans ?_ h.ledger
      have hclosed : (c.note e).closed =
          (Entry.closure? ⟨c.journal.now, e⟩).toList ++ c.closed := by
        rw [closed, Connection.note, Journal.entries_add, List.filterMap_cons]
        cases Entry.closure? ⟨c.journal.now, e⟩ <;> rfl
      rw [hclosed, Option.toList_none, List.nil_append, ← List.append_assoc]
      exact List.perm_append_comm.append_right _ }

lemma take (hu : Journal.Undisturbed { c₀.journal with now := bound })
    (h : Shuts c₀ bound shut expected
      (turn.closure? c₀.journal.console.threshold c.journal.now) c) (hturn : turn.Plain) :
    Shuts c₀ bound shut expected none (c.take turn) := by
  cases hturn with
  | answered ha => exact h.resume hu ha
  | ending hs =>
    rw [Connection.take, conclude_eq _ hs]
    exact h.note

lemma takeNext (hu : Journal.Undisturbed { c₀.journal with now := bound })
    (h : Shuts c₀ bound shut expected none c) {rest : List Turn} (hqueue : c.queue = turn :: rest) :
    Shuts c₀ bound shut expected none ({ c with queue := rest }.take turn) := by
  have howed : Shuts c₀ bound shut expected
      (turn.closure? c₀.journal.console.threshold c.journal.now) { c with queue := rest } :=
    { h with
      queue := fun turn' hmem => h.queue turn' (by rw [hqueue]; exact List.mem_cons_of_mem _ hmem)
      ledger := by
        refine List.Perm.trans (List.Perm.of_eq ?_) h.ledger
        simp only [closings, hqueue, List.filterMap_cons, closed]
        cases turn.closure? c₀.journal.console.threshold c.journal.now <;> simp }
  exact howed.take hu (h.queue turn (by rw [hqueue]; exact List.mem_cons_self))

lemma drainFor (hu : Journal.Undisturbed { c₀.journal with now := bound })
    (h : Shuts c₀ bound shut expected none c) (fuel : Nat) :
    Shuts c₀ bound shut expected none (c.drainFor fuel) := by
  induction fuel generalizing c with
  | zero => exact h
  | succ fuel ih =>
    rw [Connection.drainFor]
    split
    · exact h
    · next hqueue => exact ih (h.takeNext hu hqueue)

/-! ### Time -/

lemma moveTo (h : Shuts c₀ bound shut expected none c) (hqueue : c.queue = []) {time : Nat}
    (htime : time ≤ bound) : Shuts c₀ bound shut expected none (c.moveTo time) :=
  { h with
    within := h.within.moveTo htime
    ledger := by
      have hledger := h.ledger
      simp only [closings, hqueue, List.filterMap_nil] at hledger
      simp only [closings, Connection.moveTo, hqueue, List.filterMap_nil]
      exact hledger }

/-- The next timer fires, and what it wakes is queued. -/
lemma fire (h : Shuts c₀ bound shut expected none c) (hqueue : c.queue = [])
    (hdue : ∀ due ∈ c.timers.nextDue, due ≤ bound) :
    Shuts c₀ bound shut expected none c.fire := by
  unfold Connection.fire
  split
  · exact h
  · next t rest hnext =>
    obtain ⟨before, after, htimers, rfl⟩ := Timers.split_of_next? hnext
    have hmoved := h.moveTo hqueue (hdue t.due (by rw [Timers.nextDue, hnext]; rfl))
    have hmem : ∀ u ∈ before ++ after, u ∈ c.timers := by
      intro u hu
      rw [htimers]
      rcases List.mem_append.mp hu with hu | hu
      · exact List.mem_append_left _ hu
      · exact List.mem_append_right _ (List.mem_cons_of_mem _ hu)
    have hplain : t.wake.Plain := h.timers t (by rw [htimers]; simp)
    have howed : Shuts c₀ bound shut expected
        ((Turn.answered t.wake).closure? c₀.journal.console.threshold t.due)
        ({ c with timers := before ++ after }.moveTo t.due) :=
      { hmoved with
        timers := fun u hu => h.timers u (hmem u hu)
        ledger := by
          refine List.Perm.trans ?_ hmoved.ledger
          simp only [closings, Connection.moveTo, hqueue, htimers, List.filterMap_nil,
            List.nil_append, Option.toList_none, List.filterMap_append, List.filterMap_cons]
          refine List.Perm.append_right _ ?_
          cases (Turn.answered t.wake).closure? c₀.journal.console.threshold t.due with
          | none => exact .refl _
          | some closure =>
            change (closure :: (before.filterMap _ ++ after.filterMap _)).Perm
              (before.filterMap _ ++ closure :: after.filterMap _)
            exact List.perm_middle.symm }
    exact howed.enqueue (.answered hplain)

variable {l : List Entry}

lemma advanceTo {time : Nat} (hu : Journal.Undisturbed { c₀.journal with now := bound })
    (hserves : Serves c₀ l shut none c) (h : Shuts c₀ bound shut expected none c)
    (hqueue : c.queue = []) (htime : time ≤ bound) (fuel : Nat) :
    Shuts c₀ bound shut expected none ((clockwork true).advanceTo time fuel c) := by
  induction fuel generalizing c with
  | zero => exact h.moveTo hqueue htime
  | succ fuel ih =>
    rw [Clockwork.advanceTo]
    split
    · next due hdue =>
      split
      · next hle =>
        cases hnext : c.timers.next? with
        | none => simp [clockwork, Timers.nextDue, hnext] at hdue
        | some next =>
          obtain ⟨t, rest⟩ := next
          obtain ⟨hserves', hqueue', -, -⟩ := hserves.fire hqueue hnext
          refine ih hserves' ((h.fire hqueue fun due' hdue' => ?_).drainFor hu _) hqueue'
          exact Option.some.inj (hdue.symm.trans hdue') ▸ Nat.le_trans hle htime
      · exact h.moveTo hqueue htime
    · exact h.moveTo hqueue htime

lemma advance {ms : Nat} (hu : Journal.Undisturbed { c₀.journal with now := bound + ms })
    (hserves : Serves c₀ l shut none c) (h : Shuts c₀ bound shut expected none c) :
    Shuts c₀ (bound + ms) shut expected none (c.advance true ms) := by
  have hdrained : Shuts c₀ bound shut expected none c.drain :=
    h.drainFor (hu.earlier (Nat.le_add_right bound ms)) _
  exact (hdrained.mono (Nat.le_add_right bound ms)).advanceTo hu hserves.drain.1 hserves.drain.2.1
    (Nat.add_le_add_right hdrained.within.now ms) _

/-! ### Commands -/

/-- One more end is to come. -/
lemma owe (h : Shuts c₀ bound shut expected none c) (owed : Option (Nat × Bool)) :
    Shuts c₀ bound shut (owed.toList ++ expected) owed c :=
  { h with
    ledger := by
      rw [List.append_assoc, List.append_assoc]
      exact h.ledger.append_left owed.toList }

lemma await (operation : Operation) {settlement? : Option (Nat × Settlement)}
    (h : Shuts c₀ bound shut expected (settlement?.bind fun (after, s) =>
      (Turn.answered ⟨operation, s⟩).closure? c₀.journal.console.threshold
        (c.journal.now + after)) c)
    (hplain : ∀ after s, settlement? = some (after, s) → (⟨operation, s⟩ : Answered).Plain) :
    Shuts c₀ bound shut expected none (c.await operation settlement?) := by
  match settlement? with
  | none => exact h
  | some (0, s) => exact h.enqueue (.answered (hplain _ _ rfl))
  | some (after + 1, s) =>
    exact
      { h with
        timers := fun t ht => by
          rcases List.mem_append.mp ht with ht | ht
          · exact h.timers t ht
          · rw [List.mem_singleton.mp ht]
            exact hplain _ _ rfl
        ledger := by
          refine List.Perm.trans ?_ h.ledger
          have hlast : [(⟨c.journal.now + (after + 1), ⟨operation, s⟩⟩ : Timer Answered)].filterMap
              (fun u => (Turn.answered u.wake).closure? c₀.journal.console.threshold u.due) =
              ((Turn.answered ⟨operation, s⟩).closure? c₀.journal.console.threshold
                (c.journal.now + (after + 1))).toList := by
            rw [List.filterMap_cons]
            cases (Turn.answered ⟨operation, s⟩).closure? c₀.journal.console.threshold
              (c.journal.now + (after + 1)) <;> rfl
          simp only [closings, Connection.await, Timers.add, List.filterMap_append, hlast,
            Option.toList_none, List.nil_append, Option.bind_some]
          refine List.Perm.append_right _ ?_
          rw [← List.append_assoc]
          exact List.perm_append_comm }

lemma receive (hu : Journal.Undisturbed { c₀.journal with now := bound }) (operation : Operation)
    {reply : Reply} {answer : Answer}
    (h : Shuts c₀ bound shut expected ((reply.settlement? answer).bind fun (after, s) =>
      (Turn.answered ⟨operation, s⟩).closure? c₀.journal.console.threshold
        (c.journal.now + after)) c)
    (hplain : ∀ after s, reply.settlement? answer = some (after, s) →
      (⟨operation, s⟩ : Answered).Plain) :
    Shuts c₀ bound shut expected none (c.receive operation reply (reply.settlement? answer)) := by
  cases hcourse : reply.course with
  | throws e =>
    have hs : reply.settlement? answer = some (0, .rejected e) := by
      rw [Reply.settlement?, hcourse]
    rw [hs] at h
    simp only [Connection.receive, hcourse]
    exact h.resume hu (hplain 0 _ hs)
  | never | fails | succeeds =>
    simp only [Connection.receive, hcourse]
    exact h.await operation hplain

/-- The answer to a method call or an event is of no account. -/
lemma receive_served (hu : Journal.Undisturbed { c₀.journal with now := bound })
    {operation : Operation} (hserved : operation.call?.isSome = true) (reply : Reply)
    {answer : Answer} (hanswer : answer ≠ .connection)
    (h : Shuts c₀ bound shut expected none c) :
    Shuts c₀ bound shut expected none (c.receive operation reply (reply.settlement? answer)) := by
  have hopening : ∀ transport dial, operation ≠ .opening transport dial := by
    rintro transport dial rfl
    simp [Operation.call?] at hserved
  refine receive hu operation ?_ fun _ _ => plain_of_settlement hopening hanswer
  have hnone : ((reply.settlement? answer).bind fun (after, s) =>
      (Turn.answered ⟨operation, s⟩).closure? c₀.journal.console.threshold
        (c.journal.now + after)) = none := by
    refine Option.bind_eq_none_iff.mpr fun (after, s) _ => ?_
    cases operation <;> first | rfl | simp [Operation.call?] at hserved
  rw [hnone]
  exact h

lemma beginInvoke (hu : Journal.Undisturbed { c₀.journal with now := bound })
    (h : Shuts c₀ bound shut expected none c) (target : Target) (call : MethodCall) :
    Shuts c₀ bound shut expected none (c.beginInvoke target call) := by
  have hcounted : Shuts c₀ bound shut expected (Entry.closure?
      ⟨c.journal.now, .clientInvoke target call⟩)
      { c with tally := { c.tally with invokes := c.tally.invokes + 1 } } := { h with }
  exact receive_served hu rfl _ (by simp) hcounted.note

lemma beginPublish (hu : Journal.Undisturbed { c₀.journal with now := bound })
    (h : Shuts c₀ bound shut expected none c) (event : Telemetry) :
    Shuts c₀ bound shut expected none (c.beginPublish event) := by
  have hcounted : Shuts c₀ bound shut expected (Entry.closure?
      ⟨c.journal.now, .clientSend event⟩)
      { c with tally := { c.tally with publishes := c.tally.publishes + 1 } } := { h with }
  exact receive_served hu rfl _ (by simp) hcounted.note

lemma beginClose (hu : Journal.Undisturbed { c₀.journal with now := bound })
    (h : Shuts c₀ bound shut expected none c) :
    Shuts c₀ bound true ((c₀.closureAt? shut c.journal.now).toList ++ expected) none
      c.beginClose := by
  have howed := h.owe (c₀.closureAt? shut c.journal.now)
  cases shut with
  | true =>
    have hisClosed : c.isClosed = true := h.isClosed
    simp only [Connection.beginClose, hisClosed, if_true]
    refine enqueue ?_ (.ending (by simp))
    exact howed
  | false =>
    have hisClosed : c.isClosed = false := h.isClosed
    have hreply : Reply.nth c.script.closes c.tally.closes = c₀.closing := by
      rw [h.script, h.closes rfl, closing]
    have hcalled : Shuts c₀ bound true ((c₀.closureAt? false c.journal.now).toList ++ expected)
        (c₀.closureAt? false c.journal.now)
        ({ c with isClosed := true, tally := { c.tally with closes := c.tally.closes + 1 } }.note
          .clientClose) :=
      { howed with
        within := howed.within.extends (Journal.extends_add (P := fun _ => True) trivial c.journal)
        isClosed := rfl
        closes := Bool.noConfusion }
    have hbind : c₀.closureAt? false c.journal.now =
        (c₀.closing.settlement? .nothing).bind fun (after, s) =>
          (Turn.answered ⟨.closing, s⟩).closure? c₀.journal.console.threshold
            (c.journal.now + after) := by
      rw [closureAt?]
      cases c₀.closing.settlement? .nothing <;> rfl
    simp only [Connection.beginClose, hisClosed, hreply]
    refine receive hu .closing ?_ fun _ _ => plain_of_settlement (by simp) (by simp)
    rw [hbind] at hcalled ⊢
    exact hcalled

/-- What an order adds to the ends of closings. -/
lemma obey {o : Order} (ho : o.isPrompt = true)
    (hu : Journal.Undisturbed { c₀.journal with now := clock c₀.journal.now (o :: past) })
    (hstands : Stands c₀ (calls c₀.journal.now past) (wasClosed past) (clock c₀.journal.now past) c)
    (h : Shuts c₀ (clock c₀.journal.now past) (wasClosed past) (c₀.closures past) none c) :
    Shuts c₀ (clock c₀.journal.now (o :: past)) (wasClosed (o :: past)) (c₀.closures (o :: past))
      none (c.obey o.flush o.command) := by
  obtain ⟨command, flush⟩ := o
  rw [clock_cons] at hu ⊢
  have hexecuted : Shuts c₀ (clock c₀.journal.now past + command.duration)
      (wasClosed (⟨command, flush⟩ :: past)) (c₀.closures (⟨command, flush⟩ :: past)) none
      (c.execute flush command) := by
    rw [wasClosed_cons]
    cases command with
    | openOver transport => simp [Order.isPrompt] at ho
    | invoke target call => exact h.beginInvoke hu target call
    | publish event => exact h.beginPublish hu event
    | close =>
      have hclosed := h.beginClose hu
      rw [hstands.now] at hclosed
      exact hclosed
    | pass ms =>
      obtain rfl : flush = true := ho
      exact h.advance hu hstands.toServes
  cases flush with
  | false => exact hexecuted
  | true => exact hexecuted.drainFor hu _

end Shuts

/-- However many orders there are. -/
lemma shuts_run (h : c₀.Idle) (hprompt : ∀ o ∈ past, o.isPrompt = true)
    (hu : Journal.Undisturbed { c₀.journal with now := clock c₀.journal.now past }) :
    Shuts c₀ (clock c₀.journal.now past) (wasClosed past) (c₀.closures past) none
      (c₀.run past) := by
  induction past with
  | nil =>
    exact
      { script := rfl
        within := ⟨rfl, rfl, rfl, Nat.le_refl _⟩
        isClosed := h.isClosed
        closes := fun _ => rfl
        queue := by simp [run, h.queue]
        timers := by simp [run, h.timers]
        ledger := by simp [run, closings, closures, h.queue, h.timers] }
  | cons o past ih =>
    obtain ⟨ho, hprompt'⟩ := List.forall_mem_cons.mp hprompt
    have hearlier : clock c₀.journal.now past ≤ clock c₀.journal.now (o :: past) := by
      rw [clock_cons]
      exact Nat.le_add_right _ _
    exact Shuts.obey ho hu (stands_run h hprompt') (ih hprompt' (hu.earlier hearlier))

lemma closure?_time {x : Entry} {closure : Nat × Bool} (h : x.closure? = some closure) :
    closure.1 = x.time := by
  unfold Entry.closure? at h
  split at h
  · rw [← Option.some.inj h]
  · simp at h

lemma answered_closure?_time {t : Threshold} {time : Nat} {closure : Nat × Bool}
    (h : (Turn.answered a).closure? t time = some closure) : closure.1 = time := by
  unfold Turn.closure? at h
  split at h
  · rw [← Option.some.inj h]
  · simp at h
  · next hturn => nomatch hturn

/-- When nothing waits its turn, those closings have ended that were to end by then. -/
lemma closures_run (h : c₀.Idle) (hprompt : ∀ o ∈ past, o.isPrompt = true)
    (hu : Journal.Undisturbed { c₀.journal with now := clock c₀.journal.now past })
    (hqueue : (c₀.run past).queue = []) :
    ∃ new, (c₀.run past).journal.entries = new ++ c₀.journal.entries ∧
      (new.filterMap Entry.closure?).Perm
        ((c₀.closures past).filter fun closure => closure.1 ≤ clock c₀.journal.now past) := by
  have hshuts := shuts_run h hprompt hu
  have hstands := stands_run h hprompt
  obtain ⟨new, hnew, htime⟩ := hstands.fresh
  refine ⟨new, hnew, ?_⟩
  have hledger := hshuts.ledger
  rw [closed, hnew, List.filterMap_append, ← List.append_assoc, Option.toList_none,
    List.nil_append] at hledger
  have hseen : ((new.filterMap Entry.closure?).filter
      fun closure => closure.1 ≤ clock c₀.journal.now past) = new.filterMap Entry.closure? := by
    refine List.filter_eq_self.mpr fun closure hclosure => ?_
    obtain ⟨x, hx, hends⟩ := List.mem_filterMap.mp hclosure
    rw [closure?_time hends, ← hstands.now]
    exact decide_eq_true (htime x hx)
  have hcoming : (((c₀.run past).closings c₀.journal.console.threshold).filter
      fun closure => closure.1 ≤ clock c₀.journal.now past) = [] := by
    refine List.filter_eq_nil_iff.mpr fun closure hclosure => ?_
    rw [closings, hqueue, List.filterMap_nil, List.nil_append] at hclosure
    obtain ⟨u, hu, hbrings⟩ := List.mem_filterMap.mp hclosure
    rw [answered_closure?_time hbrings, decide_eq_true_eq, Nat.not_le]
    exact lt_of_eq_of_lt hstands.now.symm (hstands.ahead u hu)
  have hfiltered := ((List.perm_append_right_iff _).mp hledger).filter
    fun closure => closure.1 ≤ clock c₀.journal.now past
  rwa [List.filter_append, hcoming, hseen] at hfiltered

/-! ### What is contained -/

/-- What an opening has done, newest first, that was begun on one connection and has led to
another. -/
inductive Undertaken (c₀ : Connection) (transport : String) (c : Connection) : List Event → Prop
  /-- A call is made. If nothing is under way any more, it is never answered. -/
  | awaits (d : Dial) : d.Due c₀ →
      (c.queue = [] → c.timers = [] → ∀ s, ¬(d.awaited c₀).Settles s) →
      Undertaken c₀ transport c (d.calls transport)
  /-- The end is not seen yet. -/
  | unseen (done : List Event) (s : Settlement) : OpensTo c₀ transport done s → c.queue ≠ [] →
      Undertaken c₀ transport c done
  | ended (done : List Event) (s : Settlement) : OpensTo c₀ transport done s →
      Undertaken c₀ transport c (.settled "open" s :: done)

lemma Opens.undertaken {transport : String} (h : Opens c₀ transport bound c) :
    ∃ new, c.journal.entries = new ++ c₀.journal.entries ∧
      Undertaken c₀ transport c (deeds new) := by
  cases h with
  | awaits d hdue htally h =>
    obtain ⟨new, hnew, hdeeds⟩ := h.done
    refine ⟨new, hnew, hdeeds ▸ .awaits d hdue fun hqueue htimers s ⟨after, hs⟩ => ?_⟩
    have hwaiting := h.waiting
    simp [hqueue, htimers, hs] at hwaiting
  | ends turns d done s hs h =>
    obtain ⟨new, hnew, hdeeds⟩ := h.done
    refine ⟨new, hnew, hdeeds ▸ .unseen done s hs fun hqueue => ?_⟩
    have hwaiting := h.waiting
    rw [hqueue, List.nil_append] at hwaiting
    obtain ⟨t, -, ht⟩ := List.exists_of_mem_map (hwaiting ▸ List.mem_singleton_self _)
    nomatch ht
  | ended done s hs h =>
    obtain ⟨new, hnew, hdeeds⟩ := h.done
    exact ⟨new, hnew, hdeeds ▸ .ended done s hs⟩

lemma settles_unique {r : Reply} {s s' : Settlement} (h : r.Settles s) (h' : r.Settles s') :
    s = s' := by
  obtain ⟨after, hs⟩ := h
  obtain ⟨after', hs'⟩ := h'
  exact congrArg Prod.snd (Option.some.inj (hs.symm.trans hs'))

/-- An opening ends as it should: with a connection, or with a failure to open one that carries the
transport and what failed as its cause. -/
def EndsWell (c₀ : Connection) (transport : String) (s : Settlement) : Prop :=
  s = .fulfilled .connection ∨
    ∃ message cause, s = .rejected (.openFailure message transport cause) ∧
    (c₀.creation.Settles (.rejected cause) ∨
      c₀.creation.Settles (.fulfilled .nothing) ∧ c₀.unlocking.Settles (.rejected cause))

/-- A client will not open, nor close, and this cannot be told. -/
def Untold (c₀ : Connection) : Prop :=
  c₀.creation.Settles (.fulfilled .nothing) ∧ (∃ cause, c₀.unlocking.Settles (.rejected cause)) ∧
    ∃ e, c₀.closing.Settles (.rejected e) ∧ ¬e.Tellable c₀.journal.console.threshold

lemma OpensTo.endsWell_iff {transport : String} {done : List Event}
    (h : OpensTo c₀ transport done s) : c₀.EndsWell transport s ↔ ¬c₀.Untold := by
  cases h with
  | uncreated cause hcreation =>
    refine iff_of_true (.inr ⟨_, cause, rfl, .inl hcreation⟩) fun ⟨hcreated, _⟩ => ?_
    nomatch settles_unique hcreation hcreated
  | opened hcreation hunlocking =>
    refine iff_of_true (.inl rfl) fun ⟨_, ⟨cause, hlocked⟩, _⟩ => ?_
    nomatch settles_unique hunlocking hlocked
  | unopened cause s' hcreation hunlocking hclosing hcontained =>
    refine iff_of_true (.inr ⟨_, cause, rfl, .inr ⟨hcreation, hunlocking⟩⟩) ?_
    rintro ⟨-, -, e, hclosing', huntold⟩
    rw [settles_unique hclosing hclosing'] at hcontained
    exact huntold hcontained
  | untold cause e other hcreation hunlocking hclosing huntold hother =>
    refine iff_of_false ?_ fun h => h ⟨hcreation, ⟨cause, hunlocking⟩, e, hclosing, huntold⟩
    rintro (hs | ⟨message, cause', hs, -⟩)
    · nomatch hs
    · exact hother ⟨message, transport, cause', Settlement.rejected.inj hs⟩

/-- **The failures of a client are contained, unless they cannot be told.** However time passes, an
opening has made its calls in turn, each after those before it were answered as they had to be, and
its end follows them: a client that was created but would not open is closed once, and none of its
calls is made where it was not created. An opening that ends does so with a connection, or with a
failure that carries the transport and what creating or opening the client failed with, exactly if
no failure to close the client stays untold. Over an open connection, whatever else is asked of it,
each closing has ended that was to end by then, at the time it had to, and it succeeded exactly if
what the client answered is contained. -/
theorem failures_contained_iff (c₀ : Connection) :
    (∀ transport flush passes, c₀.queue = [] → c₀.timers = [] →
      (∀ o ∈ passes, ∃ ms, o.command = .pass ms) →
      Journal.Undisturbed { c₀.journal with now := clock c₀.journal.now passes } →
      ∃ new, (c₀.run (passes ++ [⟨.openOver transport, flush⟩])).journal.entries =
        new ++ c₀.journal.entries ∧
        Undertaken c₀ transport (c₀.run (passes ++ [⟨.openOver transport, flush⟩])) (deeds new)) ∧
    (∀ transport done s, OpensTo c₀ transport done s →
      (c₀.EndsWell transport s ↔ ¬c₀.Untold)) ∧
    ∀ past, c₀.Idle → (∀ o ∈ past, o.isPrompt = true) →
      Journal.Undisturbed { c₀.journal with now := clock c₀.journal.now past } →
      (c₀.run past).queue = [] →
      ∃ new, (c₀.run past).journal.entries = new ++ c₀.journal.entries ∧
        (new.filterMap Entry.closure?).Perm
          ((c₀.closures past).filter fun closure => closure.1 ≤ clock c₀.journal.now past) := by
  refine ⟨fun transport flush passes hqueue htimers hpasses hu => ?_,
    fun transport done s h => h.endsWell_iff, fun past hidle hprompt hu hqueue => ?_⟩
  · exact (opens_run hqueue htimers flush hpasses hu).undertaken
  · exact closures_run hidle hprompt hu hqueue

/-- A client that will not open, and fails to close with a value, both after a while. -/
def stubborn (e : Value) : Connection where
  journal := .start { threshold := .everything } 0
  script :=
    { opens := [{ course := .fails (Value.plainFailure "gone") 2 }]
      closes := [{ course := .fails e 3 }] }

/-- An opening that fails, and a closing, of a client whose failure to close has words, and of one
whose failure has none. -/
theorem failures_contained_iff_wordless :
    let told := stubborn (Value.plainFailure "busy")
    let wordless := stubborn (.bareRecord [])
    let opening : List Order := [⟨.pass 5, true⟩, ⟨.openOver "Mqtt", true⟩]
    let closing : List Order := [⟨.pass 3, true⟩, ⟨.close, true⟩]
    Undertaken told "Mqtt" (told.run opening) (deeds (told.run opening).journal.entries) ∧
    (∀ done s, OpensTo told "Mqtt" done s → told.EndsWell "Mqtt" s) ∧
    (∀ done s, OpensTo wordless "Mqtt" done s → ¬wordless.EndsWell "Mqtt" s) ∧
    (told.run closing).closed = [(3, true)] ∧ (wordless.run closing).closed = [(3, false)] := by
  intro told wordless opening closing
  have hidle : ∀ e, (stubborn e).Idle := fun _ => ⟨rfl, rfl, rfl⟩
  have hdates : ∀ e, Journal.Undisturbed { (stubborn e).journal with now := 5 } :=
    fun _ => ⟨rfl, rfl, rfl⟩
  have htold : ¬told.Untold := by
    rintro ⟨-, -, e, hclosing, huntold⟩
    obtain rfl := Settlement.rejected.inj (settles_unique ⟨3, rfl⟩ hclosing)
    exact huntold (by decide +kernel)
  have huntold : wordless.Untold :=
    ⟨⟨0, rfl⟩, ⟨_, 2, rfl⟩, _, ⟨3, rfl⟩, by decide +kernel⟩
  have hcloses : ∀ e, ((stubborn e).run closing).queue = [] →
      ((stubborn e).run closing).closed.Perm
        (((stubborn e).closures closing).filter fun closure => closure.1 ≤ 3) := by
    intro e hqueue
    obtain ⟨new, hnew, hclosures⟩ := (failures_contained_iff (stubborn e)).2.2 closing (hidle e)
      (by decide) ((hdates e).earlier (by decide : 3 ≤ 5)) hqueue
    have hentries : ((stubborn e).run closing).journal.entries = new :=
      hnew.trans (List.append_nil new)
    rw [closed, hentries]
    exact hclosures
  refine ⟨?_, fun done s h => ?_, fun done s h hends => ?_, ?_, ?_⟩
  · obtain ⟨new, hnew, hundertaken⟩ := (failures_contained_iff told).1 "Mqtt" true
      [⟨.pass 5, true⟩] rfl rfl (by simp) (hdates _)
    have hopening : [⟨.pass 5, true⟩] ++ [⟨.openOver "Mqtt", true⟩] = opening := rfl
    have hstart : told.journal.entries = [] := rfl
    rw [hopening, hstart, List.append_nil] at hnew
    rw [hopening, ← hnew] at hundertaken
    exact hundertaken
  · exact ((failures_contained_iff told).2.1 "Mqtt" done s h).mpr htold
  · exact ((failures_contained_iff wordless).2.1 "Mqtt" done s h).mp hends huntold
  · have hqueue : (told.run closing).queue = [] := List.isEmpty_iff.mp (by decide +kernel)
    have hclosures : (told.closures closing).filter (fun closure => closure.1 ≤ 3) =
        [(3, true)] := by
      decide +kernel
    exact List.perm_singleton.mp (hclosures ▸ hcloses _ hqueue)
  · have hqueue : (wordless.run closing).queue = [] := List.isEmpty_iff.mp (by decide +kernel)
    have hclosures : (wordless.closures closing).filter (fun closure => closure.1 ≤ 3) =
        [(3, false)] := by
      decide +kernel
    exact List.perm_singleton.mp (hclosures ▸ hcloses _ hqueue)

end Connection

end EdgeCaller

import EdgeCaller.Proofs.Client.Calls
import EdgeCaller.Proofs.Sender.Foreseen
/-!
How an opening ends.

A client is created and opened. If either fails, so does the opening, with what failed as the cause;
a client that would not open is closed before that. What closing fails with is only told in a line,
and the one thing that can go wrong is the telling: a failure may have no words, or words that no
line can show.

`Opens` says where an opening stands that is the only operation under way. Every turn keeps it, and
every timer, whether or not the queue is worked off in between.
-/

namespace EdgeCaller

/-! ### What can be told -/

namespace Value

instance (name : String) (v : Value) : Decidable (v.Shown name) :=
  match h : plainAt false [some ⟨.member "", "Object"⟩] (.member name) v with
  | .ok plain? => isTrue ⟨plain?, h⟩
  | .error _ => isFalse fun ⟨_, hj⟩ => nomatch h.symm.trans hj

/-- A failure to close can be told: it has words, and they can be shown where the line about it is
printed. -/
def Tellable (t : Threshold) (e : Value) : Prop :=
  ∃ words, e.brief = .ok words ∧ (t.admits .warn = true → words.Shown "error")

instance (t : Threshold) (e : Value) : Decidable (e.Tellable t) :=
  match h : e.brief with
  | .ok words => decidable_of_iff (t.admits .warn = true → words.Shown "error")
    ⟨fun hshown => ⟨words, h, hshown⟩, fun ⟨_, hwords, hshown⟩ =>
      Except.ok.inj (h.symm.trans hwords) ▸ hshown⟩
  | .error _ => isFalse fun ⟨_, hwords, _⟩ => nomatch h.symm.trans hwords

/-- The failure to open a connection, whatever its cause. -/
def IsOpenFailure (v : Value) : Prop :=
  ∃ message transport cause, v = openFailure message transport cause

lemma not_isOpenFailure (name message : String) : ¬(failure name message).IsOpenFailure := by
  rintro ⟨_, _, _, h⟩
  exact Value.noConfusion h

end Value

lemma Unconvertible.not_isOpenFailure (e : Unconvertible) : ¬e.failure.IsOpenFailure := by
  rcases e with _ | _ | _ | (_ | _) <;> exact Value.not_isOpenFailure _ _

lemma Unwritable.not_isOpenFailure (e : Unwritable) : ¬e.failure.IsOpenFailure := by
  cases e with
  | unconvertible why => exact why.not_isOpenFailure
  | _ => exact Value.not_isOpenFailure _ _

/-- What a call to close was answered with raises nothing further. -/
def Settlement.Contained (t : Threshold) : Settlement → Prop
  | fulfilled _ => True
  | rejected e => e.Tellable t

instance (t : Threshold) (s : Settlement) : Decidable (s.Contained t) :=
  match s with
  | .fulfilled _ => isTrue trivial
  | .rejected e => inferInstanceAs (Decidable (e.Tellable t))

namespace Journal

variable {j k l : Journal} {P : Event → Prop} {bound bound' : Nat}

lemma exists_of_suffix_error {details : Option Value} {e : Value} (h : suffix details = .error e) :
    ∃ why : Unwritable, e = why.failure := by
  cases details with
  | none => cases h
  | some details =>
    rw [suffix] at h
    split at h
    · cases h
    · cases hplain : details.plain with
      | ok j? =>
        rw [hplain] at h
        cases j? <;> cases h
      | error why =>
        rw [hplain] at h
        exact ⟨why, (Except.error.inj h).symm⟩

/-- What a line fails with is no failure to open a connection. -/
lemma not_isOpenFailure_of_write {level : Level} {message : String} {details : Option Value}
    {e : Value} (hj : j.Undisturbed) (h : write level message details j = (.error e, k)) :
    ¬e.IsOpenFailure := by
  cases hsuffix : suffix details with
  | ok s =>
    obtain ⟨k', hk'⟩ := write_ok hj hsuffix level message
    nomatch (congrArg Prod.fst hk').symm.trans (congrArg Prod.fst h)
  | error e' =>
    obtain ⟨why, rfl⟩ := exists_of_suffix_error hsuffix
    rw [write, hsuffix] at h
    split at h
    · cases h
      exact why.not_isOpenFailure
    · cases h

/-- One journal goes on from another under the same settings, up to a time. -/
structure Within (j : Journal) (bound : Nat) (k : Journal) : Prop where
  threshold : k.console.threshold = j.console.threshold
  fault : k.console.fault = j.console.fault
  epoch : k.epoch = j.epoch
  now : k.now ≤ bound

lemma Within.mono (h : j.Within bound k) (hbound : bound ≤ bound') : j.Within bound' k :=
  { h with now := Nat.le_trans h.now hbound }

lemma Within.extends (h : j.Within bound k) (hl : k.Extends P l) : j.Within bound l :=
  ⟨hl.threshold.trans h.threshold, hl.fault.trans h.fault, hl.epoch.trans h.epoch,
    Nat.le_trans (Nat.le_of_eq hl.now) h.now⟩

lemma Within.moveTo (h : j.Within bound k) {time : Nat} (htime : time ≤ bound) :
    j.Within bound { k with now := time } := { h with now := htime }

lemma Within.undisturbed (h : j.Within bound k) (hu : Undisturbed { j with now := bound }) :
    k.Undisturbed := by
  have hbound : Undisturbed { k with now := bound } := ⟨h.fault.trans hu.fault, by
    rw [h.epoch]; exact hu.epoch, by rw [h.epoch]; exact hu.now⟩
  exact hbound.earlier h.now

end Journal

/-! ### The line about a failure to close -/

/-- Tells that a client failed to close. -/
def Client.warn (message : String) (others : List (String × Value)) (e : Value) : Act Unit := do
  let words ← Act.ofText e.brief
  Act.tell .warn message (others ++ [("error", words)])

namespace Client

variable {j k : Journal} {message : String} {others : List (String × Value)} {e g : Value}

lemma writes_warn (message : String) (others : List (String × Value)) (e : Value) :
    (warn message others e).Writes (·.isLine = true) :=
  Act.writes_bind (Act.writes_ofText _) fun _ => Act.writes_tell (fun _ => rfl) _ _

/-- The line is written exactly if the failure can be told. -/
lemma succeeds_warn_iff (hj : j.Undisturbed) (message : String)
    (hothers : ∀ m ∈ others, m.2.Writable) (e : Value) :
    (warn message others e).Succeeds j ↔ e.Tellable j.console.threshold := by
  cases hbrief : e.brief with
  | error why =>
    refine iff_of_false (fun ⟨_, _, h⟩ => ?_) fun ⟨words, hwords, _⟩ => ?_
    · rw [warn, hbrief] at h
      nomatch h
    · nomatch hbrief.symm.trans hwords
  | ok words =>
    rw [warn, hbrief]
    refine (Act.succeeds_tell_iff hj .warn message).trans ?_
    constructor
    · exact fun h => ⟨words, hbrief, fun hadmits => h hadmits ("error", words) (by simp)⟩
    · rintro ⟨words', hwords, hshown⟩ hadmits m hm
      obtain rfl := Except.ok.inj (hbrief.symm.trans hwords)
      rcases List.mem_append.mp hm with hm | hm
      · exact (hothers m hm).shown m.1
      · rw [List.mem_singleton.mp hm]
        exact hshown hadmits

lemma not_isOpenFailure_of_warn (hj : j.Undisturbed)
    (h : (warn message others e).exec j = (.error g, k)) : ¬g.IsOpenFailure := by
  cases hbrief : e.brief with
  | error why =>
    rw [warn, hbrief] at h
    cases h
    exact why.not_isOpenFailure
  | ok words =>
    rw [warn, hbrief] at h
    exact Journal.not_isOpenFailure_of_write hj h

end Client

/-! ### The calls of an opening -/

/-- A reply settles a call, sooner or later. -/
def Reply.Settles (r : Reply) (s : Settlement) : Prop :=
  ∃ after, r.settlement? .nothing = some (after, s)

/-- What a journal's events come to but for its lines. -/
def deeds (entries : List Entry) : List Event := (entries.map Entry.event).filter fun e => !e.isLine

namespace Connection

/-- The reply to the creation of a client. -/
def creation (c : Connection) : Reply := .nth c.script.creates c.tally.creates

/-- The reply to its opening. -/
def unlocking (c : Connection) : Reply := .nth c.script.opens c.tally.opens

/-- The reply to its closing. -/
def closing (c : Connection) : Reply := .nth c.script.closes c.tally.closes

/-- What an opening does, newest first, and what it ends with, when it is begun on this
connection. -/
inductive OpensTo (c₀ : Connection) (transport : String) : List Event → Settlement → Prop
  | uncreated (cause : Value) : c₀.creation.Settles (.rejected cause) →
      OpensTo c₀ transport [.clientCreate (Wire.ofName transport)]
        (.rejected (Dial.createFailure transport cause))
  | opened : c₀.creation.Settles (.fulfilled .nothing) →
      c₀.unlocking.Settles (.fulfilled .nothing) →
      OpensTo c₀ transport [.clientOpen, .clientCreate (Wire.ofName transport)]
        (.fulfilled .connection)
  | unopened (cause : Value) (s : Settlement) : c₀.creation.Settles (.fulfilled .nothing) →
      c₀.unlocking.Settles (.rejected cause) → c₀.closing.Settles s →
      s.Contained c₀.journal.console.threshold →
      OpensTo c₀ transport [.clientClose, .clientOpen, .clientCreate (Wire.ofName transport)]
        (.rejected (Dial.openFailure transport cause))
  /-- The failure to close the client cannot be told. -/
  | untold (cause e other : Value) : c₀.creation.Settles (.fulfilled .nothing) →
      c₀.unlocking.Settles (.rejected cause) → c₀.closing.Settles (.rejected e) →
      ¬e.Tellable c₀.journal.console.threshold → ¬other.IsOpenFailure →
      OpensTo c₀ transport [.clientClose, .clientOpen, .clientCreate (Wire.ofName transport)]
        (.rejected other)

end Connection

namespace Dial

/-- The calls up to this one, newest first. -/
def calls (transport : String) : Dial → List Event
  | creating => [.clientCreate (Wire.ofName transport)]
  | opening => [.clientOpen, .clientCreate (Wire.ofName transport)]
  | discarding _ => [.clientClose, .clientOpen, .clientCreate (Wire.ofName transport)]

/-- The replies to the calls before this one lead to it. -/
def Due (c₀ : Connection) : Dial → Prop
  | creating => True
  | opening => c₀.creation.Settles (.fulfilled .nothing)
  | discarding cause =>
    c₀.creation.Settles (.fulfilled .nothing) ∧ c₀.unlocking.Settles (.rejected cause)

/-- The calls made before this one. -/
def before (tally : Tally) : Dial → Tally
  | creating => tally
  | opening => { tally with creates := tally.creates + 1 }
  | discarding _ => { tally with creates := tally.creates + 1, opens := tally.opens + 1 }

/-- The reply to this call, in an opening that is begun on this connection. -/
def awaited (c₀ : Connection) (d : Dial) : Reply := (d.reply c₀.script (d.before c₀.tally)).1

/-- How many calls there are at most from this one on. -/
def left : Dial → Nat
  | creating => 3
  | opening => 2
  | discarding _ => 1

/-- What comes of the answer to a call: the next call is due, or the opening has ended. -/
inductive LeadsTo (c₀ : Connection) (transport : String) (d : Dial) : Except Value (Option Dial) →
    List Event → Prop
  | next (d' : Dial) (e : Event) : d'.Due c₀ → d'.calls transport = e :: d.calls transport →
      d'.left + 1 = d.left → d'.before c₀.tally = (d.reply c₀.script (d.before c₀.tally)).2 →
      LeadsTo c₀ transport d (.ok (some d')) [e]
  | opened : c₀.OpensTo transport (d.calls transport) (.fulfilled .connection) →
      LeadsTo c₀ transport d (.ok none) []
  | failed (e : Value) : c₀.OpensTo transport (d.calls transport) (.rejected e) →
      LeadsTo c₀ transport d (.error e) []

variable {c₀ : Connection} {transport : String} {d : Dial} {s : Settlement} {j k : Journal}

lemma deeds_append (new old : List Entry) : deeds (new ++ old) = deeds new ++ deeds old := by
  rw [deeds, List.map_append, List.filter_append, deeds, deeds]

lemma deeds_lines (h : j.Extends (·.isLine = true) k) :
    ∃ new, k.entries = new ++ j.entries ∧ deeds new = [] := by
  obtain ⟨new, hnew, hline⟩ := h.entries
  refine ⟨_, hnew, ?_⟩
  rw [deeds, List.map_map, Function.comp_def, List.map_id', List.filter_eq_nil_iff]
  exact fun e he => by simp [hline e he]

lemma writable_transport (transport : String) :
    ∀ m ∈ [("transport", Value.text transport)], m.2.Writable := fun m hm => by
  rw [List.mem_singleton.mp hm]
  exact Value.writable_text transport

/-- The failure to close a client that would not open is told, and the opening fails. -/
lemma answered_discarding (transport : String) (cause e : Value) :
    answered transport (.discarding cause) (.rejected e) =
      Client.warn "Failed to close module client after open failure"
        [("transport", .text transport)] e >>= fun _ => throw (openFailure transport cause) := by
  simp only [answered, Client.warn, bind_assoc, List.singleton_append]

lemma leadsTo_discarding {cause e : Value} (hj : j.Undisturbed)
    (hthreshold : j.console.threshold = c₀.journal.console.threshold)
    (hdue : (discarding cause).Due c₀) (hs : c₀.closing.Settles (.rejected e)) :
    ∃ g k, (answered transport (.discarding cause) (.rejected e)).exec j = (.error g, k) ∧
      j.Extends (·.isLine = true) k ∧
      c₀.OpensTo transport ((discarding cause).calls transport) (.rejected g) := by
  let message := "Failed to close module client after open failure"
  let others := [("transport", Value.text transport)]
  have htold := Client.succeeds_warn_iff hj message (writable_transport transport) e
  have hlines := Client.writes_warn message others e j
  rw [hthreshold] at htold
  rw [answered_discarding]
  rcases hwarn : (Client.warn message others e).exec j with ⟨g | ⟨⟩, k⟩ <;> rw [hwarn] at hlines
  · refine ⟨g, k, Act.exec_bind_of_error hwarn, hlines, ?_⟩
    exact .untold cause e g hdue.1 hdue.2 hs (fun h => (htold.mpr h).ne_error hwarn)
      (Client.not_isOpenFailure_of_warn hj hwarn)
  · refine ⟨_, k, Act.exec_bind_of_ok hwarn, hlines, ?_⟩
    exact .unopened cause _ hdue.1 hdue.2 hs (htold.mp ⟨_, _, hwarn⟩)

/-- The answer to a call of an opening leads on. -/
lemma leadsTo_answered (hj : j.Undisturbed)
    (hthreshold : j.console.threshold = c₀.journal.console.threshold) (hdue : d.Due c₀)
    (hs : (d.awaited c₀).Settles s) :
    ∃ result k new, (d.answered transport s).exec j = (result, k) ∧
      j.Extends (fun _ => True) k ∧ k.entries = new ++ j.entries ∧
      LeadsTo c₀ transport d result (deeds new) := by
  cases d with
  | creating =>
    cases s with
    | rejected e => exact ⟨_, j, [], rfl, .refl _ _, rfl, .failed _ (.uncreated e hs)⟩
    | fulfilled a =>
      obtain rfl := Reply.answer_of_fulfilled hs.choose_spec
      exact ⟨_, _, [_], rfl, Journal.extends_add trivial j, rfl,
        .next .opening .clientOpen hs rfl rfl rfl⟩
  | opening =>
    cases s with
    | rejected e =>
      exact ⟨_, _, [_], rfl, Journal.extends_add trivial j, rfl,
        .next (.discarding e) .clientClose ⟨hdue, hs⟩ rfl rfl rfl⟩
    | fulfilled a =>
      obtain rfl := Reply.answer_of_fulfilled hs.choose_spec
      let tells := Act.tell .info "Successfully initialized module client."
        [("transport", .text transport)]
      have hlines : j.Extends (·.isLine = true) (tells.exec j).2 :=
        Act.writes_tell (fun _ => rfl) _ _ j
      obtain ⟨⟨⟩, k, hk⟩ : tells.Succeeds j :=
        Act.succeeds_tell hj _ _ (writable_transport transport)
      rw [hk] at hlines
      obtain ⟨new, hnew, hdeeds⟩ := deeds_lines hlines
      refine ⟨.ok none, k, new, ?_, hlines.mono fun _ _ => trivial, hnew, ?_⟩
      · rw [answered, Act.exec_bind_of_ok hk]; rfl
      · rw [hdeeds]; exact .opened (.opened hdue hs)
  | discarding cause =>
    cases s with
    | fulfilled a =>
      exact ⟨_, j, [], rfl, .refl _ _, rfl,
        .failed _ (.unopened cause _ hdue.1 hdue.2 hs trivial)⟩
    | rejected e =>
      obtain ⟨g, k, hexec, hlines, hopens⟩ := leadsTo_discarding hj hthreshold hdue hs
      obtain ⟨new, hnew, hdeeds⟩ := deeds_lines hlines
      refine ⟨.error g, k, new, hexec, hlines.mono fun _ _ => trivial, hnew, ?_⟩
      rw [hdeeds]
      exact .failed g hopens

end Dial

namespace Connection

variable {c₀ c : Connection} {transport : String} {bound : Nat} {done : List Event}
  {waiting : List Turn} {s : Settlement} {d : Dial} {j k : Journal}

/-- A connection that has done something since another, up to a time, and over which this waits its
turn or its timer. -/
structure After (c₀ : Connection) (bound : Nat) (done : List Event) (waiting : List Turn)
    (c : Connection) : Prop where
  script : c.script = c₀.script
  within : c₀.journal.Within bound c.journal
  done : ∃ new, c.journal.entries = new ++ c₀.journal.entries ∧ deeds new = done
  waiting : c.queue ++ c.timers.map (fun t => .answered t.wake) = waiting

/-- Where an opening stands that was begun on a connection over which nothing was under way. -/
inductive Opens (c₀ : Connection) (transport : String) (bound : Nat) (c : Connection) : Prop
  /-- A call is made, and its answer awaited. -/
  | awaits (d : Dial) : d.Due c₀ → c.tally = (d.reply c₀.script (d.before c₀.tally)).2 →
      After c₀ bound (d.calls transport) (((d.awaited c₀).settlement? .nothing).toList.map
        fun (_, s) => .answered ⟨.opening transport d, s⟩) c → Opens c₀ transport bound c
  /-- The opening has ended, but this was not seen yet. -/
  | ends (turns : Nat) (d : Dial) (done : List Event) (s : Settlement) :
      OpensTo c₀ transport done s →
      After c₀ bound done [.ending turns (.opening transport d) s] c → Opens c₀ transport bound c
  | ended (done : List Event) (s : Settlement) : OpensTo c₀ transport done s →
      After c₀ bound (.settled "open" s :: done) [] c → Opens c₀ transport bound c

namespace After

lemma idle (h : After c₀ bound done [] c) : c.queue = [] ∧ c.timers = [] := by
  simpa using h.waiting

/-- The opening comes to its end. -/
lemma settle (h : After c₀ bound done [] c) (hs : OpensTo c₀ transport done s) (d : Dial) :
    Opens c₀ transport bound (c.settle (.opening transport d) s) := by
  obtain ⟨turns, hsettle⟩ : ∃ turns, c.settle (.opening transport d) s =
      c.enqueue (.ending turns (.opening transport d) s) := ⟨_, rfl⟩
  obtain ⟨hqueue, htimers⟩ := h.idle
  rw [hsettle]
  refine .ends turns d done s hs { h with waiting := ?_ }
  simp [enqueue, hqueue, htimers]

/-- What follows the answer to a call, if each call that may come next does as it should. -/
lemma answered {n : Nat} (hu : Journal.Undisturbed { c₀.journal with now := bound })
    (hdial : ∀ d' c', d'.left ≤ n → d'.Due c₀ → c'.tally = d'.before c₀.tally →
      After c₀ bound (d'.calls transport) [] c' →
      Opens c₀ transport bound (dialOn n transport d' c'))
    (hleft : d.left ≤ n + 1) (hdue : d.Due c₀)
    (htally : c.tally = (d.reply c₀.script (d.before c₀.tally)).2)
    (h : After c₀ bound (d.calls transport) [] c) (hs : (d.awaited c₀).Settles s) :
    Opens c₀ transport bound
      (c.perform (.opening transport d) (d.answered transport s) fun c next =>
        match next with
        | some dial => dialOn n transport dial c
        | none => c.settle (.opening transport d) (.fulfilled .connection)) := by
  obtain ⟨result, k, new, hexec, hextends, hentries, hleads⟩ :=
    Dial.leadsTo_answered (h.within.undisturbed hu) h.within.threshold hdue hs
  obtain ⟨old, hold, hdone⟩ := h.done
  have hafter : After c₀ bound (deeds new ++ d.calls transport) [] { c with journal := k } :=
    { h with
      within := h.within.extends hextends
      done := ⟨new ++ old, by rw [hentries, hold, List.append_assoc], by
        rw [Dial.deeds_append, hdone]⟩ }
  rw [perform, hexec]
  generalize deeds new = added at hleads hafter
  cases hleads with
  | next d' e hdue' hcalls hleft' htally' =>
    have hcalls' : [e] ++ d.calls transport = d'.calls transport := hcalls.symm
    rw [hcalls'] at hafter
    exact hdial d' _ (by omega) hdue' (htally.trans htally'.symm) hafter
  | opened hopens => exact hafter.settle hopens d
  | failed e hopens => exact hafter.settle hopens d

lemma tally_await (c : Connection) (operation : Operation)
    (settlement? : Option (Nat × Settlement)) :
    (c.await operation settlement?).tally = c.tally := by
  match settlement? with
  | none | some (0, _) | some (_ + 1, _) => rfl

/-- An answer is awaited, which may never come. -/
lemma await (h : After c₀ bound done [] c) (operation : Operation)
    (settlement? : Option (Nat × Settlement)) :
    After c₀ bound done (settlement?.toList.map fun (_, s) => .answered ⟨operation, s⟩)
      (c.await operation settlement?) := by
  obtain ⟨hqueue, htimers⟩ := h.idle
  match settlement? with
  | none => exact h
  | some (0, s) => exact { h with waiting := by simp [Connection.await, enqueue, hqueue, htimers] }
  | some (after + 1, s) =>
    exact { h with waiting := by simp [Connection.await, Timers.add, hqueue, htimers] }

/-- The calls from one on are made, as far as they throw. -/
lemma dialOn {n : Nat} (hu : Journal.Undisturbed { c₀.journal with now := bound })
    (hleft : d.left ≤ n) (hdue : d.Due c₀) (htally : c.tally = d.before c₀.tally)
    (h : After c₀ bound (d.calls transport) [] c) :
    Opens c₀ transport bound (dialOn n transport d c) := by
  induction n generalizing d c with
  | zero => cases d <;> simp [Dial.left] at hleft
  | succ n ih =>
    have hreply : d.reply c.script c.tally = d.reply c₀.script (d.before c₀.tally) := by
      rw [h.script, htally]
    have hcalled : After c₀ bound (d.calls transport) []
        { c with tally := (d.reply c₀.script (d.before c₀.tally)).2 } := { h with }
    simp only [Connection.dialOn, hreply]
    split
    · next e hcourse =>
      have hs : (d.awaited c₀).Settles (.rejected e) :=
        ⟨0, by rw [Dial.awaited, Reply.settlement?, hcourse]⟩
      exact hcalled.answered hu (fun d' c' hleft' hdue' htally' h' => ih hleft' hdue' htally' h')
        hleft hdue rfl hs
    · exact .awaits d hdue (tally_await _ _ _) (hcalled.await _ _)

lemma moveTo (h : After c₀ bound done waiting c) {time : Nat} (htime : time ≤ bound) :
    After c₀ bound done waiting (c.moveTo time) :=
  { h with within := h.within.moveTo htime }

/-- A timer brings what it wakes into the queue. -/
lemma fire (h : After c₀ bound done waiting c) (hwaiting : waiting.length ≤ 1)
    (hdue : ∀ due ∈ c.timers.nextDue, due ≤ bound) : After c₀ bound done waiting c.fire := by
  unfold Connection.fire
  split
  · exact h
  · next t rest hnext =>
    obtain ⟨before, after, htimers, rfl⟩ := Timers.split_of_next? hnext
    have hlength := congrArg List.length h.waiting
    simp only [htimers, List.length_append, List.length_map, List.length_cons] at hlength
    have hqueue : c.queue = [] := List.length_eq_zero_iff.mp (by omega)
    have hbefore : before = [] := List.length_eq_zero_iff.mp (by omega)
    have hafter : after = [] := List.length_eq_zero_iff.mp (by omega)
    subst hbefore hafter
    have hbound : t.due ≤ bound := hdue t.due (by rw [Timers.nextDue, hnext]; rfl)
    refine { h with within := h.within.moveTo hbound, waiting := ?_ }
    rw [← h.waiting]
    simp [enqueue, Connection.moveTo, hqueue, htimers]

end After

namespace Opens

lemma mono (h : Opens c₀ transport bound c) {bound' : Nat} (hbound : bound ≤ bound') :
    Opens c₀ transport bound' c := by
  cases h with
  | awaits d hdue htally h =>
    exact .awaits d hdue htally { h with within := h.within.mono hbound }
  | ends turns d done s hs h =>
    exact .ends turns d done s hs { h with within := h.within.mono hbound }
  | ended done s hs h => exact .ended done s hs { h with within := h.within.mono hbound }

lemma now_le (h : Opens c₀ transport bound c) : c.journal.now ≤ bound := by
  cases h with
  | awaits d hdue htally h => exact h.within.now
  | ends turns d done s hs h => exact h.within.now
  | ended done s hs h => exact h.within.now

/-- A turn leads on. -/
lemma take (hu : Journal.Undisturbed { c₀.journal with now := bound })
    (h : Opens c₀ transport bound c) {turn : Turn} {rest : List Turn}
    (hqueue : c.queue = turn :: rest) :
    Opens c₀ transport bound ({ c with queue := rest }.take turn) := by
  cases h with
  | awaits d hdue htally h =>
    have hwaiting := h.waiting
    rw [hqueue] at hwaiting
    cases hsettlement : (d.awaited c₀).settlement? .nothing with
    | none => simp [hsettlement] at hwaiting
    | some answer =>
      obtain ⟨after, s⟩ := answer
      simp only [hsettlement, Option.toList_some, List.map_cons, List.map_nil, List.cons_append,
        List.cons.injEq] at hwaiting
      obtain ⟨rfl, hrest⟩ := hwaiting
      have hleft : d.left ≤ 2 + 1 := by cases d <;> simp [Dial.left]
      have htally' : ({ c with queue := rest } : Connection).tally = _ := htally
      have hidle : After c₀ bound (d.calls transport) [] { c with queue := rest } :=
        { h with waiting := hrest }
      exact After.answered hu
        (fun d' c' hleft' hdue' htally' h' => h'.dialOn hu hleft' hdue' htally')
        hleft hdue htally' hidle ⟨after, hsettlement⟩
  | ends turns d done s hs h =>
    have hwaiting := h.waiting
    rw [hqueue, List.cons_append, List.cons.injEq] at hwaiting
    obtain ⟨rfl, hrest⟩ := hwaiting
    have hidle : After c₀ bound done [] { c with queue := rest } := { h with waiting := hrest }
    cases turns with
    | succ turns =>
      refine .ends turns d done s hs { hidle with waiting := ?_ }
      obtain ⟨hqueue', htimers'⟩ := hidle.idle
      simp only at hqueue' htimers'
      simp [Connection.take, enqueue, hqueue', htimers']
    | zero =>
      obtain ⟨new, hnew, hdone⟩ := h.done
      have hended : ∀ c' : Connection, c'.script = c.script → c'.journal = c.journal →
          c'.queue = rest → c'.timers = c.timers →
          After c₀ bound (.settled "open" s :: done) [] (c'.note (.settled "open" s)) :=
        fun c' hscript hjournal hqueue' htimers' =>
          { script := hscript.trans h.script
            within := by
              rw [note, hjournal]
              exact h.within.extends (Journal.extends_add (P := fun _ => True) trivial c.journal)
            done := ⟨⟨c.journal.now, .settled "open" s⟩ :: new, by
              rw [note, hjournal, Journal.entries_add, hnew]; rfl, by
              rw [← hdone]; rfl⟩
            waiting := by rw [note, hqueue', htimers']; exact hrest }
      refine .ended done s hs ?_
      change After c₀ bound _ []
        (Connection.conclude { c with queue := rest } (.opening transport d) s)
      unfold conclude
      split
      · exact hended _ rfl rfl rfl rfl
      · exact hended _ rfl rfl rfl rfl
  | ended done s hs h =>
    have hwaiting := h.waiting
    simp [hqueue] at hwaiting

lemma drainFor (hu : Journal.Undisturbed { c₀.journal with now := bound })
    (h : Opens c₀ transport bound c) (fuel : Nat) : Opens c₀ transport bound (c.drainFor fuel) := by
  induction fuel generalizing c with
  | zero => exact h
  | succ fuel ih =>
    rw [Connection.drainFor]
    split
    · exact h
    · next turn rest hqueue => exact ih (h.take hu hqueue)

lemma moveTo (h : Opens c₀ transport bound c) {time : Nat} (htime : time ≤ bound) :
    Opens c₀ transport bound (c.moveTo time) := by
  cases h with
  | awaits d hdue htally h => exact .awaits d hdue htally (h.moveTo htime)
  | ends turns d done s hs h => exact .ends turns d done s hs (h.moveTo htime)
  | ended done s hs h => exact .ended done s hs (h.moveTo htime)

lemma fire (h : Opens c₀ transport bound c) (hdue : ∀ due ∈ c.timers.nextDue, due ≤ bound) :
    Opens c₀ transport bound c.fire := by
  cases h with
  | awaits d hdue' htally h =>
    have hwaiting : (((d.awaited c₀).settlement? .nothing).toList.map
        fun (_, s) => Turn.answered ⟨.opening transport d, s⟩).length ≤ 1 := by
      cases (d.awaited c₀).settlement? .nothing <;> simp
    refine .awaits d hdue' ?_ (h.fire hwaiting hdue)
    rw [← htally, Connection.fire]
    split <;> rfl
  | ends turns d done s hs h => exact .ends turns d done s hs (h.fire (Nat.le_refl 1) hdue)
  | ended done s hs h => exact .ended done s hs (h.fire (Nat.zero_le 1) hdue)

/-- Time passes, and the timers fire that are due on the way. -/
lemma advanceTo (hu : Journal.Undisturbed { c₀.journal with now := bound })
    (h : Opens c₀ transport bound c) {time : Nat} (htime : time ≤ bound) (flush : Bool)
    (fuel : Nat) : Opens c₀ transport bound ((clockwork flush).advanceTo time fuel c) := by
  induction fuel generalizing c with
  | zero => exact h.moveTo htime
  | succ fuel ih =>
    rw [Clockwork.advanceTo]
    split
    · next due hnext =>
      split
      · next hle =>
        refine ih ?_
        have hfired : Opens c₀ transport bound c.fire := h.fire fun due' hdue' =>
          Option.some.inj (hnext.symm.trans hdue') ▸ Nat.le_trans hle htime
        cases flush with
        | false => exact hfired
        | true => exact hfired.drainFor hu _
      · exact h.moveTo htime
    · exact h.moveTo htime

lemma advance {ms : Nat} (hu : Journal.Undisturbed { c₀.journal with now := bound + ms })
    (h : Opens c₀ transport bound c) (flush : Bool) :
    Opens c₀ transport (bound + ms) (c.advance flush ms) := by
  have hdrained : Opens c₀ transport bound (if flush then c.drain else c) := by
    cases flush with
    | false => exact h
    | true => exact h.drainFor (hu.earlier (Nat.le_add_right bound ms)) _
  exact (hdrained.mono (Nat.le_add_right bound ms)).advanceTo hu
    (Nat.add_le_add_right hdrained.now_le ms) flush _

end Opens

/-- An opening stands somewhere on its way, however time passes. -/
lemma opens_run (hqueue : c₀.queue = []) (htimers : c₀.timers = []) (flush : Bool)
    {passes : List Order} (hpasses : ∀ o ∈ passes, ∃ ms, o.command = .pass ms)
    (hu : Journal.Undisturbed { c₀.journal with now := clock c₀.journal.now passes }) :
    Opens c₀ transport (clock c₀.journal.now passes)
      (c₀.run (passes ++ [⟨.openOver transport, flush⟩])) := by
  induction passes with
  | nil =>
    have hbegun : After c₀ c₀.journal.now (Dial.creating.calls transport) []
        (c₀.note (.clientCreate (Wire.ofName transport))) :=
      { script := rfl
        within := ⟨rfl, rfl, rfl, Nat.le_refl _⟩
        done := ⟨[_], rfl, rfl⟩
        waiting := by simp [note, hqueue, htimers] }
    have hopens : Opens c₀ transport c₀.journal.now (c₀.beginOpen transport) :=
      hbegun.dialOn hu (Nat.le_refl 3) trivial rfl
    cases flush with
    | false => exact hopens
    | true => exact hopens.drainFor hu _
  | cons o passes ih =>
    obtain ⟨⟨ms, hcommand⟩, hpasses'⟩ := List.forall_mem_cons.mp hpasses
    have hclock : clock c₀.journal.now (o :: passes) = clock c₀.journal.now passes + ms := by
      rw [clock_cons, hcommand]
      rfl
    rw [hclock] at hu ⊢
    have hopens := (ih hpasses' (hu.earlier (Nat.le_add_right _ ms))).advance hu o.flush
    rw [List.cons_append, run, obey, hcommand]
    cases hflush : o.flush <;> rw [hflush] at hopens
    · exact hopens
    · exact hopens.drainFor hu _

end Connection

end EdgeCaller

import Mathlib.Tactic.Common
import EdgeCaller.Client.Dial
/-!
What an act does to the journal.

An act adds events at the time that the clock shows, and leaves the clock and the console's settings
alone. `Act.Writes` says of which kind the events are that it may add, whether or not it ends early.
A line whose details have a plain form ends early only if the console fails or the clock shows no
date; `Journal.Undisturbed` rules out both.
-/

namespace EdgeCaller

def Event.isLine : Event → Bool
  | line .. => true
  | _ => false

namespace Journal

/-- `k` is `j` with some events of one kind added. -/
structure Extends (P : Event → Prop) (j k : Journal) : Prop where
  entries : ∃ new : List Event, k.entries = new.map (Entry.mk j.now) ++ j.entries ∧ ∀ e ∈ new, P e
  now : k.now = j.now
  epoch : k.epoch = j.epoch
  threshold : k.console.threshold = j.console.threshold
  fault : k.console.fault = j.console.fault

variable {P Q : Event → Prop} {i j k : Journal}

lemma Extends.refl (P : Event → Prop) (j : Journal) : Extends P j j :=
  ⟨⟨[], by simp⟩, rfl, rfl, rfl, rfl⟩

lemma Extends.trans (h : Extends P i j) (h' : Extends P j k) : Extends P i k := by
  obtain ⟨⟨new, hnew, hP⟩, hnow, hepoch, hthreshold, hfault⟩ := h
  obtain ⟨⟨new', hnew', hP'⟩, hnow', hepoch', hthreshold', hfault'⟩ := h'
  refine ⟨⟨new' ++ new, ?_, ?_⟩, hnow'.trans hnow, hepoch'.trans hepoch,
    hthreshold'.trans hthreshold, hfault'.trans hfault⟩
  · rw [hnew', hnew, hnow, List.map_append, List.append_assoc]
  · intro e he
    rcases List.mem_append.mp he with he | he
    · exact hP' e he
    · exact hP e he

lemma Extends.mono (h : Extends P j k) (hPQ : ∀ e, P e → Q e) : Extends Q j k := by
  obtain ⟨new, hnew, hP⟩ := h.entries
  exact { h with entries := ⟨new, hnew, fun e he => hPQ e (hP e he)⟩ }

lemma Extends.suffix (h : Extends P j k) : j.entries <:+ k.entries := by
  obtain ⟨new, hnew, -⟩ := h.entries
  rw [hnew]
  exact List.suffix_append _ _

lemma extends_add {e : Event} (h : P e) (j : Journal) : Extends P j (j.add e) :=
  ⟨⟨[e], rfl, by simpa using h⟩, rfl, rfl, rfl, rfl⟩

lemma extends_printed {level : Level} {text : String} (h : P (.line level text)) (j : Journal) :
    Extends P j (printed level text j) :=
  ⟨⟨[.line level text], rfl, by simpa using h⟩, rfl, rfl, rfl, rfl⟩

lemma extends_write {level : Level} (h : ∀ text, P (.line level text)) (message : String)
    (details : Option Value) (j : Journal) :
    Extends P j (write level message details j).2 := by
  unfold write
  split
  · split
    · exact Extends.refl P j
    · split
      · exact Extends.refl P j
      · exact extends_printed (h _) j
  · exact Extends.refl P j

/-- The console does not fail, and the clock has shown dates since the run began. -/
structure Undisturbed (j : Journal) : Prop where
  fault : j.console.fault = none
  epoch : Calendar.inRange j.epoch = true
  now : Calendar.inRange (j.epoch + j.now) = true

lemma Undisturbed.extends (hj : j.Undisturbed) (h : Extends P j k) : k.Undisturbed := by
  refine ⟨h.fault.trans hj.fault, ?_, ?_⟩
  · rw [h.epoch]; exact hj.epoch
  · rw [h.epoch, h.now]; exact hj.now

lemma Undisturbed.earlier {time time' : Nat} (hu : Undisturbed { j with now := time' })
    (h : time ≤ time') : Undisturbed { j with now := time } := by
  refine ⟨hu.fault, hu.epoch, ?_⟩
  have hepoch := hu.epoch
  have htime := hu.now
  simp only [Calendar.inRange, decide_eq_true_eq] at *
  omega

lemma Extends.undisturbed_iff (h : Extends P j k) : k.Undisturbed ↔ j.Undisturbed := by
  refine ⟨fun hk => ⟨?_, ?_, ?_⟩, fun hj => hj.extends h⟩
  · rw [← h.fault]; exact hk.fault
  · rw [← h.epoch]; exact hk.epoch
  · rw [← h.epoch, ← h.now]; exact hk.now

lemma stamp?_of_inRange {ms : Int} (h : Calendar.inRange ms = true) :
    ∃ s, Calendar.stamp? ms = some s := by
  simp [Calendar.stamp?, h]

/-- A line is written if what it is to show can be. -/
lemma write_ok {details : Option Value} {s : String} (hj : j.Undisturbed)
    (hs : suffix details = .ok s) (level : Level) (message : String) :
    ∃ k, write level message details j = (.ok (), k) := by
  obtain ⟨stamp, hstamp⟩ := stamp?_of_inRange hj.now
  unfold write
  split
  · rw [hs, hstamp]
    simp [print, Console.afterLine, hj.fault]
  · exact ⟨j, rfl⟩

end Journal

namespace Value

/-- A value that can be written wherever it stands. -/
def Writable (v : Value) : Prop := ∀ opened part, ∃ j?, plainAt false opened part v = .ok j?

lemma writable_text (s : String) : (text s).Writable := fun _ _ => ⟨_, by rw [plainAt]⟩

lemma writable_number (x : Number) : (number x).Writable := fun _ _ => ⟨_, by rw [plainAt]⟩

/-- A value can be shown in a line, among the details and under a name. -/
def Shown (name : String) (v : Value) : Prop :=
  ∃ j?, plainAt false [some ⟨.member "", "Object"⟩] (.member name) v = .ok j?

lemma Writable.shown {v : Value} (h : v.Writable) (name : String) : v.Shown name := h _ _

/-- A record can be written exactly if each of its members can. -/
lemma plainMembers_ok_iff {members : List (String × Value)} {opened : List (Option Opened)} :
    (∃ js, plainMembers opened members = .ok js) ↔
      ∀ m ∈ members, ∃ j?, plainAt false opened (.member m.1) m.2 = .ok j? := by
  induction members with
  | nil => simp [plainMembers]
  | cons m members ih =>
    obtain ⟨name, v⟩ := m
    rw [List.forall_mem_cons, ← ih, plainMembers]
    cases hv : plainAt false opened (.member name) v with
    | error e => simp [bind, Except.bind]
    | ok j? =>
      cases hms : plainMembers opened members with
      | error e => simp [bind, Except.bind]
      | ok js => cases j? <;> simp [bind, Except.bind]

end Value

/-- A line can show its details exactly if it can show each of them. -/
lemma Journal.suffix_record_iff {details : List (String × Value)} :
    (∃ s, Journal.suffix (some (.record details)) = .ok s) ↔ ∀ m ∈ details, m.2.Shown m.1 := by
  have hmembers : (∀ m ∈ details, m.2.Shown m.1) ↔ _ := Value.plainMembers_ok_iff.symm
  rw [hmembers]
  cases details with
  | nil => simp [Journal.suffix, Value.memberCount, Value.plainMembers]
  | cons m details =>
    simp only [Journal.suffix, Value.memberCount, List.length_cons, Nat.succ_ne_zero, if_false,
      Value.plain, Value.plainAt]
    cases Value.plainMembers [some ⟨.member "", "Object"⟩] (m :: details) with
    | error e => simp [bind, Except.bind]
    | ok js => simp [bind, Except.bind]

namespace Act

variable {α β : Type} {P : Event → Prop} {j : Journal}

/-- An act adds only events of one kind. -/
def Writes (P : Event → Prop) (act : Act α) : Prop :=
  ∀ j : Journal, j.Extends P (act.exec j).2

lemma writes_pure (a : α) : Writes P (pure a : Act α) := fun j => .refl P j

lemma writes_throw (e : Value) : Writes P (throw e : Act α) := fun j => .refl P j

lemma writes_bind {act : Act α} {f : α → Act β} (h : Writes P act) (hf : ∀ a, Writes P (f a)) :
    Writes P (act >>= f) := by
  intro j
  have hj := h j
  rw [exec_bind]
  rcases hact : act.exec j with ⟨e | a, k⟩ <;> rw [hact] at hj
  · exact hj
  · exact hj.trans (hf a k)

lemma writes_emit {e : Event} (h : P e) : Writes P (emit e) := fun j => Journal.extends_add h j

lemma writes_ofText (x : Except Unconvertible α) : Writes P (ofText x) := by
  cases x with
  | ok a => exact writes_pure a
  | error e => exact writes_throw _

lemma writes_say {level : Level} (h : ∀ text, P (.line level text)) (message : String) :
    Writes P (say level message) := fun j => Journal.extends_write h message none j

lemma writes_tell {level : Level} (h : ∀ text, P (.line level text)) (message : String)
    (details : List (String × Value)) : Writes P (tell level message details) :=
  fun j => Journal.extends_write h message _ j

/-- An act comes to its end on a journal. -/
def Succeeds (act : Act α) (j : Journal) : Prop := ∃ a k, act.exec j = (.ok a, k)

lemma succeeds_say (hj : j.Undisturbed) (level : Level) (message : String) :
    (say level message).Succeeds j := by
  have hs : Journal.suffix none = .ok "" := rfl
  obtain ⟨k, hk⟩ := Journal.write_ok hj hs level message
  exact ⟨(), k, hk⟩

/-- A line fails only for want of a way to show its details, and only if it is to be printed. -/
lemma succeeds_tell_iff {details : List (String × Value)} (hj : j.Undisturbed) (level : Level)
    (message : String) : (tell level message details).Succeeds j ↔
      (j.console.threshold.admits level = true → ∀ m ∈ details, m.2.Shown m.1) := by
  rw [← Journal.suffix_record_iff]
  constructor
  · rintro ⟨a, k, hk⟩ hadmits
    rw [tell, exec_log, Journal.write, if_pos hadmits] at hk
    cases hs : Journal.suffix (some (.record details)) with
    | error e => simp [hs] at hk
    | ok s => exact ⟨s, rfl⟩
  · intro hs
    cases hadmits : j.console.threshold.admits level with
    | false => exact ⟨(), j, Journal.write_of_not_admits hadmits _ _⟩
    | true =>
      obtain ⟨s, hs⟩ := hs hadmits
      obtain ⟨k, hk⟩ := Journal.write_ok hj hs level message
      exact ⟨(), k, hk⟩

lemma succeeds_tell {details : List (String × Value)} (hj : j.Undisturbed) (level : Level)
    (message : String) (h : ∀ m ∈ details, m.2.Writable) :
    (tell level message details).Succeeds j :=
  (succeeds_tell_iff hj level message).mpr fun _ m hm => (h m hm).shown m.1

lemma Succeeds.ne_error {act : Act α} (h : act.Succeeds j) {e : Value} {k : Journal} :
    act.exec j ≠ (.error e, k) := by
  obtain ⟨a, k', hk⟩ := h
  rw [hk]
  simp

end Act

/-- Closing adds lines at most. -/
lemma Client.writes_closeAnswered {P : Event → Prop} (h : ∀ level text, P (.line level text))
    (s : Settlement) : (Client.closeAnswered s).Writes P := by
  cases s with
  | fulfilled a => exact Act.writes_pure _
  | rejected e =>
    exact Act.writes_bind (Act.writes_ofText _) fun _ => Act.writes_tell (h _) _ _

end EdgeCaller

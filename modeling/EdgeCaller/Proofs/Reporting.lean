import Mathlib.Data.List.ReduceOption
import Mathlib.Tactic.Common
import EdgeCaller.Report
import EdgeCaller.Proofs.Writing
/-!
When there is no report.

A report is what a value is written as, or else its text. The two are found by two walks through the
value. The one that writes goes into members, items and stand-ins, and stops at an integer, at a
record that refuses, and at a record or list that it is inside of. The one that reads off the text
goes into the items of lists only, and fails at a token and at a record that no operation converts.
So a value is without a report if both walks fail, and otherwise the first that does not fail tells
what is reported.
-/

namespace EdgeCaller.Value

/-- A value in which nothing is modelled on another value: a record in it has the common operations,
or none of them. What has caused a failure does not count. -/
inductive Simple : Value → Prop
  | failure (name message : String) : Simple (failure name message)
  | openFailure (message transport : String) (cause : Value) :
      Simple (openFailure message transport cause)
  | text (s : String) : Simple (text s)
  | number (x : Number) : Simple (number x)
  | integer (n : Int) : Simple (integer n)
  | bool (b : Bool) : Simple (bool b)
  | null : Simple null
  | absent : Simple absent
  | token (description : String) : Simple (token description)
  | moment (ms? : Option Int) : Simple (moment ms?)
  | record {members : List (String × Value)} :
      (∀ m ∈ members, Simple m.2) → Simple (record members)
  | bareRecord {members : List (String × Value)} :
      (∀ m ∈ members, Simple m.2) → Simple (bareRecord members)
  | list {items : List Value} : (∀ x ∈ items, Simple x) → Simple (list items)
  | table : Simple table
  | standIn {value : Value} : Simple value → Simple (standIn value)
  | refusing : Simple refusing
  | enclosing (depth : Nat) : Simple (enclosing depth)

/-- Writing a value inside of `level` records and lists reaches what stops it. The flag says that
another value is written as this one: it is then taken as it is and not asked in turn how it is
written. -/
inductive Stops : Bool → Nat → Value → Prop
  | integer (asItIs : Bool) (level : Nat) (n : Int) : Stops asItIs level (integer n)
  | refusing (level : Nat) : Stops false level refusing
  | enclosing (asItIs : Bool) {level depth : Nat} :
      depth < level → Stops asItIs level (enclosing depth)
  | member (asItIs : Bool) {level : Nat} {members : List (String × Value)} {m : String × Value} :
      m ∈ members → Stops false (level + 1) m.2 → Stops asItIs level (record members)
  | bareMember (asItIs : Bool) {level : Nat} {members : List (String × Value)}
      {m : String × Value} :
      m ∈ members → Stops false (level + 1) m.2 → Stops asItIs level (bareRecord members)
  | item (asItIs : Bool) {level : Nat} {items : List Value} {x : Value} :
      x ∈ items → Stops false (level + 1) x → Stops asItIs level (list items)
  | standIn {level : Nat} {value : Value} :
      Stops true level value → Stops false level (standIn value)

/-- Reading off the text of a value, which may be an item of a list, reaches what has none: a token
among the items, a record without the common operations, or one with a member in the place of the
conversion. A list that is an item of itself is empty there, and hinders nothing. -/
inductive Textless : Bool → Value → Prop
  | token (description : String) : Textless true (token description)
  | replaced (inList : Bool) {members : List (String × Value)} {x : Value} :
      (Conversion.toText.name, x) ∈ members → Textless inList (record members)
  | bareRecord (inList : Bool) (members : List (String × Value)) :
      Textless inList (bareRecord members)
  | item (inList : Bool) {items : List Value} {x : Value} :
      x ∈ items → Textless true x → Textless inList (list items)

/-- What is reported of a value: the message of a failure, a text itself, of any other value what it
is written as, and its text where it is not written. -/
inductive Reports (v : Value) : Value → Prop
  | failure {name message : Value} : v.failure? = some (name, message) → Reports v message
  | text {s : String} : v = text s → Reports v v
  | written {s : String} : v.failure? = none → (∀ s, v ≠ Value.text s) →
      v.written? = .ok (some s) → Reports v (Value.text s)
  | told {s : String} : v.failure? = none → (∀ s, v ≠ Value.text s) →
      (∀ s, v.written? ≠ .ok (some s)) → v.text? = .ok s → Reports v (Value.text s)

/-- A value is neither a failure nor a text, and can be neither written nor converted. -/
structure Unreportable (v : Value) : Prop where
  not_failure : v.failure? = none
  not_text : ∀ s, v ≠ text s
  stops : Stops false 0 v
  textless : Textless false v

variable {v : Value} {items : List Value} {members : List (String × Value)} {asItIs inList : Bool}
  {level depth : Nat} {opened : List (Option Opened)} {part : Part}

/-! ### Writing -/

lemma stops_record_iff : Stops asItIs level (record members) ↔
    ∃ m ∈ members, Stops false (level + 1) m.2 := by
  refine ⟨fun h => ?_, fun ⟨m, hm, h⟩ => .member asItIs hm h⟩
  cases h with
  | member _ hm h => exact ⟨_, hm, h⟩

lemma stops_bareRecord_iff : Stops asItIs level (bareRecord members) ↔
    ∃ m ∈ members, Stops false (level + 1) m.2 := by
  refine ⟨fun h => ?_, fun ⟨m, hm, h⟩ => .bareMember asItIs hm h⟩
  cases h with
  | bareMember _ hm h => exact ⟨_, hm, h⟩

lemma stops_list_iff : Stops asItIs level (list items) ↔
    ∃ x ∈ items, Stops false (level + 1) x := by
  refine ⟨fun h => ?_, fun ⟨x, hx, h⟩ => .item asItIs hx h⟩
  cases h with
  | item _ hx h => exact ⟨_, hx, h⟩

lemma stops_enclosing_iff : Stops asItIs level (enclosing depth) ↔ depth < level := by
  refine ⟨fun h => ?_, .enclosing asItIs⟩
  cases h with
  | enclosing _ h => exact h

/-- Where a record takes nothing over from a model, each step around a value leads to a record or
list that is being written. -/
lemma circle?_map_some (opened : List Opened) (depth : Nat) :
    circle? (opened.map some) depth =
      if depth < opened.length then some (opened.take (depth + 1)) else none := by
  have hinner : ((opened.map some).take (depth + 1)).reduceOption = opened.take (depth + 1) := by
    rw [← List.map_take, List.reduceOption, List.filterMap_map]
    exact List.filterMap_some
  rw [circle?, hinner, List.length_map]
  cases opened with
  | nil => rfl
  | cons o os => rfl

/-- A list can be written exactly if each of its items can, wherever it stands. -/
lemma plainItems_ok_iff {P : Value → Prop} (n : Nat)
    (h : ∀ x ∈ items, ∀ part, (∃ j?, plainAt false opened part x = .ok j?) ↔ P x) :
    (∃ js, plainItems opened n items = .ok js) ↔ ∀ x ∈ items, P x := by
  induction items generalizing n with
  | nil => simp [plainItems]
  | cons x items ih =>
    obtain ⟨hx, hitems⟩ := List.forall_mem_cons.mp h
    rw [List.forall_mem_cons, ← hx (.index n), ← ih (n + 1) hitems, plainItems]
    cases plainAt false opened (.index n) x with
    | error e => simp [bind, Except.bind]
    | ok j? => cases plainItems opened (n + 1) items <;> simp [bind, Except.bind]

lemma exists_error_iff {ε α : Type} {x : Except ε α} :
    (∃ e, x = .error e) ↔ ¬∃ a, x = .ok a := by
  cases x <;> simp

/-- Whatever is made of a result, there is one exactly if there was one before. -/
lemma exists_map_ok_iff {ε α β : Type} {x : Except ε α} {f : α → β} :
    (∃ b, (x >>= fun a => Except.ok (f a)) = .ok b) ↔ ∃ a, x = .ok a := by
  cases x <;> simp [bind, Except.bind]

/-- **What can be written.** A value has a plain form unless writing it reaches what stops it. -/
lemma Simple.plainAt_ok_iff (h : v.Simple) (asItIs : Bool) (opened : List Opened) (part : Part) :
    (∃ j?, plainAt asItIs (opened.map some) part v = .ok j?) ↔ ¬Stops asItIs opened.length v := by
  induction h generalizing asItIs opened part with
  | integer n =>
    rw [plainAt]
    exact iff_of_false (by simp) (not_not_intro (.integer asItIs _ n))
  | refusing =>
    rw [plainAt]
    cases asItIs with
    | true => exact iff_of_true ⟨_, rfl⟩ fun h => by cases h
    | false => exact iff_of_false (by simp) (not_not_intro (.refusing _))
  | enclosing depth =>
    rw [plainAt, circle?_map_some, stops_enclosing_iff]
    split <;> simp_all
  | record _ ih =>
    rw [plainAt, exists_map_ok_iff, plainMembers_ok_iff, stops_record_iff]
    push Not
    exact forall₂_congr fun m hm => ih m hm false (⟨part, "Object"⟩ :: opened) _
  | bareRecord _ ih =>
    rw [plainAt, exists_map_ok_iff, plainMembers_ok_iff, stops_bareRecord_iff]
    push Not
    exact forall₂_congr fun m hm => ih m hm false (⟨part, "Object"⟩ :: opened) _
  | list _ ih =>
    rw [plainAt, exists_map_ok_iff, stops_list_iff]
    push Not
    exact plainItems_ok_iff 0 fun x hx => ih x hx false (⟨part, "Array"⟩ :: opened)
  | standIn _ ih =>
    rw [plainAt]
    cases asItIs with
    | true => exact iff_of_true ⟨_, rfl⟩ fun h => by cases h
    | false =>
      refine (ih true opened part).trans (not_congr ⟨.standIn, fun h => ?_⟩)
      cases h with
      | standIn h => exact h
  | _ =>
    rw [plainAt]
    exact iff_of_true ⟨_, rfl⟩ fun h => by cases h

lemma Simple.written?_ok_iff (h : v.Simple) :
    (∃ s?, v.written? = .ok s?) ↔ ¬Stops false 0 v := by
  have hplain : (∃ j?, v.plain = .ok j?) ↔ ¬Stops false 0 v :=
    h.plainAt_ok_iff false [] (.member "")
  rw [← hplain, written?]
  cases v.plain <;> simp [Except.map]

/-! ### Reading off the text -/

lemma textless_list_iff : Textless inList (list items) ↔ ∃ x ∈ items, Textless true x := by
  refine ⟨fun h => ?_, fun ⟨x, hx, h⟩ => .item inList hx h⟩
  cases h with
  | item _ hx h => exact ⟨_, hx, h⟩

lemma itemTexts?_ok_iff :
    (∃ ss, itemTexts? items = .ok ss) ↔ ∀ x ∈ items, ∃ s, textAt true x = .ok s := by
  induction items with
  | nil => simp [itemTexts?]
  | cons x items ih =>
    rw [List.forall_mem_cons, ← ih, itemTexts?]
    cases textAt true x with
    | error u => simp [bind, Except.bind]
    | ok s => cases itemTexts? items <;> simp [bind, Except.bind]

/-- **What has a text.** A value has one unless reading it off reaches what has none. -/
lemma Simple.textAt_ok_iff (h : v.Simple) (inList : Bool) :
    (∃ s, textAt inList v = .ok s) ↔ ¬Textless inList v := by
  induction h generalizing inList with
  | token description =>
    rw [textAt]
    cases inList with
    | true => exact iff_of_false (by simp) (not_not_intro (.token description))
    | false => exact iff_of_true ⟨_, rfl⟩ fun h => by cases h
  | @record members _ _ =>
    rw [textAt]
    split
    · next hmember =>
      obtain ⟨⟨name, x⟩, hx, hname⟩ := List.any_eq_true.mp hmember
      obtain rfl : name = Conversion.toText.name := by simpa using hname
      exact iff_of_false (by simp) (not_not_intro (.replaced inList hx))
    · next hmember =>
      refine iff_of_true ⟨_, rfl⟩ fun h => hmember ?_
      cases h with
      | replaced _ hx => exact List.any_eq_true.mpr ⟨_, hx, by simp⟩
  | @bareRecord members _ _ =>
    rw [textAt]
    exact iff_of_false (by simp) (not_not_intro (.bareRecord inList members))
  | list _ ih =>
    rw [textAt, exists_map_ok_iff, itemTexts?_ok_iff, textless_list_iff]
    push Not
    exact forall₂_congr fun x hx => ih x hx true
  | _ =>
    rw [textAt]
    exact iff_of_true ⟨_, rfl⟩ fun h => by cases h

/-! ### Reporting -/

lemma bind_ok_some_ne_none {ε α β : Type} (x : Except ε α) (f : α → β) :
    (x >>= fun a => Except.ok (some (f a))) ≠ .ok none := by
  cases x <;> simp [bind, Except.bind]

/-- A value that is written as nothing has a text. -/
lemma Simple.not_textless_of_written?_none (h : v.Simple) (hnone : v.written? = .ok none) :
    ¬Textless false v := by
  have hplain : plainAt false [] (.member "") v = .ok none := by
    rw [written?, plain] at hnone
    cases hv : plainAt false [] (.member "") v with
    | error e => simp [hv, Except.map] at hnone
    | ok j? => cases j? <;> simp_all [Except.map]
  cases h with
  | record _ | bareRecord _ | list _ =>
    rw [plainAt] at hplain
    exact absurd hplain (bind_ok_some_ne_none _ _)
  | _ =>
    intro h
    cases h

lemma report_of_failure? {name message : Value} (h : v.failure? = some (name, message)) :
    v.report = .ok message := by
  simp only [report, h]

lemma report_of_written? {s : String} (hfailure : v.failure? = none) (htext : ∀ s, v ≠ text s)
    (hwritten : v.written? = .ok (some s)) : v.report = .ok (text s) := by
  simp only [report, hfailure, hwritten]

lemma report_of_not_written? (hfailure : v.failure? = none) (htext : ∀ s, v ≠ text s)
    (hwritten : ∀ s, v.written? ≠ .ok (some s)) : v.report = v.text?.map text := by
  simp only [report, hfailure]
  split
  · next s hs => exact absurd hs (hwritten s)
  · rfl
  · rfl

/-- A value is a failure or a text, or it is written, or it is left to its text. -/
lemma report_cases (v : Value) :
    (∃ name message, v.failure? = some (name, message)) ∨ (∃ s, v = text s) ∨
      (v.failure? = none ∧ (∀ s, v ≠ text s) ∧
        ((∃ s, v.written? = .ok (some s)) ∨ ∀ s, v.written? ≠ .ok (some s))) := by
  cases hfailure : v.failure? with
  | some words => exact .inl ⟨_, _, rfl⟩
  | none =>
    refine .inr ((em (∃ s, v = text s)).imp_right fun htext => ⟨rfl, not_exists.mp htext, ?_⟩)
    exact (em (∃ s, v.written? = .ok (some s))).imp_right not_exists.mp

lemma report_eq_ok_iff {words : Value} : v.report = .ok words ↔ v.Reports words := by
  constructor
  · intro h
    obtain ⟨name, message, hfailure⟩ | ⟨s, rfl⟩ |
      ⟨hfailure, htext, ⟨s, hwritten⟩ | hwritten⟩ := v.report_cases
    · rw [report_of_failure? hfailure] at h
      obtain rfl := Except.ok.inj h
      exact .failure hfailure
    · obtain rfl := Except.ok.inj h
      exact .text rfl
    · rw [report_of_written? hfailure htext hwritten] at h
      obtain rfl := Except.ok.inj h
      exact .written hfailure htext hwritten
    · rw [report_of_not_written? hfailure htext hwritten] at h
      cases hs : v.text? with
      | error u => simp [hs, Except.map] at h
      | ok s =>
        rw [hs] at h
        obtain rfl := Except.ok.inj h
        exact .told hfailure htext hwritten hs
  · intro h
    cases h with
    | failure hfailure => exact report_of_failure? hfailure
    | text htext => rw [htext]; rfl
    | written hfailure htext hwritten => exact report_of_written? hfailure htext hwritten
    | told hfailure htext hwritten hs =>
      rw [report_of_not_written? hfailure htext hwritten, hs]
      rfl

/-- A simple failure has a text for its message. -/
lemma Simple.failure?_eq (h : v.Simple) {name message : Value}
    (hfailure : v.failure? = some (name, message)) : ∃ s, message = Value.text s := by
  cases h with
  | failure name message | openFailure message _ _ =>
    obtain ⟨-, rfl⟩ := Prod.mk.inj (Option.some.inj hfailure)
    exact ⟨_, rfl⟩
  | _ => cases hfailure

lemma Unreportable.report_fails (hsimple : v.Simple) (h : v.Unreportable) :
    ∃ u, v.report = .error u := by
  have hwritten : ∀ s, v.written? ≠ .ok (some s) := fun s hs =>
    hsimple.written?_ok_iff.mp ⟨_, hs⟩ h.stops
  rw [report_of_not_written? h.not_failure h.not_text hwritten]
  cases hs : v.text? with
  | error u => exact ⟨u, rfl⟩
  | ok s => exact absurd h.textless ((hsimple.textAt_ok_iff false).mp ⟨s, hs⟩)

lemma Simple.exists_report (h : v.Simple) (hreportable : ¬v.Unreportable) :
    ∃ s, v.report = .ok (Value.text s) := by
  obtain ⟨name, message, hfailure⟩ | ⟨s, rfl⟩ |
    ⟨hfailure, htext, ⟨s, hwritten⟩ | hwritten⟩ := v.report_cases
  · obtain ⟨s, rfl⟩ := h.failure?_eq hfailure
    exact ⟨s, report_of_failure? hfailure⟩
  · exact ⟨s, rfl⟩
  · exact ⟨s, report_of_written? hfailure htext hwritten⟩
  · -- What is written as nothing has a text, so only what stops the writing can be without one.
    have htextless : ¬Textless false v := by
      by_cases hstops : Stops false 0 v
      · exact fun htextless => hreportable ⟨hfailure, htext, hstops, htextless⟩
      · obtain ⟨s?, hs⟩ := h.written?_ok_iff.mpr hstops
        cases s? with
        | none => exact h.not_textless_of_written?_none hs
        | some s => exact absurd hs (hwritten s)
    obtain ⟨s, hs⟩ := (h.textAt_ok_iff false).mpr htextless
    exact ⟨s, by rw [report_of_not_written? hfailure htext hwritten, text?, hs]; rfl⟩

/-- **When there is no report.** Of a value in which no record is modelled on another there is a
report, and it is a text, unless the value is neither a failure nor a text, writing it is stopped
and it has no text; in that case there is none. It can be written exactly if nothing that is reached
stops that, and it has a text exactly if nothing that is reached has none. The report is the message
of a failure, a text itself, what any other value is written as, and the text of what is not
written. -/
theorem fails_to_report_iff (h : v.Simple) :
    ((∃ s, v.report = .ok (text s)) ↔ ¬v.Unreportable) ∧
    ((∃ u, v.report = .error u) ↔ v.Unreportable) ∧
    ((∃ e, v.written? = .error e) ↔ Stops false 0 v) ∧
    ((∃ u, v.text? = .error u) ↔ Textless false v) ∧
    ∀ words, v.report = .ok words ↔ v.Reports words := by
  refine ⟨⟨fun ⟨s, hs⟩ hun => ?_, h.exists_report⟩, ⟨fun ⟨u, hu⟩ => ?_, (·.report_fails h)⟩,
    ?_, ?_, fun words => report_eq_ok_iff⟩
  · obtain ⟨u, hu⟩ := hun.report_fails h
    cases hs.symm.trans hu
  · by_contra hreportable
    obtain ⟨s, hs⟩ := h.exists_report hreportable
    cases hs.symm.trans hu
  · rw [exists_error_iff, h.written?_ok_iff, not_not]
  · rw [exists_error_iff, text?, h.textAt_ok_iff, not_not]

/-- A list that cannot be written: an item of its second item stands in for a list of it. -/
def knot (item : Value) : Value := list [item, list [standIn (list [enclosing 2])]]

lemma simple_knot {item : Value} (h : item.Simple) : (knot item).Simple :=
  .list (List.forall_mem_cons.mpr ⟨h, List.forall_mem_singleton.mpr
    (.list (List.forall_mem_singleton.mpr
      (.standIn (.list (List.forall_mem_singleton.mpr (.enclosing 2))))))⟩)

lemma stops_knot (item : Value) : Stops false 0 (knot item) :=
  .item _ (List.mem_cons_of_mem _ List.mem_cons_self)
    (.item _ List.mem_cons_self (.standIn (.item _ List.mem_cons_self (.enclosing _ (by decide)))))

/-- Of such a list the text is reported, and nothing if its first item has none. -/
theorem fails_to_report_iff_knot :
    (knot null).report = .ok (text ",[object Object]") ∧
    ∃ u, (knot (record [("toString", bool true)])).report = .error u := by
  have hnull : (knot null).Simple := simple_knot .null
  have hrecord : (knot (record [("toString", bool true)])).Simple :=
    simple_knot (.record (List.forall_mem_singleton.mpr (.bool true)))
  constructor
  · obtain ⟨e, he⟩ := (fails_to_report_iff hnull).2.2.1.mpr (stops_knot null)
    refine ((fails_to_report_iff hnull).2.2.2.2 _).mpr (.told rfl (fun _ h => by cases h)
      (fun s hs => ?_) rfl)
    cases he.symm.trans hs
  · refine (fails_to_report_iff hrecord).2.1.mpr ⟨rfl, fun _ h => (by cases h), stops_knot _, ?_⟩
    exact .item _ List.mem_cons_self (.replaced _ List.mem_cons_self)

end EdgeCaller.Value

import Mathlib.Data.List.Forall2
import EdgeCaller.Proofs.LetterCase
import EdgeCaller.Proofs.Writing
/-!
Which lines are printed.

A setting asks for the lowest level that is printed; a text that names no level is to leave the
standard one. So a call of the logger prints its line if its level is at least that one, and what a
series of calls prints are the lines of such calls, one for each and in their order. The exception
are the two names that stand in every record of names: they ask for no level, and under them every
line is printed.
-/

namespace EdgeCaller

/-- What an event shows on the console: on which of its functions, and what. -/
def Event.output? : Event → Option (String × String)
  | .line level text => some (level.sink, text)
  | _ => none

/-- A call of the logger. -/
structure Call where
  time : Nat
  level : Level
  message : String
  details : Option Value

namespace Call

/-- The details of a call have a text, and the clock shows a date. -/
structure Printable (epoch : Int) (c : Call) : Prop where
  shown : ∃ s, Journal.suffix c.details = .ok s
  dated : Calendar.inRange (epoch + c.time) = true

/-- An entry is the line of a call, printed when the call was made and where its level prints. -/
def Prints (epoch : Int) (c : Call) (x : Entry) : Prop :=
  x.time = c.time ∧ ∃ stamp s, Calendar.stamp? (epoch + c.time) = some stamp ∧
    Journal.suffix c.details = .ok s ∧
    x.event.output? = some (c.level.sink, Journal.lineText stamp c.level c.message s)

end Call

namespace Journal

/-- Makes a call. -/
def call (j : Journal) (c : Call) : Except Value Unit × Journal :=
  write c.level c.message c.details { j with now := c.time }

/-- Makes calls one after another, whatever becomes of each: what they gave, and the journal after
them. -/
def callAll (j : Journal) : List Call → List (Except Value Unit) × Journal
  | [] => ([], j)
  | c :: calls =>
    let (result, k) := j.call c
    let (results, last) := k.callAll calls
    (result :: results, last)

end Journal

namespace Threshold

/-- Of any calls, those from a level on print their lines, and every call returns. -/
def PrintsFrom (lowest : Level) (t : Threshold) : Prop :=
  ∀ (j : Journal) (calls : List Call), j.console.threshold = t → j.console.fault = none →
    (∀ c ∈ calls, c.Printable j.epoch) →
    (∀ result ∈ (j.callAll calls).1, result = .ok ()) ∧
    ∃ lines, (j.callAll calls).2.events = j.events ++ lines ∧
      List.Forall₂ (Call.Prints j.epoch) (calls.filter (lowest.rank ≤ ·.level.rank)) lines

/-- The name that a text comes to, blanks at its ends and letter case aside. -/
def nameIn (s : String) : String := String.ofList (Text.lower (Text.trim s.toList))

/-- The lowest level that is asked for: the one that the text names, or else the standard one. -/
def floor (requested mode : Option String) : Level :=
  (requested.bind fun s => Level.ofName? (nameIn s)).getD
    (if mode = some "test" then .error else .info)

/-- The text names no level, but stands in every record of names. -/
def IsStray (requested : Option String) : Prop := ∃ s ∈ requested, nameIn s ∈ builtinNames

variable {requested mode : Option String} {t : Threshold} {lowest : Level}

/-! ### Names -/

/-- A text comes to a name of ASCII letters exactly if its whole lower case is that name. -/
lemma nameIn_eq_iff {name : String} (hname : Text.isAscii name.toList = true)
    (endsWord : List Char → List Char → Bool) (s : String) :
    nameIn s = name ↔ String.ofList (Text.lowerCase endsWord (Text.trim s.toList)) = name := by
  rw [nameIn, ← String.toList_inj, ← String.toList_inj, String.toList_ofList,
    String.toList_ofList, Text.lowerCase_eq_iff hname]

/-- What a text stands for depends on nothing but which of the names it is. -/
lemma ofName?_congr {s s' : String} (hbuiltin : ∀ name ∈ builtinNames, s = name ↔ s' = name)
    (hlevel : ∀ level : Level, s = level.name ↔ s' = level.name) : ofName? s = ofName? s' := by
  have hmem : s ∈ builtinNames ↔ s' ∈ builtinNames :=
    ⟨fun h => (hbuiltin s h).mp rfl ▸ h, fun h => (hbuiltin s' h).mpr rfl ▸ h⟩
  have hfind : Level.ofName? s = Level.ofName? s' :=
    congrArg Level.all.find? (funext fun level => decide_eq_decide.mpr
      (eq_comm.trans ((hlevel level).trans eq_comm)))
  rw [ofName?, ofName?, hfind]
  simp only [List.contains_iff_mem, hmem]

/-- Comparing whole lower cases finds the same threshold. -/
lemma ofSettings_eq (endsWord : List Char → List Char → Bool) (requested mode : Option String) :
    ofSettings requested mode = (requested.bind fun s =>
      ofName? (String.ofList (Text.lowerCase endsWord (Text.trim s.toList)))).getD
        (standard mode) := by
  cases requested with
  | none => rw [ofSettings, Option.bind_none, Option.bind_none]
  | some s =>
    have hbuiltin : ∀ name ∈ builtinNames, Text.isAscii name.toList = true := by
      intro name hname
      rw [builtinNames, List.mem_pair] at hname
      rcases hname with rfl | rfl <;> decide
    have hlevel : ∀ level : Level, Text.isAscii level.name.toList = true := by
      intro level
      cases level <;> decide
    rw [ofSettings, Option.bind_some, Option.bind_some, ← nameIn,
      ofName?_congr (fun name hname => nameIn_eq_iff (hbuiltin name hname) endsWord s)
        fun level => nameIn_eq_iff (hlevel level) endsWord s]

/-! ### The threshold of a setting -/

/-- No name of a level stands in every record of names. -/
lemma ofName?_of_mem_builtinNames {s : String} (h : s ∈ builtinNames) : Level.ofName? s = none := by
  rw [builtinNames, List.mem_pair] at h
  rcases h with rfl | rfl <;> decide

lemma IsStray.floor_eq (h : IsStray requested) :
    floor requested mode = if mode = some "test" then .error else .info := by
  obtain ⟨s, hs, hmem⟩ := h
  rw [floor, Option.mem_def.mp hs, Option.bind_some, ofName?_of_mem_builtinNames hmem,
    Option.getD_none]

lemma IsStray.ofSettings_eq (h : IsStray requested) : ofSettings requested mode = everything := by
  obtain ⟨s, hs, hmem⟩ := h
  rw [ofSettings, Option.mem_def.mp hs, Option.bind_some, ← nameIn, ofName?,
    if_pos (List.contains_iff_mem.mpr hmem), Option.getD_some]

lemma ofSettings_of_not_isStray (h : ¬IsStray requested) :
    ofSettings requested mode = .from (floor requested mode) := by
  cases requested with
  | none => rfl
  | some s =>
    have hmem : ¬builtinNames.contains (nameIn s) = true := fun hmem =>
      h ⟨s, rfl, List.contains_iff_mem.mp hmem⟩
    rw [ofSettings, floor, Option.bind_some, Option.bind_some, ← nameIn, ofName?, if_neg hmem]
    cases Level.ofName? (nameIn s) <;> rfl

end Threshold

namespace Journal

variable {j : Journal} {c : Call}

/-- A call changes neither the settings of the console nor the beginning of the run. -/
lemma call_frame (j : Journal) (c : Call) :
    (j.call c).2.console.threshold = j.console.threshold ∧
    (j.call c).2.console.fault = j.console.fault ∧ (j.call c).2.epoch = j.epoch := by
  have h : Extends (fun _ => True) { j with now := c.time } (j.call c).2 :=
    extends_write (fun _ => trivial) c.message c.details _
  exact ⟨h.threshold, h.fault, h.epoch⟩

/-- A call below the threshold returns and leaves the events as they are. -/
lemma call_of_not_admits (h : j.console.threshold.admits c.level = false) :
    (j.call c).1 = .ok () ∧ (j.call c).2.events = j.events := by
  have hcall : j.call c = (.ok (), { j with now := c.time }) :=
    write_of_not_admits (j := { j with now := c.time }) h _ _
  rw [hcall]
  exact ⟨rfl, rfl⟩

/-- A call that can be printed returns and adds its line. -/
lemma call_of_admits (h : j.console.threshold.admits c.level = true)
    (hfault : j.console.fault = none) (hc : c.Printable j.epoch) :
    (j.call c).1 = .ok () ∧ ∃ x, (j.call c).2.events = j.events ++ [x] ∧ c.Prints j.epoch x := by
  obtain ⟨s, hs⟩ := hc.shown
  obtain ⟨stamp, hstamp⟩ := stamp?_of_inRange hc.dated
  have hcall : j.call c = print c.level (lineText stamp c.level c.message s)
      { j with now := c.time } := by
    simp only [call, write, h, if_pos, hs, hstamp]
  rw [hcall]
  refine ⟨by simp only [print, Console.afterLine, hfault],
    ⟨c.time, .line c.level (lineText stamp c.level c.message s)⟩, ?_,
    rfl, stamp, s, hstamp, hs, rfl⟩
  simp only [events, entries_print, List.reverse_cons]

end Journal

namespace Threshold

variable {requested mode : Option String} {t : Threshold} {lowest : Level}

/-- Calls print from a level on if the threshold admits the lines from that level on: of each call
it is known what it prints, and the calls after it find the console as it was. -/
lemma printsFrom_of_admits (h : ∀ level, t.admits level = decide (lowest.rank ≤ level.rank)) :
    t.PrintsFrom lowest := by
  intro j calls ht hfault hcalls
  induction calls generalizing j with
  | nil => exact ⟨by simp [Journal.callAll], [], by simp [Journal.callAll], .nil⟩
  | cons c calls ih =>
    obtain ⟨hthreshold', hfault', hepoch'⟩ := Journal.call_frame j c
    obtain ⟨hc, hrest⟩ := List.forall_mem_cons.mp hcalls
    obtain ⟨hresults, lines, hevents, hlines⟩ := ih (j.call c).2 (hthreshold'.trans ht)
      (hfault'.trans hfault) (hepoch' ▸ hrest)
    rw [hepoch'] at hlines
    cases hadmits : t.admits c.level with
    | false =>
      obtain ⟨hok, hsame⟩ := Journal.call_of_not_admits (ht ▸ hadmits)
      refine ⟨List.forall_mem_cons.mpr ⟨hok, hresults⟩, lines, ?_, ?_⟩
      · exact hevents.trans (congrArg (· ++ lines) hsame)
      · rwa [List.filter_cons, ← h, hadmits, if_neg Bool.false_ne_true]
    | true =>
      obtain ⟨hok, x, hadded, hx⟩ := Journal.call_of_admits (ht ▸ hadmits) hfault hc
      refine ⟨List.forall_mem_cons.mpr ⟨hok, hresults⟩, x :: lines, ?_, ?_⟩
      · refine hevents.trans ?_
        rw [hadded, List.append_assoc, List.singleton_append]
      · rw [List.filter_cons, ← h, hadmits, if_pos rfl]
        exact .cons hx hlines

lemma printsFrom_from (lowest : Level) : (Threshold.from lowest).PrintsFrom lowest :=
  printsFrom_of_admits fun _ => rfl

lemma printsFrom_everything : everything.PrintsFrom .debug :=
  printsFrom_of_admits fun level => by cases level <;> rfl

/-- Where everything is printed, calls print from no other level on than the lowest. -/
lemma PrintsFrom.eq_debug (h : everything.PrintsFrom lowest) : lowest = .debug := by
  by_contra hne
  have hc : (Call.mk 0 .debug "" none).Printable 0 := ⟨⟨"", rfl⟩, by decide⟩
  obtain ⟨-, lines, hevents, hlines⟩ := h (.start { threshold := everything } 0)
    [⟨0, .debug, "", none⟩] rfl rfl (List.forall_mem_singleton.mpr hc)
  have hbelow : decide (lowest.rank ≤ Level.debug.rank) = false := by
    cases lowest <;> first | rfl | contradiction
  rw [List.filter_cons, hbelow, if_neg Bool.false_ne_true, List.filter_nil,
    List.forall₂_nil_left_iff] at hlines
  obtain ⟨-, x, hadded, -⟩ := Journal.call_of_admits
    (j := .start { threshold := everything } 0) rfl rfl hc
  rw [hlines] at hevents
  exact absurd (hadded.symm.trans hevents) (by simp [Journal.start, Journal.events])

/-- **A setting prints the lines from its level on, unless it is a stray name.** Under every level
setting and in every kind of run, any calls print the lines of those among them whose level is at
least the one that is asked for, one line each, in their order and on the function of their own
level; just under the two names that stand in every record of names they do not, but all of them
print. A text that names no level asks for the standard one, as no text does, and has the effect of
no text exactly if it is none of the two names. -/
theorem prints_from_floor_iff (requested mode : Option String) :
    ((ofSettings requested mode).PrintsFrom (floor requested mode) ↔ ¬IsStray requested) ∧
    (IsStray requested → (ofSettings requested mode).PrintsFrom .debug) ∧
    ((∀ s ∈ requested, Level.ofName? (nameIn s) = none) →
      floor requested mode = floor none mode ∧
      (ofSettings requested mode = ofSettings none mode ↔ ¬IsStray requested)) := by
  refine ⟨⟨fun hprints hstray => ?_, fun h => ?_⟩, fun hstray => ?_, fun hnone => ?_⟩
  · rw [hstray.ofSettings_eq] at hprints
    have hdebug := hprints.eq_debug
    rw [hstray.floor_eq] at hdebug
    split at hdebug <;> contradiction
  · rw [ofSettings_of_not_isStray h]
    exact printsFrom_from _
  · rw [hstray.ofSettings_eq]
    exact printsFrom_everything
  · have hfloor : floor requested mode = floor none mode := by
      cases requested with
      | none => rfl
      | some s => rw [floor, Option.bind_some, hnone s rfl]; rfl
    refine ⟨hfloor, fun hsame hstray => ?_, fun h => ?_⟩
    · rw [hstray.ofSettings_eq] at hsame
      cases hsame
    · rw [ofSettings_of_not_isStray h, hfloor]
      rfl

/-- A level is found whatever its case and the blanks around it, an unknown word has no effect, and
the name of a constructor prints everything. -/
theorem prints_from_floor_iff_words :
    (ofSettings (some " Warn\n") none).PrintsFrom .warn ∧
    ofSettings (some "verbose") (some "test") = ofSettings none (some "test") ∧
    ¬(ofSettings (some "Constructor") none).PrintsFrom .info ∧
    (ofSettings (some "Constructor") none).PrintsFrom .debug := by
  have hwarn : ¬IsStray (some " Warn\n") := by
    rintro ⟨s, ⟨⟩, hmem⟩
    exact absurd hmem (by decide +kernel)
  have hverbose : ¬IsStray (some "verbose") := by
    rintro ⟨s, ⟨⟩, hmem⟩
    exact absurd hmem (by decide +kernel)
  have hunknown : ∀ s ∈ some "verbose", Level.ofName? (nameIn s) = none := by
    rintro s ⟨⟩
    decide +kernel
  have hstray : IsStray (some "Constructor") := ⟨_, rfl, by decide +kernel⟩
  refine ⟨(prints_from_floor_iff _ none).1.mpr hwarn,
    ((prints_from_floor_iff _ _).2.2 hunknown).2.mpr hverbose, fun h => ?_,
    (prints_from_floor_iff _ none).2.1 hstray⟩
  exact (prints_from_floor_iff (some "Constructor") none).1.mp h hstray

end Threshold

end EdgeCaller

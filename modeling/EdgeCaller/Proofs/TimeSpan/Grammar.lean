import Mathlib.Data.List.TakeWhile
import Mathlib.Tactic.Common
import EdgeCaller.TimeSpan
/-!
Reading time spans.

The reader takes rows of digits off the start of a text and looks at the one sign after each. It
gives a time span exactly if the text is in the grammar, and then the one that the text denotes: no
text can be cut into rows in two ways.
-/

namespace EdgeCaller

namespace TimeSpan

/-! ### Rows of digits -/

/-- A text that does not go on with a digit. -/
def Stops (rest : List Char) : Prop := ∀ c ∈ rest.head?, isDigit c = false

lemma stops_nil : Stops [] := by simp [Stops]

lemma stops_cons {c : Char} (h : isDigit c = false) (r : List Char) : Stops (c :: r) := by
  simpa [Stops] using h

lemma isDigit_colon : isDigit ':' = false := by decide

lemma isDigit_dot : isDigit '.' = false := by decide

variable {cs ds rest : List Char}

/-- Where a row ends, the reader stops. -/
lemma split_append (hds : ∀ c ∈ ds, isDigit c = true) (hrest : Stops rest) :
    (ds ++ rest).takeWhile isDigit = ds ∧ (ds ++ rest).dropWhile isDigit = rest := by
  rw [List.takeWhile_append_of_pos hds, List.dropWhile_append_of_pos hds]
  cases rest with
  | nil => simp
  | cons c r =>
    have hc : isDigit c = false := by simpa [Stops] using hrest
    simp [hc]

/-- Every text is a row of digits and what follows it. -/
lemma exists_split (cs : List Char) : ∃ ds rest, cs = ds ++ rest ∧ (∀ c ∈ ds, isDigit c = true) ∧
    Stops rest ∧ cs.takeWhile isDigit = ds ∧ cs.dropWhile isDigit = rest := by
  refine ⟨_, _, List.takeWhile_append_dropWhile.symm, fun c hc => List.mem_takeWhile_imp hc, ?_,
    rfl, rfl⟩
  intro c hc
  have hfirst := List.head?_dropWhile_not isDigit cs
  rw [Option.mem_def.mp hc] at hfirst
  simpa using hfirst

lemma field?_eq_some_iff {top n : Nat} (hds : ∀ c ∈ ds, isDigit c = true) :
    field? top ds = some n ↔ IsField 1 2 ds ∧ natOfDigits ds ≤ top ∧ natOfDigits ds = n := by
  have hlength : ds.length = 1 ∨ ds.length = 2 ↔ IsField 1 2 ds := by
    constructor
    · rintro (h | h)
      · exact ⟨by omega, by omega, hds⟩
      · exact ⟨by omega, by omega, hds⟩
    · rintro ⟨hlow, hhigh, -⟩
      omega
  by_cases hfield : IsField 1 2 ds
  · rw [field?, if_pos (hlength.mpr hfield)]
    by_cases htop : natOfDigits ds ≤ top
    · simp [hfield, htop]
    · simp [htop]
  · rw [field?, if_neg (mt hlength.mp hfield)]
    simp [hfield]

lemma fraction?_eq_some_iff {f : List Char} : fraction? cs = some f ↔ IsField 1 7 f ∧ cs = f := by
  rw [fraction?]
  constructor
  · intro h
    split at h
    · next hfield =>
      obtain rfl := Option.some.inj h
      exact ⟨⟨hfield.1, hfield.2.1, by simpa using hfield.2.2⟩, rfl⟩
    · simp at h
  · rintro ⟨⟨hlow, hhigh, hall⟩, rfl⟩
    exact if_pos ⟨hlow, hhigh, by simpa using hall⟩

/-! ### Clocks -/

/-- Seconds with a fraction or without one. -/
inductive SecondsDenote : List Char → Nat → List Char → Prop where
  | whole {s : List Char} : IsField 1 2 s → natOfDigits s ≤ 59 →
      SecondsDenote s (natOfDigits s) []
  | fraction {s f : List Char} : IsField 1 2 s → natOfDigits s ≤ 59 → IsField 1 7 f →
      SecondsDenote (s ++ '.' :: f) (natOfDigits s) f

lemma seconds?_eq_some_iff {s : Nat} {f : List Char} :
    seconds? cs = some (s, f) ↔ SecondsDenote cs s f := by
  constructor
  · intro h
    obtain ⟨ds, rest, rfl, hds, hrest, htake, hdrop⟩ := exists_split cs
    rw [seconds?, htake, hdrop] at h
    obtain ⟨n, hn, h⟩ := Option.bind_eq_some_iff.mp h
    obtain ⟨hfield, htop, rfl⟩ := (field?_eq_some_iff hds).mp hn
    split at h
    · obtain ⟨rfl, rfl⟩ := by simpa using h
      rw [List.append_nil]
      exact .whole hfield htop
    · obtain ⟨f', hf, h⟩ := Option.bind_eq_some_iff.mp h
      obtain ⟨rfl, rfl⟩ := by simpa using h
      obtain ⟨hfraction, rfl⟩ := fraction?_eq_some_iff.mp hf
      exact .fraction hfield htop hfraction
    · simp at h
  · intro h
    cases h with
    | @whole s hfield htop =>
      obtain ⟨htake, hdrop⟩ := split_append hfield.2.2 stops_nil
      rw [List.append_nil] at htake hdrop
      rw [seconds?, htake, hdrop, (field?_eq_some_iff hfield.2.2).mpr ⟨hfield, htop, rfl⟩]
      rfl
    | @fraction s f hfield htop hfraction =>
      obtain ⟨htake, hdrop⟩ := split_append hfield.2.2 (stops_cons isDigit_dot f)
      rw [seconds?, htake, hdrop, (field?_eq_some_iff hfield.2.2).mpr ⟨hfield, htop, rfl⟩]
      simp [fraction?_eq_some_iff.mpr ⟨hfraction, rfl⟩]

/-- The part of a clock after the hours, without its first colon. -/
lemma tailDenotes_iff {m s : Nat} {f : List Char} :
    TailDenotes (':' :: cs) m s f ↔ ∃ ds, IsField 1 2 ds ∧ natOfDigits ds ≤ 59 ∧
      natOfDigits ds = m ∧ ((cs = ds ∧ s = 0 ∧ f = []) ∨
        ∃ r, cs = ds ++ ':' :: r ∧ SecondsDenote r s f) := by
  constructor
  · intro h
    generalize htext : ':' :: cs = text at h
    cases h with
    | minutes hm htop =>
      obtain ⟨-, rfl⟩ := List.cons.inj htext
      exact ⟨_, hm, htop, rfl, .inl ⟨rfl, rfl, rfl⟩⟩
    | seconds hm htop hs hstop =>
      obtain ⟨-, rfl⟩ := List.cons.inj htext
      exact ⟨_, hm, htop, rfl, .inr ⟨_, rfl, .whole hs hstop⟩⟩
    | fraction hm htop hs hstop hf =>
      obtain ⟨-, rfl⟩ := List.cons.inj htext
      exact ⟨_, hm, htop, rfl, .inr ⟨_, by simp, .fraction hs hstop hf⟩⟩
  · rintro ⟨ds, hm, htop, rfl, ⟨rfl, rfl, rfl⟩ | ⟨r, rfl, hseconds⟩⟩
    · exact .minutes hm htop
    · cases hseconds with
      | whole hs hstop => exact .seconds hm htop hs hstop
      | fraction hs hstop hf => simpa using TailDenotes.fraction hm htop hs hstop hf

lemma minutes?_eq_some_iff {m s : Nat} {f : List Char} :
    minutes? cs = some (m, s, f) ↔ TailDenotes (':' :: cs) m s f := by
  rw [tailDenotes_iff]
  constructor
  · intro h
    obtain ⟨ds, rest, rfl, hds, hrest, htake, hdrop⟩ := exists_split cs
    rw [minutes?, htake, hdrop] at h
    obtain ⟨n, hn, h⟩ := Option.bind_eq_some_iff.mp h
    obtain ⟨hfield, htop, rfl⟩ := (field?_eq_some_iff hds).mp hn
    refine ⟨ds, hfield, htop, ?_⟩
    split at h
    · obtain ⟨rfl, rfl, rfl⟩ := by simpa using h
      exact ⟨rfl, .inl ⟨List.append_nil ds, rfl, rfl⟩⟩
    · next r _ =>
      obtain ⟨⟨s', f'⟩, hs, h⟩ := Option.bind_eq_some_iff.mp h
      obtain ⟨rfl, rfl, rfl⟩ := by simpa using h
      exact ⟨rfl, .inr ⟨r, rfl, seconds?_eq_some_iff.mp hs⟩⟩
    · simp at h
  · rintro ⟨ds, hfield, htop, rfl, ⟨rfl, rfl, rfl⟩ | ⟨r, rfl, hseconds⟩⟩
    · obtain ⟨htake, hdrop⟩ := split_append hfield.2.2 stops_nil
      rw [List.append_nil] at htake hdrop
      rw [minutes?, htake, hdrop, (field?_eq_some_iff hfield.2.2).mpr ⟨hfield, htop, rfl⟩]
      rfl
    · obtain ⟨htake, hdrop⟩ := split_append hfield.2.2 (stops_cons isDigit_colon r)
      rw [minutes?, htake, hdrop, (field?_eq_some_iff hfield.2.2).mpr ⟨hfield, htop, rfl⟩]
      simp [seconds?_eq_some_iff.mpr hseconds]

lemma TailDenotes.exists_cons {t f : List Char} {m s : Nat} (h : TailDenotes t m s f) :
    ∃ r, t = ':' :: r := by
  cases h <;> exact ⟨_, rfl⟩

/-- A clock is a row of hours, and a tail. -/
lemma clock?_eq_some_iff {days : Nat} {hours : List Char} {span : TimeSpan}
    (hhours : ∀ c ∈ hours, isDigit c = true) : clock? days hours rest = some span ↔
      IsField 1 2 hours ∧ natOfDigits hours ≤ 23 ∧
        ∃ m s f, TailDenotes rest m s f ∧ span = .clock days (natOfDigits hours) m s f := by
  constructor
  · intro h
    obtain ⟨n, hn, h⟩ := Option.bind_eq_some_iff.mp h
    obtain ⟨hfield, htop, rfl⟩ := (field?_eq_some_iff hhours).mp hn
    refine ⟨hfield, htop, ?_⟩
    split at h
    · obtain ⟨⟨m, s, f⟩, hm, h⟩ := Option.bind_eq_some_iff.mp h
      exact ⟨m, s, f, minutes?_eq_some_iff.mp hm, by simpa using h.symm⟩
    · simp at h
  · rintro ⟨hfield, htop, m, s, f, htail, rfl⟩
    obtain ⟨r, rfl⟩ := htail.exists_cons
    rw [clock?, (field?_eq_some_iff hhours).mpr ⟨hfield, htop, rfl⟩]
    simp [minutes?_eq_some_iff.mpr htail]

/-! ### Texts -/

/-- A text is read exactly if it is in the grammar, and as what it denotes. -/
theorem ofChars?_eq_some_iff {span : TimeSpan} : ofChars? cs = some span ↔ Denotes cs span := by
  constructor
  · intro h
    obtain ⟨ds, rest, rfl, hds, hrest, htake, hdrop⟩ := exists_split cs
    simp only [ofChars?, htake, hdrop] at h
    split at h
    · split at h
      · simp at h
      · next hne =>
        obtain rfl := Option.some.inj h
        rw [List.append_nil]
        exact .wholeDays (by simpa using hne) hds
    · next r =>
      split at h
      · simp at h
      · next hne =>
        obtain ⟨hours, rest, rfl, hhours, -, htake, hdrop⟩ := exists_split r
        rw [htake, hdrop] at h
        obtain ⟨hfield, htop, m, s, f, htail, rfl⟩ := (clock?_eq_some_iff hhours).mp h
        simpa using Denotes.daysAndClock (by simpa using hne) hds hfield htop htail
    · obtain ⟨hfield, htop, m, s, f, htail, rfl⟩ := (clock?_eq_some_iff hds).mp h
      exact .clock hfield htop htail
  · intro h
    cases h with
    | wholeDays hne hds =>
      obtain ⟨htake, hdrop⟩ := split_append hds stops_nil
      rw [List.append_nil] at htake hdrop
      simp [ofChars?, htake, hdrop, hne]
    | @clock hours t f m s hfield htop htail =>
      obtain ⟨r, rfl⟩ := htail.exists_cons
      obtain ⟨htake, hdrop⟩ := split_append hfield.2.2 (stops_cons isDigit_colon r)
      simp only [ofChars?, htake, hdrop]
      exact (clock?_eq_some_iff hfield.2.2).mpr ⟨hfield, htop, m, s, f, htail, rfl⟩
    | @daysAndClock d hours t f m s hne hds hfield htop htail =>
      obtain ⟨r, rfl⟩ := htail.exists_cons
      obtain ⟨htake, hdrop⟩ := split_append hds (stops_cons isDigit_dot (hours ++ ':' :: r))
      obtain ⟨htake', hdrop'⟩ := split_append hfield.2.2 (stops_cons isDigit_colon r)
      have hempty : d.isEmpty = false := by simpa using hne
      simp only [ofChars?, List.append_assoc, List.cons_append, htake, hdrop, htake', hdrop',
        hempty]
      exact (clock?_eq_some_iff hfield.2.2).mpr ⟨hfield, htop, m, s, f, htail, rfl⟩

end TimeSpan

end EdgeCaller

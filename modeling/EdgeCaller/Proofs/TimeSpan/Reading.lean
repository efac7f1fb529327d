import Mathlib.Algebra.Order.Floor.Semifield
import EdgeCaller.Proofs.Blanks
import EdgeCaller.Proofs.TimeSpan.Duration
/-!
What a text is read as.

A text is a time span exactly if it is in the grammar, blanks around it aside. What it is read as is
its exact length, as long as 53 bits hold that. Zeros at the start of a row of digits count for
nothing, unless the row is a fraction.
-/

namespace EdgeCaller

namespace TimeSpan

variable {cs cs' core core' ds : List Char} {span : TimeSpan} {s s' : String}

/-! ### Blanks -/

/-- The characters that a time span is written with. -/
def IsSign (c : Char) : Prop := isDigit c = true ∨ c = '.' ∨ c = ':'

lemma isBlank_of_isDigit {c : Char} (h : isDigit c = true) : Text.isBlank c = false := by
  simp only [isDigit, Bool.and_eq_true, decide_eq_true_eq] at h
  have hlow : 48 ≤ c.toNat := h.1
  have hhigh : c.toNat ≤ 57 := h.2
  by_contra hblank
  simp only [Bool.not_eq_false, Text.isBlank, Bool.or_eq_true, Bool.and_eq_true,
    decide_eq_true_eq, beq_iff_eq] at hblank
  have hcodes : c.toNat ≤ 13 ∨ c.toNat = 32 ∨ 160 ≤ c.toNat := by
    rcases hblank with (((((((((h | rfl) | rfl) | rfl) | h) | rfl) | rfl) | rfl) | rfl) | rfl) | rfl
    · exact .inl h.2
    · decide
    · decide
    · decide
    · exact .inr (.inr (Nat.le_trans (by decide) (show 8192 ≤ c.toNat from h.1)))
    all_goals decide
  omega

lemma IsSign.isBlank_eq_false {c : Char} (h : IsSign c) : Text.isBlank c = false := by
  obtain h | rfl | rfl := h
  · exact isBlank_of_isDigit h
  · decide
  · decide

lemma isSign_dot : IsSign '.' := .inr (.inl rfl)

lemma isSign_colon : IsSign ':' := .inr (.inr rfl)

lemma isSign_of_digits (h : ∀ c ∈ ds, isDigit c = true) : ∀ c ∈ ds, IsSign c :=
  fun c hc => .inl (h c hc)

lemma TailDenotes.isSign {m n : Nat} {f : List Char} (h : TailDenotes cs m n f) :
    ∀ c ∈ cs, IsSign c := by
  cases h with
  | minutes hm => exact List.forall_mem_cons.mpr ⟨isSign_colon, isSign_of_digits hm.2.2⟩
  | seconds hm _ hs =>
    simp only [List.forall_mem_append, List.forall_mem_cons]
    exact ⟨⟨isSign_colon, isSign_of_digits hm.2.2⟩, isSign_colon, isSign_of_digits hs.2.2⟩
  | fraction hm _ hs _ hf =>
    simp only [List.forall_mem_append, List.forall_mem_cons]
    exact ⟨⟨⟨isSign_colon, isSign_of_digits hm.2.2⟩, isSign_colon, isSign_of_digits hs.2.2⟩,
      isSign_dot, isSign_of_digits hf.2.2⟩

lemma Denotes.isSign (h : Denotes cs span) : ∀ c ∈ cs, IsSign c := by
  cases h with
  | wholeDays _ hd => exact isSign_of_digits hd
  | clock hh _ htail =>
    exact List.forall_mem_append.mpr ⟨isSign_of_digits hh.2.2, htail.isSign⟩
  | daysAndClock _ hd hh _ htail =>
    simp only [List.forall_mem_append, List.forall_mem_cons]
    exact ⟨⟨isSign_of_digits hd, isSign_dot, isSign_of_digits hh.2.2⟩, htail.isSign⟩

/-- A time span has no blanks in it, so it is what trimming leaves. -/
lemma Denotes.trim_eq (h : Denotes core span) (hpads : Text.Pads core cs) :
    Text.trim cs = core :=
  hpads.trim_eq fun c hc => (h.isSign c hc).isBlank_eq_false

/-- What a text is read as is the length of the one time span that it denotes. -/
lemma read?_eq_some_iff {x : Number} : read? s = some x ↔
    ∃ core span, Text.Pads core s.toList ∧ Denotes core span ∧ span.milliseconds = x := by
  simp only [read?, parse?, Option.map_eq_some_iff, ofChars?_eq_some_iff]
  constructor
  · rintro ⟨span, hspan, rfl⟩
    exact ⟨_, span, Text.pads_trim _, hspan, rfl⟩
  · rintro ⟨core, span, hpads, hspan, rfl⟩
    exact ⟨span, hspan.trim_eq hpads ▸ hspan, rfl⟩

/-- The reader takes the texts of the grammar, with blanks around them or without, and no others:
none with a character in it that no time span is written with. A length is always a number. -/
theorem read?_accepts (s : String) :
    ((∃ x, read? s = some x) ↔ ∃ core span, Text.Pads core s.toList ∧ Denotes core span) ∧
      read? s ≠ some .nan ∧
      ((∃ c ∈ Text.trim s.toList, ¬ IsSign c) → read? s = none) := by
  refine ⟨?_, ?_, ?_⟩
  · simp only [read?_eq_some_iff]
    constructor
    · rintro ⟨x, core, span, hpads, hspan, -⟩
      exact ⟨core, span, hpads, hspan⟩
    · rintro ⟨core, span, hpads, hspan⟩
      exact ⟨_, core, span, hpads, hspan, rfl⟩
  · intro hread
    obtain ⟨core, span, -, hspan, hnan⟩ := read?_eq_some_iff.mp hread
    exact (atLeast_milliseconds hspan.inRange (Nat.zero_le 1) (Nat.zero_le _)).ne_nan hnan
  · rintro ⟨c, hc, hsign⟩
    by_contra hread
    obtain ⟨x, hx⟩ := Option.ne_none_iff_exists'.mp hread
    obtain ⟨core, span, hpads, hspan, -⟩ := read?_eq_some_iff.mp hx
    rw [hspan.trim_eq hpads] at hc
    exact hsign (hspan.isSign c hc)

/-- A clock between blanks, and one with a digit of another script. -/
theorem read?_accepts_digits :
    (∃ x, read? "\t1.02:03 " = some x) ∧ read? "\t1.02:03 " ≠ some .nan ∧ read? "1:0٣" = none := by
  obtain ⟨haccepts, hnumber, -⟩ := read?_accepts "\t1.02:03 "
  have hpads : Text.Pads "1.02:03".toList "\t1.02:03 ".toList :=
    ⟨['\t'], [' '], List.all_eq_true.mp (by decide), List.all_eq_true.mp (by decide), by decide⟩
  have hspan : Denotes "1.02:03".toList (.clock 1 2 3 0 []) :=
    ofChars?_eq_some_iff.mp (by decide +kernel)
  have hsign : ∃ c ∈ Text.trim "1:0٣".toList, ¬ IsSign c :=
    ⟨'٣', by decide +kernel, by simp [IsSign, isDigit]⟩
  exact ⟨haccepts.mpr ⟨_, _, hpads, hspan⟩, hnumber, (read?_accepts "1:0٣").2.2 hsign⟩

/-! ### Leading zeros -/

/-- A row of digits. -/
def IsRow (ds : List Char) : Prop := ds ≠ [] ∧ ∀ c ∈ ds, isDigit c = true

/-- A text, and the same text with zeros before its rows of digits. What follows a point is a
fraction if there is no colon in it, and stays as it is. -/
inductive LeadingZeros : List Char → List Char → Prop where
  | last {ds : List Char} (k : Nat) : IsRow ds → LeadingZeros ds (List.replicate k '0' ++ ds)
  | fraction {ds : List Char} (k : Nat) (f : List Char) : IsRow ds →
      LeadingZeros (ds ++ '.' :: f) (List.replicate k '0' ++ ds ++ '.' :: f)
  | days {ds r r' : List Char} (k : Nat) : IsRow ds → ':' ∈ r → LeadingZeros r r' →
      LeadingZeros (ds ++ '.' :: r) (List.replicate k '0' ++ ds ++ '.' :: r')
  | field {ds r r' : List Char} (k : Nat) : IsRow ds → LeadingZeros r r' →
      LeadingZeros (ds ++ ':' :: r) (List.replicate k '0' ++ ds ++ ':' :: r')

lemma natOfDigits_zeros (k : Nat) (ds : List Char) :
    natOfDigits (List.replicate k '0' ++ ds) = natOfDigits ds := by
  induction k with
  | zero => rfl
  | succ k ih =>
    rw [List.replicate_succ, List.cons_append, ← ih]
    rfl

lemma IsRow.zeros (h : IsRow ds) (k : Nat) : IsRow (List.replicate k '0' ++ ds) := by
  refine ⟨by simp [h.1], List.forall_mem_append.mpr ⟨fun c hc => ?_, h.2⟩⟩
  rw [List.eq_of_mem_replicate hc]
  decide

lemma field?_zeros {top n k : Nat} (hrow : IsRow ds)
    (h : field? top (List.replicate k '0' ++ ds) = some n) : field? top ds = some n := by
  obtain ⟨⟨-, hlength, -⟩, htop, hvalue⟩ := (field?_eq_some_iff (hrow.zeros k).2).mp h
  rw [natOfDigits_zeros] at htop hvalue
  rw [List.length_append] at hlength
  exact (field?_eq_some_iff hrow.2).mpr
    ⟨⟨List.length_pos_iff.mpr hrow.1, by omega, hrow.2⟩, htop, hvalue⟩

/-- What follows the first row of digits in a text and in one with more zeros. -/
inductive LeadingZeros.Rest : List Char → List Char → Prop where
  | none : Rest [] []
  | fraction (f : List Char) : Rest ('.' :: f) ('.' :: f)
  | days {r r' : List Char} : ':' ∈ r' → LeadingZeros r r' → Rest ('.' :: r) ('.' :: r')
  | field {r r' : List Char} : LeadingZeros r r' → Rest (':' :: r) (':' :: r')

lemma LeadingZeros.subset (h : LeadingZeros cs cs') : cs ⊆ cs' := by
  induction h with
  | last => exact List.subset_append_right _ _
  | fraction => exact List.append_subset.mpr ⟨by simp, by simp⟩
  | days _ _ _ _ ih =>
    exact List.append_subset.mpr ⟨by simp, List.subset_append_of_subset_right _
      (List.cons_subset_cons _ ih)⟩
  | field _ _ _ ih =>
    exact List.append_subset.mpr ⟨by simp, List.subset_append_of_subset_right _
      (List.cons_subset_cons _ ih)⟩

lemma LeadingZeros.exists_rest (h : LeadingZeros cs cs') : ∃ k ds rest rest', IsRow ds ∧
    Rest rest rest' ∧ cs = ds ++ rest ∧ cs' = List.replicate k '0' ++ ds ++ rest' := by
  cases h with
  | last k hrow => exact ⟨k, _, _, _, hrow, .none, by simp, by simp⟩
  | fraction k f hrow => exact ⟨k, _, _, _, hrow, .fraction f, rfl, rfl⟩
  | days k hrow hcolon h => exact ⟨k, _, _, _, hrow, .days (h.subset hcolon) h, rfl, rfl⟩
  | field k hrow h => exact ⟨k, _, _, _, hrow, .field h, rfl, rfl⟩

lemma LeadingZeros.Rest.stops {rest rest' : List Char} (h : Rest rest rest') :
    Stops rest ∧ Stops rest' := by
  cases h with
  | none => exact ⟨stops_nil, stops_nil⟩
  | fraction | days => exact ⟨stops_cons isDigit_dot _, stops_cons isDigit_dot _⟩
  | field => exact ⟨stops_cons isDigit_colon _, stops_cons isDigit_colon _⟩

/-- The reader takes the same row off both texts, but for zeros. -/
lemma LeadingZeros.split (h : LeadingZeros cs cs') : ∃ k, IsRow (cs.takeWhile isDigit) ∧
    cs'.takeWhile isDigit = List.replicate k '0' ++ cs.takeWhile isDigit ∧
      Rest (cs.dropWhile isDigit) (cs'.dropWhile isDigit) := by
  obtain ⟨k, ds, rest, rest', hrow, hrest, rfl, rfl⟩ := h.exists_rest
  obtain ⟨hstops, hstops'⟩ := hrest.stops
  obtain ⟨htake, hdrop⟩ := split_append hrow.2 hstops
  obtain ⟨htake', hdrop'⟩ := split_append (hrow.zeros k).2 hstops'
  rw [htake, hdrop, htake', hdrop']
  exact ⟨k, hrow, rfl, hrest⟩

lemma LeadingZeros.seconds? {n : Nat} {f : List Char} (h : LeadingZeros cs cs')
    (hread : seconds? cs' = some (n, f)) : seconds? cs = some (n, f) := by
  obtain ⟨k, hrow, htake, hrest⟩ := h.split
  rw [TimeSpan.seconds?, htake] at hread
  obtain ⟨m, hm, hread⟩ := Option.bind_eq_some_iff.mp hread
  rw [TimeSpan.seconds?, field?_zeros hrow hm]
  generalize cs.dropWhile isDigit = rest at hrest ⊢
  generalize cs'.dropWhile isDigit = rest' at hrest hread
  cases hrest with
  | none | fraction => exact hread
  | days hcolon =>
    -- A fraction has no colon in it.
    obtain ⟨f', hf, -⟩ := Option.bind_eq_some_iff.mp hread
    obtain ⟨hfield, rfl⟩ := fraction?_eq_some_iff.mp hf
    exact absurd (hfield.2.2 _ hcolon) (by decide)
  | field => simp at hread

lemma LeadingZeros.minutes? {n m : Nat} {f : List Char} (h : LeadingZeros cs cs')
    (hread : minutes? cs' = some (m, n, f)) : minutes? cs = some (m, n, f) := by
  obtain ⟨k, hrow, htake, hrest⟩ := h.split
  rw [TimeSpan.minutes?, htake] at hread
  obtain ⟨m', hm, hread⟩ := Option.bind_eq_some_iff.mp hread
  rw [TimeSpan.minutes?, field?_zeros hrow hm]
  generalize cs.dropWhile isDigit = rest at hrest ⊢
  generalize cs'.dropWhile isDigit = rest' at hrest hread
  cases hrest with
  | none => exact hread
  | fraction | days => simp at hread
  | field h =>
    obtain ⟨⟨n', f'⟩, hn, hread⟩ := Option.bind_eq_some_iff.mp hread
    rw [← hread]
    simp [h.seconds? hn]

lemma LeadingZeros.clock? {days k : Nat} {rest rest' : List Char} (hrow : IsRow ds)
    (hrest : Rest rest rest') (h : clock? days (List.replicate k '0' ++ ds) rest' = some span) :
    clock? days ds rest = some span := by
  obtain ⟨hours, hhours, h⟩ := Option.bind_eq_some_iff.mp h
  rw [TimeSpan.clock?, field?_zeros hrow hhours]
  cases hrest with
  | none | fraction | days => simp at h
  | field hzeros =>
    obtain ⟨⟨m, n, f⟩, hm, h⟩ := Option.bind_eq_some_iff.mp h
    rw [← h]
    simp [hzeros.minutes? hm]

/-- A time span with leading zeros is the same without them. -/
lemma LeadingZeros.denotes (h : LeadingZeros cs cs') (hspan : Denotes cs' span) :
    Denotes cs span := by
  rw [← ofChars?_eq_some_iff] at hspan ⊢
  obtain ⟨k, hrow, htake, hrest⟩ := h.split
  rw [ofChars?, htake] at hspan
  rw [ofChars?]
  generalize cs.dropWhile isDigit = rest at hrest ⊢
  generalize cs'.dropWhile isDigit = rest' at hrest hspan
  generalize cs.takeWhile isDigit = ds at hrow hspan ⊢
  have hempty : ds.isEmpty = false := by simpa using hrow.1
  have hempty' : (List.replicate k '0' ++ ds).isEmpty = false := by simpa using (hrow.zeros k).1
  cases hrest with
  | none => simpa [hempty, hempty', natOfDigits_zeros] using hspan
  | fraction => simpa [hempty, hempty', natOfDigits_zeros] using hspan
  | days _ h =>
    obtain ⟨k', hrow', htake', hrest'⟩ := h.split
    simp only [hempty, hempty', natOfDigits_zeros, htake'] at hspan ⊢
    exact LeadingZeros.clock? hrow' hrest' hspan
  | field h => exact LeadingZeros.clock? hrow (.field h) hspan

/-! ### The exact length -/

/-- Of a fraction of a second the whole milliseconds are counted, and the rest is cut off. -/
theorem exact_clock_eq_floor (d h m n : Nat) (f : List Char) : (clock d h m n f).exact =
    86400000 * d + 3600000 * h + 60000 * m + 1000 * n +
      ⌊(1000 * (natOfDigits f / 10 ^ f.length) : ℚ)⌋₊ := by
  have hcut : ⌊(1000 * (natOfDigits f / 10 ^ f.length) : ℚ)⌋₊ =
      natOfDigits f * 1000 / Nat.pow 10 f.length := by
    rw [← mul_div_assoc, mul_comm]
    exact_mod_cast Nat.floor_div_eq_div (K := ℚ) (natOfDigits f * 1000) (10 ^ f.length)
  rw [hcut, exact_clock]
  omega

lemma read?_of_denotes (hpads : Text.Pads core s.toList) (h : Denotes core span)
    (hbound : span.exact ≤ 2 ^ 53) : read? s = some (.finite span.exact) :=
  read?_eq_some_iff.mpr ⟨core, span, hpads, h, milliseconds_eq h.inRange hbound⟩

/-- A count of days may be written with the clock at midnight. -/
lemma IsRow.denotes_midnight (h : IsRow ds) :
    Denotes (ds ++ ".00:00".toList) (.clock (natOfDigits ds) 0 0 0 []) := by
  have hfield : IsField 1 2 ['0', '0'] :=
    ⟨by decide, by decide, List.all_eq_true.mp (by decide)⟩
  have hspan := Denotes.daysAndClock h.1 h.2 hfield (Nat.zero_le 23)
    (.minutes hfield (Nat.zero_le 59))
  rwa [List.append_assoc] at hspan

/-- As long as 53 bits hold the length of a time span, its text is read as just that length. Whole
days may be written with a clock or without, and leading zeros change nothing. -/
theorem read?_exact (s : String) :
    (∀ core span, Text.Pads core s.toList → Denotes core span → span.exact ≤ 2 ^ 53 →
      read? s = some (.finite span.exact)) ∧
    (∀ d s', IsRow d → Text.Pads d s.toList → Text.Pads (d ++ ".00:00".toList) s'.toList →
      86400000 * natOfDigits d ≤ 2 ^ 53 →
        read? s = some (.finite (86400000 * natOfDigits d)) ∧ read? s' = read? s) ∧
    (∀ s' x, LeadingZeros (Text.trim s.toList) (Text.trim s'.toList) → read? s' = some x →
      read? s = some x) := by
  refine ⟨fun core span => read?_of_denotes, ?_, ?_⟩
  · intro d s' hrow hpads hpads' hbound
    have hdays : (wholeDays (natOfDigits d)).exact = 86400000 * natOfDigits d := by
      rw [exact, dayLength]
      omega
    have hclock : (clock (natOfDigits d) 0 0 0 []).exact = 86400000 * natOfDigits d := by
      have hnone : natOfDigits [] = 0 := rfl
      rw [exact_clock, hnone, Nat.zero_mul, Nat.zero_div]
      omega
    have hread := read?_of_denotes hpads (.wholeDays hrow.1 hrow.2) (by omega)
    have hread' := read?_of_denotes hpads' hrow.denotes_midnight (by omega)
    rw [hread, hread', hdays, hclock]
    exact ⟨by push_cast; rfl, rfl⟩
  · intro s' x hzeros hread
    obtain ⟨span, hspan, rfl⟩ := Option.map_eq_some_iff.mp hread
    have hspan' := hzeros.denotes (ofChars?_eq_some_iff.mp hspan)
    exact read?_eq_some_iff.mpr ⟨_, span, Text.pads_trim _, hspan', rfl⟩

/-- A clock whose fraction is cut off, a count of days between blanks, and a clock with zeros. -/
theorem read?_exact_some :
    read? "1.02:03:04.5678901" = some (.finite 93784567) ∧
      read? " 10\t" = some (.finite 864000000) ∧ read? "10.00:00" = read? " 10\t" ∧
        read? "07:05" = some (.finite 25500000) ∧ read? "7:5" = some (.finite 25500000) := by
  have hpads : Text.Pads ['1', '0'] " 10\t".toList :=
    ⟨[' '], ['\t'], List.all_eq_true.mp (by decide), List.all_eq_true.mp (by decide), by decide⟩
  have hclock := (read?_exact "1.02:03:04.5678901").1 _ (.clock 1 2 3 4 "5678901".toList)
    (Text.pads_self _) (ofChars?_eq_some_iff.mp (by decide +kernel)) (by decide +kernel)
  obtain ⟨hdays, hmidnight⟩ := (read?_exact " 10\t").2.1 ['1', '0'] "10.00:00"
    ⟨by decide, List.all_eq_true.mp (by decide)⟩ hpads (Text.pads_self _) (by decide +kernel)
  have hzeros := (read?_exact "07:05").1 _ (.clock 0 7 5 0 [])
    (Text.pads_self _) (ofChars?_eq_some_iff.mp (by decide +kernel)) (by decide +kernel)
  have hrow : IsRow ['7'] := ⟨by decide, List.all_eq_true.mp (by decide)⟩
  have hrow' : IsRow ['5'] := ⟨by decide, List.all_eq_true.mp (by decide)⟩
  have hbare := (read?_exact "7:5").2.2 "07:05" _ (.field 1 hrow (.last 1 hrow')) hzeros
  have hlength : (clock 1 2 3 4 "5678901".toList).exact = 93784567 := by decide +kernel
  have hlength' : (clock 0 7 5 0 []).exact = 25500000 := by decide +kernel
  have hvalue : natOfDigits ['1', '0'] = 10 := by decide +kernel
  rw [hlength] at hclock
  rw [hlength'] at hzeros hbare
  rw [hvalue] at hdays
  refine ⟨hclock, hdays.trans ?_, hmidnight, hzeros, hbare⟩
  norm_num

end TimeSpan

end EdgeCaller

import Mathlib.Data.Nat.Digits.Defs
import Mathlib.Tactic.NormNum
import EdgeCaller.Proofs.Number.Rounding
import EdgeCaller.Proofs.TimeSpan.Grammar
/-!
The length of a time span.

The length is computed in floating point, where one step at most is not exact: a fraction of a
second is rounded before it is counted in milliseconds. What is lost there is so little that it only
matters where the fraction is a whole number of milliseconds, and of those there are a thousand. All
else is whole numbers, so up to the largest integer of 53 bits the length is the exact sum.
-/

namespace EdgeCaller

/-! ### Rows of digits as numbers -/

lemma digitValue_le {c : Char} (h : isDigit c = true) : digitValue c ≤ 9 := by
  simp only [isDigit, Bool.and_eq_true, decide_eq_true_eq] at h
  have hle : c.toNat ≤ '9'.toNat := h.2
  have hnine : '9'.toNat = '0'.toNat + 9 := by decide
  rw [digitValue]
  omega

lemma natOfDigits_append_singleton (ds : List Char) (c : Char) :
    natOfDigits (ds ++ [c]) = 10 * natOfDigits ds + digitValue c := by
  rw [natOfDigits, List.foldl_append]
  rfl

lemma natOfDigits_lt {ds : List Char} (h : ∀ c ∈ ds, isDigit c = true) :
    natOfDigits ds < 10 ^ ds.length := by
  induction ds using List.reverseRecOn with
  | nil => decide
  | append_singleton ds c ih =>
    have hds := ih fun c' hc' => h c' (List.mem_append_left _ hc')
    have hc := digitValue_le (h c (by simp))
    rw [natOfDigits_append_singleton, List.length_append, List.length_singleton, pow_succ]
    omega

namespace Number

/-! ### Thousandths -/

/-- Rounding told by integers alone: where `n` lies within 53 binary digits from the place `s` on,
and the multiple `m` of this place is the nearest one. -/
lemma round_fraction {n c m p s : Nat} (hc : 0 < c) (hs : s ≤ p) (hp : p ≤ 1000)
    (hlow : c * 2 ^ (52 + s) ≤ n) (hhigh : n < c * 2 ^ (53 + s))
    (hnear : 2 * n < 2 * (c * (m * 2 ^ s)) + c * 2 ^ s)
    (hnear' : 2 * (c * (m * 2 ^ s)) < 2 * n + c * 2 ^ s) :
    round (n / (c * 2 ^ p)) = finite (m * 2 ^ s / 2 ^ p) := by
  have hcpos : (0 : ℚ) < c := by exact_mod_cast hc
  have hscale : ∀ k : Nat, (2 : ℚ) ^ ((s : ℤ) - p + k) = 2 ^ (k + s) / 2 ^ p := by
    intro k
    rw [show (s : ℤ) - p + k = (k + s : ℕ) - (p : ℕ) by omega, zpow_sub₀ two_ne_zero,
      zpow_natCast, zpow_natCast]
  have hwidth := hscale 0
  rw [Nat.cast_zero, add_zero, zero_add] at hwidth
  rw [mul_div_assoc, ← hwidth]
  refine round_eq (by omega) (by omega) ?_ ?_ ?_
  · have hlow : (c : ℚ) * 2 ^ (52 + s) ≤ n := by exact_mod_cast hlow
    refine (hscale 52).trans_le ?_
    rw [div_le_div_iff₀ (by positivity) (by positivity)]
    linarith [mul_le_mul_of_nonneg_right hlow (by positivity : (0 : ℚ) ≤ 2 ^ p)]
  · have hhigh : (n : ℚ) < c * 2 ^ (53 + s) := by exact_mod_cast hhigh
    refine lt_of_lt_of_eq ?_ (hscale 53).symm
    rw [div_lt_div_iff₀ (by positivity) (by positivity)]
    linarith [mul_lt_mul_of_pos_right hhigh (by positivity : (0 : ℚ) < 2 ^ p)]
  · have hnear : (2 : ℚ) * n < 2 * (c * (m * 2 ^ s)) + c * 2 ^ s := by exact_mod_cast hnear
    have hnear' : (2 : ℚ) * (c * (m * 2 ^ s)) < 2 * n + c * 2 ^ s := by exact_mod_cast hnear'
    rw [hwidth, abs_lt, ← sub_pos, ← sub_pos (b := _ - _)]
    constructor
    · field_simp
      linarith
    · field_simp
      linarith

/-- The places after the point that are left to `j` thousandths by 53 binary digits. -/
def thousandthPlaces (j : Nat) : Nat :=
  if 1000 * 2 ^ 52 ≤ j * 2 ^ (61 - j.log2) then 61 - j.log2 else 62 - j.log2

/-- The 53 binary digits of `j` thousandths. -/
def thousandthDigits (j : Nat) : Nat := (j * 2 ^ thousandthPlaces j + 500) / 1000

/-- The 53 digits `m` with `p` places after the point are the number nearest to `j` thousandths, and
a thousand times that is nearer to `j` than to any other number of `p - s` places. -/
structure ThousandthOf (j p m s : Nat) : Prop where
  places : s ≤ p ∧ p ≤ 100
  low : 1000 * 2 ^ 52 ≤ j * 2 ^ p
  high : j * 2 ^ p < 1000 * 2 ^ 53
  near : 2 * (1000 * m) < 2 * (j * 2 ^ p) + 1000 ∧ 2 * (j * 2 ^ p) < 2 * (1000 * m) + 1000
  low' : 2 ^ (52 + s) ≤ 1000 * m
  high' : 1000 * m < 2 ^ (53 + s)
  near' : 2 * (1000 * m) < 2 * (j * 2 ^ p) + 2 ^ s ∧ 2 * (j * 2 ^ p) < 2 * (1000 * m) + 2 ^ s

instance (j p m s : Nat) : Decidable (ThousandthOf j p m s) :=
  decidable_of_iff (_ ∧ _ ∧ _ ∧ _ ∧ _ ∧ _ ∧ _)
    ⟨fun ⟨a, b, c, d, e, f, g⟩ => ⟨a, b, c, d, e, f, g⟩,
      fun ⟨a, b, c, d, e, f, g⟩ => ⟨a, b, c, d, e, f, g⟩⟩

lemma thousandthOf_places : ∀ j : Nat, j < 1000 → 0 < j →
    ThousandthOf j (thousandthPlaces j) (thousandthDigits j)
      ((1000 * thousandthDigits j).log2 - 52) := by
  decide +kernel

/-- A thousand times the number nearest to `j` thousandths is rounded to `j`. -/
lemma ThousandthOf.round_mul {j p m s : Nat} (h : ThousandthOf j p m s) :
    round (j / 1000) * ofNat 1000 = finite j := by
  obtain ⟨⟨hs, hp⟩, hlow, hhigh, ⟨hnear, hnear'⟩, hlow', hhigh', hfit, hfit'⟩ := h
  have hplaces : (0 : ℚ) < 2 ^ p := by positivity
  have hpow : j * 2 ^ (p - s) * 2 ^ s = j * 2 ^ p := by
    rw [mul_assoc, ← pow_add, Nat.sub_add_cancel hs]
  have hfirst : round (j / 1000) = finite (m / 2 ^ p) := by
    have hround := round_fraction (n := j * 2 ^ p) (c := 1000) (m := m) (p := p) (s := 0)
      (by norm_num) (by omega) (by omega) hlow hhigh (by omega) (by omega)
    have hfraction : ((j * 2 ^ p : ℕ) : ℚ) / ((1000 : ℕ) * 2 ^ p) = j / 1000 := by
      push_cast
      exact mul_div_mul_right _ _ hplaces.ne'
    rwa [hfraction, pow_zero, mul_one] at hround
  have hsecond := round_fraction (n := 1000 * m) (c := 1) (m := j * 2 ^ (p - s)) (p := p) (s := s)
    (by norm_num) hs (by omega) (by omega) (by omega) (by omega) (by omega)
  have hpoint : ((j * 2 ^ (p - s) : ℕ) : ℚ) * 2 ^ s / 2 ^ p = j := by
    rw [div_eq_iff hplaces.ne']
    exact_mod_cast hpow
  have hproduct : ((1000 * m : ℕ) : ℚ) / ((1 : ℕ) * 2 ^ p) = m / 2 ^ p * (1000 : ℕ) := by
    push_cast
    ring
  rw [hpoint, hproduct] at hsecond
  rw [hfirst, ofNat_eq (by norm_num)]
  exact hsecond

/-! ### Fractions of a second -/

lemma literal_eq (n : Nat) : (OfNat.ofNat n : Number) = ofNat n := rfl

lemma ofNat_mul_add_ofNat {m n k : Nat} (hn : 0 < n) (hn' : n ≤ 2 ^ 53) (h : m * n + k ≤ 2 ^ 53) :
    ofNat m * ofNat n + ofNat k = ofNat (m * n + k) := by
  rw [ofNat_mul_ofNat hn hn' (by omega), ofNat_add_ofNat h]

lemma ofDecimal_neg {n k : Nat} (hn : n < 10 ^ k) (hk : k ≤ 7) :
    ofDecimal n (0 - k) = round (n / 10 ^ k) := by
  by_cases hzero : n = 0
  · subst hzero
    simp [ofDecimal, round]
  have hpositive : 0 < k := by
    by_contra hnone
    obtain rfl : k = 0 := by omega
    omega
  have hlength : (digitsOfNat n).length ≤ k := Nat.toDigits_length 10 n k hpositive hn
  have hpower : pow10 (0 - k) = 1 / 10 ^ k := by
    rw [pow10, if_neg (by omega), Rat.mkRat_eq_div, show (-(0 - (k : ℤ))).toNat = k by omega,
      show Nat.pow 10 k = 10 ^ k from rfl]
    norm_num
  have hplaces : ¬ 310 < ((digitsOfNat n).length : ℤ) + (0 - k) := by omega
  have hplaces' : ¬ ((digitsOfNat n).length : ℤ) + (0 - k) < -325 := by omega
  simp only [ofDecimal, if_neg hzero, if_neg hplaces, if_neg hplaces', hpower, mul_one_div]

/-- A fraction of a second, away from any whole number of milliseconds, is rounded by less than what
separates it from the next one. -/
lemma floor_mul_thousand_of_lt {q : ℚ} {t : Nat} (ht : t < 1000)
    (hlow : t + 1 / 10 ^ 7 ≤ q * 1000) (hhigh : q * 1000 ≤ t + 1 - 1 / 10 ^ 7) :
    (round q * ofNat 1000).floor = ofNat t := by
  have htop : (t : ℚ) + 1 ≤ 1000 := by exact_mod_cast ht
  have hq : 0 ≤ q := by linarith [t.cast_nonneg (α := ℚ)]
  obtain ⟨x, hround, hx⟩ := round_error (k := 0) (by norm_num) (by norm_num) hq
    (by rw [zpow_zero]; linarith)
  obtain ⟨hx, hx'⟩ := abs_le.mp hx
  norm_num at hx hx'
  have hpositive : 0 ≤ x * (1000 : ℕ) := by
    push_cast
    linarith
  obtain ⟨y, hproduct, hy⟩ := round_error (k := 10) (by norm_num) (by norm_num) hpositive
    (by push_cast; linarith)
  obtain ⟨hy, hy'⟩ := abs_le.mp hy
  norm_num at hy hy'
  have hfloor : ⌊y⌋ = (t : ℤ) := by
    refine Int.floor_eq_iff.mpr ⟨?_, ?_⟩
    · push_cast
      linarith
    · push_cast
      linarith
  calc (round q * ofNat 1000).floor
      = (round (x * (1000 : ℕ))).floor := by rw [hround, ofNat_eq (by norm_num)]; rfl
    _ = round (⌊y⌋ : ℤ) := by rw [hproduct]; rfl
    _ = ofNat t := by rw [hfloor, Int.cast_natCast]; rfl

/-- The milliseconds of a fraction of a second are cut off where they should be. -/
lemma floor_mul_thousand {n k : Nat} (hn : n < 10 ^ k) (hk : k ≤ 7) :
    (round (n / 10 ^ k) * ofNat 1000).floor = ofNat (n * 1000 / 10 ^ k) := by
  have hpos : 0 < 10 ^ k := by positivity
  have hdiv := Nat.div_add_mod (n * 1000) (10 ^ k)
  have hmod := Nat.mod_lt (n * 1000) hpos
  have ht : n * 1000 / 10 ^ k < 1000 := by
    rw [Nat.div_lt_iff_lt_mul hpos]
    omega
  generalize n * 1000 / 10 ^ k = t at hdiv ht ⊢
  generalize n * 1000 % 10 ^ k = r at hdiv hmod
  have hpos' : (0 : ℚ) < 10 ^ k := by positivity
  have hvalue : (n : ℚ) / 10 ^ k * 1000 = t + r / 10 ^ k := by
    have hdiv : (10 : ℚ) ^ k * t + r = n * 1000 := by exact_mod_cast hdiv
    field_simp
    linarith
  by_cases hr : r = 0
  · have hfraction : (n : ℚ) / 10 ^ k = t / 1000 := by
      rw [eq_div_iff (by norm_num), hvalue, hr]
      simp
    rw [hfraction]
    by_cases hzero : t = 0
    · subst hzero
      decide +kernel
    · rw [(thousandthOf_places t ht (by omega)).round_mul]
      change round ((⌊(t : ℚ)⌋ : ℤ) : ℚ) = ofNat t
      rw [Int.floor_natCast, Int.cast_natCast]
      rfl
  · have hsmall : (10 : ℚ) ^ k ≤ 10 ^ 7 := pow_le_pow_right₀ (by norm_num) hk
    have hgap : (1 : ℚ) / 10 ^ 7 ≤ 1 / 10 ^ k := one_div_le_one_div_of_le hpos' hsmall
    have hone : (1 : ℚ) ≤ r := by exact_mod_cast Nat.pos_of_ne_zero hr
    have hless : (r : ℚ) + 1 ≤ 10 ^ k := by exact_mod_cast hmod
    have hlow : (1 : ℚ) / 10 ^ k ≤ r / 10 ^ k := by gcongr
    have hhigh : (r : ℚ) / 10 ^ k + 1 / 10 ^ k ≤ 1 := by
      rw [← add_div, div_le_one hpos']
      exact hless
    exact floor_mul_thousand_of_lt ht (by linarith) (by linarith)

end Number

/-! ### Lengths -/

namespace TimeSpan

/-- The fields of a clock are those of some time of the day. -/
def InRange : TimeSpan → Prop
  | wholeDays _ => True
  | clock _ h m s f => h ≤ 23 ∧ m ≤ 59 ∧ s ≤ 59 ∧ (f = [] ∨ IsField 1 7 f)

variable {cs f : List Char} {span : TimeSpan}

lemma TailDenotes.inRange {m s : Nat} (h : TailDenotes cs m s f) :
    m ≤ 59 ∧ s ≤ 59 ∧ (f = [] ∨ IsField 1 7 f) := by
  cases h with
  | minutes _ hm => exact ⟨hm, Nat.zero_le 59, .inl rfl⟩
  | seconds _ hm _ hs => exact ⟨hm, hs, .inl rfl⟩
  | fraction _ hm _ hs hf => exact ⟨hm, hs, .inr hf⟩

lemma Denotes.inRange (h : Denotes cs span) : span.InRange := by
  cases h with
  | wholeDays => trivial
  | clock _ hh htail => exact ⟨hh, htail.inRange⟩
  | daysAndClock _ _ _ hh htail => exact ⟨hh, htail.inRange⟩

lemma fractionLength_eq (h : f = [] ∨ IsField 1 7 f) :
    fractionLength f = .ofNat (natOfDigits f * 1000 / Nat.pow 10 f.length) := by
  obtain rfl | ⟨hlow, hhigh, hdigits⟩ := h
  · simp [fractionLength, natOfDigits, Number.literal_eq]
  have hne : f.isEmpty = false := by
    rw [List.isEmpty_eq_false_iff, ← List.length_pos_iff]
    exact hlow
  have hread : Number.ofParts false [] f 0 = .round (natOfDigits f / 10 ^ f.length) := by
    simpa [Number.ofParts] using Number.ofDecimal_neg (natOfDigits_lt hdigits) hhigh
  rw [fractionLength, if_neg (by simp [hne]), hread, Nat.pow_eq, Number.literal_eq]
  exact Number.floor_mul_thousand (natOfDigits_lt hdigits) hhigh

lemma exact_clock (d h m s : Nat) (f : List Char) : (clock d h m s f).exact =
    (((d * 24 + h) * 60 + m) * 60 + s) * 1000 + natOfDigits f * 1000 / Nat.pow 10 f.length := by
  rw [exact, dayLength]
  omega

/-- As long as 53 bits hold it, the length is the exact one. -/
theorem milliseconds_eq (h : span.InRange) (hbound : span.exact ≤ 2 ^ 53) :
    span.milliseconds = .finite span.exact := by
  rw [← Number.ofNat_eq hbound]
  cases span with
  | wholeDays d => exact Number.ofNat_mul_ofNat (by decide) (by decide) hbound
  | clock d h m s f =>
    obtain ⟨-, -, -, hf⟩ := h
    rw [exact_clock] at hbound ⊢
    rw [milliseconds, fractionLength_eq hf]
    simp only [Number.literal_eq]
    generalize natOfDigits f * 1000 / Nat.pow 10 f.length = ms at hbound ⊢
    rw [Number.ofNat_mul_add_ofNat (by omega) (by omega) (by omega),
      Number.ofNat_mul_add_ofNat (by omega) (by omega) (by omega),
      Number.ofNat_mul_add_ofNat (by omega) (by omega) (by omega),
      Number.ofNat_mul_add_ofNat (by omega) (by omega) (by omega)]

/-- A length is a number, and not below one if the exact one is not. -/
lemma atLeast_milliseconds {n : Nat} (h : span.InRange) (hn : n ≤ 1) (hle : n ≤ span.exact) :
    span.milliseconds.AtLeast n := by
  cases span with
  | wholeDays d =>
    have hd : n ≤ d := by
      simp only [exact, dayLength] at hle
      omega
    exact (Number.atLeast_ofNat hn hd).mul_ofNat hn (by decide) (by decide)
  | clock d h m s f =>
    obtain ⟨-, -, -, hf⟩ := h
    rw [exact_clock] at hle
    rw [milliseconds, fractionLength_eq hf]
    simp only [Number.literal_eq]
    generalize natOfDigits f * 1000 / Nat.pow 10 f.length = ms at hle ⊢
    have hpart : ∀ k : Nat, (Number.ofNat k).AtLeast (min 1 k) := fun k =>
      Number.atLeast_ofNat (Nat.min_le_left 1 k) (Nat.min_le_right 1 k)
    have hhours := ((hpart d).mul_ofNat (m := 24) (by omega) (by omega) (by omega)).add (hpart h)
      (n := min 1 (d + h)) (by omega) (by omega)
    have hminutes := (hhours.mul_ofNat (m := 60) (by omega) (by omega) (by omega)).add (hpart m)
      (n := min 1 (d + h + m)) (by omega) (by omega)
    have hseconds := (hminutes.mul_ofNat (m := 60) (by omega) (by omega) (by omega)).add (hpart s)
      (n := min 1 (d + h + m + s)) (by omega) (by omega)
    exact (hseconds.mul_ofNat (m := 1000) (by omega) (by omega) (by omega)).add (hpart ms) hn
      (by omega)

/-- A length is above zero exactly if it is a millisecond at least. -/
lemma isPositive_milliseconds (h : span.InRange) :
    span.milliseconds.isPositive = true ↔ 1 ≤ span.exact := by
  constructor
  · intro hpositive
    by_contra hless
    have hzero : span.exact = 0 := by omega
    rw [milliseconds_eq h (by omega), hzero] at hpositive
    exact absurd hpositive (by decide)
  · intro hle
    exact (atLeast_milliseconds h le_rfl hle).isPositive

end TimeSpan

end EdgeCaller

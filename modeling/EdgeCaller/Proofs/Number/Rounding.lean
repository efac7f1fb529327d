import Mathlib.Algebra.Order.Field.Power
import Mathlib.Data.Rat.Floor
import Mathlib.Tactic.FieldSimp
import Mathlib.Tactic.Linarith
import Mathlib.Tactic.Positivity
import EdgeCaller.Proofs.Number.Whole
/-!
Rounding to the nearest number.

A number near a rational has 53 binary digits, so it lies on a grid whose width is a power of two.
Rounding takes a rational to the nearest point of its grid: it is at most half a width off, and it
leaves a rational where it is that is a point of its grid. Every integer of up to 53 bits is one.
-/

namespace EdgeCaller

namespace Number

lemma cast_two_pow (k : Nat) : ((Nat.pow 2 k : ℕ) : ℚ) = 2 ^ k := Nat.cast_pow 2 k

lemma pow2_eq (e : ℤ) : pow2 e = 2 ^ e := by
  rw [pow2]
  split
  · next he =>
    rw [cast_two_pow, ← zpow_natCast, Int.toNat_of_nonneg he]
  · next he =>
    rw [Rat.mkRat_eq_div, cast_two_pow, ← zpow_natCast, Int.toNat_of_nonneg (by omega), zpow_neg]
    simp

/-! ### The grid -/

lemma roundDiv_error (n : Nat) {d : Nat} (hd : 0 < d) :
    |(roundDiv n d : ℚ) - n / d| ≤ 1 / 2 := by
  have hdiv : d * (n / d) + n % d = n := Nat.div_add_mod n d
  have hmod := Nat.mod_lt n hd
  have hbounds : 2 * n ≤ 2 * (d * roundDiv n d) + d ∧ 2 * (d * roundDiv n d) ≤ 2 * n + d := by
    rw [roundDiv]
    split
    · omega
    · split
      · rw [Nat.mul_succ]
        omega
      · split
        · omega
        · rw [Nat.mul_succ]
          omega
  obtain ⟨hlow, hhigh⟩ := hbounds
  have hlow : (2 : ℚ) * n ≤ 2 * (d * roundDiv n d) + d := by exact_mod_cast hlow
  have hhigh : (2 : ℚ) * (d * roundDiv n d) ≤ 2 * n + d := by exact_mod_cast hhigh
  have hpos : (0 : ℚ) < d := by exact_mod_cast hd
  rw [abs_le]
  constructor
  · rw [neg_le_sub_iff_le_add, div_le_iff₀ hpos]
    linarith
  · rw [sub_le_iff_le_add, ← sub_le_iff_le_add', le_div_iff₀ hpos]
    linarith

lemma inUnits_spec (n : Nat) {d : Nat} (hd : 0 < d) (e : ℤ) : 0 < (inUnits n d e).2 ∧
    ((inUnits n d e).1 : ℚ) / (inUnits n d e).2 = n / d / 2 ^ e := by
  rw [inUnits]
  split
  · next he =>
    obtain ⟨k, rfl⟩ := Int.eq_ofNat_of_zero_le he
    refine ⟨Nat.mul_pos hd (Nat.two_pow_pos _), ?_⟩
    change (n : ℚ) / (d * 2 ^ k : ℕ) = _
    push_cast
    rw [zpow_natCast, div_div]
  · next he =>
    obtain ⟨k, hk⟩ := Int.eq_ofNat_of_zero_le (show 0 ≤ -e by omega)
    refine ⟨hd, ?_⟩
    change ((n * 2 ^ (-e).toNat : ℕ) : ℚ) / d = _
    rw [hk, Int.toNat_natCast, show e = -(k : ℤ) by omega, zpow_neg, zpow_natCast, div_inv_eq_mul]
    push_cast
    ring

/-- A rational lies between the powers of two that its terms begin with. -/
lemma log2_bounds {n d : Nat} (hn : 0 < n) (hd : 0 < d) :
    (2 : ℚ) ^ ((n.log2 : ℤ) - d.log2 - 1) ≤ n / d ∧
      (n : ℚ) / d < 2 ^ ((n.log2 : ℤ) - d.log2 + 1) := by
  have hpos : (0 : ℚ) < d := by exact_mod_cast hd
  have hnlow : (2 : ℚ) ^ (n.log2 : ℤ) ≤ n := by
    rw [zpow_natCast]
    exact_mod_cast Nat.log2_self_le hn.ne'
  have hnhigh : (n : ℚ) < 2 ^ ((n.log2 : ℤ) + 1) := by
    rw [← Nat.cast_succ, zpow_natCast]
    exact_mod_cast Nat.lt_log2_self
  have hdlow : (2 : ℚ) ^ (d.log2 : ℤ) ≤ d := by
    rw [zpow_natCast]
    exact_mod_cast Nat.log2_self_le hd.ne'
  have hdhigh : (d : ℚ) < 2 ^ ((d.log2 : ℤ) + 1) := by
    rw [← Nat.cast_succ, zpow_natCast]
    exact_mod_cast Nat.lt_log2_self
  constructor
  · rw [le_div_iff₀ hpos]
    calc (2 : ℚ) ^ ((n.log2 : ℤ) - d.log2 - 1) * d
        ≤ 2 ^ ((n.log2 : ℤ) - d.log2 - 1) * 2 ^ ((d.log2 : ℤ) + 1) := by gcongr
      _ = 2 ^ (n.log2 : ℤ) := by
        rw [← zpow_add₀ two_ne_zero]
        congr 1
        omega
      _ ≤ n := hnlow
  · rw [div_lt_iff₀ hpos]
    calc (n : ℚ) < 2 ^ ((n.log2 : ℤ) + 1) := hnhigh
      _ = 2 ^ ((n.log2 : ℤ) - d.log2 + 1) * 2 ^ (d.log2 : ℤ) := by
        rw [← zpow_add₀ two_ne_zero]
        congr 1
        omega
      _ ≤ 2 ^ ((n.log2 : ℤ) - d.log2 + 1) * d := by gcongr

/-- The grid of a rational leaves it 53 digits before the point, unless it is the finest one. -/
lemma lastPlace_spec {n d : Nat} (hn : 0 < n) (hd : 0 < d) : -1074 ≤ lastPlace n d ∧
    (n : ℚ) / d < 2 ^ (lastPlace n d + 53) ∧
      (lastPlace n d = -1074 ∨ (2 : ℚ) ^ (lastPlace n d + 52) ≤ n / d) := by
  obtain ⟨hlow, hhigh⟩ := log2_bounds hn hd
  -- The first guess is at most one place too high.
  obtain ⟨p, hp, hplow, hphigh⟩ : ∃ p : ℤ, lastPlace n d = max p (-1074) ∧
      (2 : ℚ) ^ (p + 52) ≤ n / d ∧ (n : ℚ) / d < 2 ^ (p + 53) := by
    set e : ℤ := (n.log2 : ℤ) - d.log2 - 52 with he
    obtain ⟨hden, hunits⟩ := inUnits_spec n hd e
    have hpos : (0 : ℚ) < (inUnits n d e).2 := by exact_mod_cast hden
    have hless : (inUnits n d e).1 < (inUnits n d e).2 * leastMantissa ↔
        (n : ℚ) / d < 2 ^ (e + 52) := by
      rw [zpow_add₀ two_ne_zero, ← div_lt_iff₀' (by positivity), ← hunits, div_lt_iff₀' hpos]
      rw [show (2 : ℚ) ^ (52 : ℤ) = (leastMantissa : ℕ) by norm_num [leastMantissa]]
      exact_mod_cast Iff.rfl
    by_cases hunder : (inUnits n d e).1 < (inUnits n d e).2 * leastMantissa
    · refine ⟨e - 1, ?_, ?_, ?_⟩
      · rw [lastPlace, ← he, if_pos hunder]
      · rwa [show e - 1 + 52 = (n.log2 : ℤ) - d.log2 - 1 by omega]
      · rw [show e - 1 + 53 = e + 52 by omega]
        exact hless.mp hunder
    · refine ⟨e, ?_, ?_, ?_⟩
      · rw [lastPlace, ← he, if_neg hunder]
      · exact not_lt.mp (mt hless.mpr hunder)
      · rwa [show e + 53 = (n.log2 : ℤ) - d.log2 + 1 by omega]
  rw [hp]
  refine ⟨le_max_right _ _, lt_of_lt_of_le hphigh ?_, ?_⟩
  · exact zpow_le_zpow_right₀ one_le_two (by omega)
  · rcases le_total p (-1074) with hle | hle
    · exact .inl (max_eq_right hle)
    · rw [max_eq_left hle]
      exact .inr hplow

lemma nearestSize_error (n : Nat) {d : Nat} (hd : 0 < d) :
    |nearestSize n d - n / d| ≤ 2 ^ lastPlace n d / 2 := by
  obtain ⟨hden, hunits⟩ := inUnits_spec n hd (lastPlace n d)
  have herror := roundDiv_error (inUnits n d (lastPlace n d)).1 hden
  have hwidth : (0 : ℚ) < 2 ^ lastPlace n d := by positivity
  rw [hunits] at herror
  have hvalue : (n : ℚ) / d = n / d / 2 ^ lastPlace n d * 2 ^ lastPlace n d :=
    (div_mul_cancel₀ _ hwidth.ne').symm
  simp only [nearestSize, nearest, pow2_eq]
  rw [hvalue, ← sub_mul, abs_mul, abs_of_pos hwidth]
  linarith [mul_le_mul_of_nonneg_right herror hwidth.le]

lemma lastPlace_eq {n d : Nat} {e : ℤ} (hd : 0 < d) (he : -1074 ≤ e)
    (hlow : (2 : ℚ) ^ (e + 52) ≤ n / d) (hhigh : (n : ℚ) / d < 2 ^ (e + 53)) :
    lastPlace n d = e := by
  have hn : 0 < n := by
    rcases Nat.eq_zero_or_pos n with rfl | hn
    · rw [Nat.cast_zero, zero_div] at hlow
      exact absurd hlow (not_le.mpr (by positivity))
    · exact hn
  obtain ⟨-, hlt, hfine⟩ := lastPlace_spec hn hd
  have hle : e + 52 < lastPlace n d + 53 :=
    (zpow_lt_zpow_iff_right₀ one_lt_two).mp (hlow.trans_lt hlt)
  rcases hfine with hfine | hge
  · omega
  · have hge' : lastPlace n d + 52 < e + 53 :=
      (zpow_lt_zpow_iff_right₀ one_lt_two).mp (hge.trans_lt hhigh)
    omega

/-- The nearest number is the one point of the grid that is less than half a width off. -/
lemma nearestSize_eq {n d k : Nat} {e : ℤ} (hd : 0 < d) (hplace : lastPlace n d = e)
    (hnear : |(n : ℚ) / d - k * 2 ^ e| < 2 ^ e / 2) : nearestSize n d = k * 2 ^ e := by
  have hwidth : (0 : ℚ) < 2 ^ e := by positivity
  have herror := nearestSize_error n hd
  rw [hplace] at herror
  simp only [nearestSize, nearest, hplace, pow2_eq] at herror ⊢
  generalize roundDiv (inUnits n d e).1 (inUnits n d e).2 = m at herror ⊢
  have hless : |((m : ℤ) - k : ℤ)| < 1 := by
    have hclose : |((m : ℚ) - k) * 2 ^ e| < 1 * 2 ^ e := by
      rw [sub_mul, one_mul]
      calc |(m : ℚ) * 2 ^ e - k * 2 ^ e|
          ≤ |(m : ℚ) * 2 ^ e - n / d| + |(n : ℚ) / d - k * 2 ^ e| := abs_sub_le _ _ _
        _ < 2 ^ e := by linarith
    rw [abs_mul, abs_of_pos hwidth] at hclose
    exact_mod_cast lt_of_mul_lt_mul_right hclose hwidth.le
  rw [show m = k by rw [Int.abs_lt_one_iff] at hless; omega]

/-- A point of the grid that is not above a rational is not above what that is rounded to. -/
lemma le_nearestSize {n d k : Nat} (hd : 0 < d) (h : k * 2 ^ lastPlace n d ≤ (n : ℚ) / d) :
    k * 2 ^ lastPlace n d ≤ nearestSize n d := by
  have hwidth : (0 : ℚ) < 2 ^ lastPlace n d := by positivity
  have herror := nearestSize_error n hd
  simp only [nearestSize, nearest, pow2_eq] at herror ⊢
  generalize roundDiv (inUnits n d _).1 (inUnits n d _).2 = m at herror ⊢
  have hless : (k : ℚ) < m + 1 := by
    have hclose : (k : ℚ) * 2 ^ lastPlace n d < (m + 1) * 2 ^ lastPlace n d := by
      rw [add_mul, one_mul]
      linarith [(abs_le.mp herror).1]
    exact lt_of_mul_lt_mul_right hclose hwidth.le
  have hle : k ≤ m := by
    have hnat : k < m + 1 := by exact_mod_cast hless
    omega
  gcongr

/-! ### Rounding a rational -/

lemma natAbs_div_den {q : ℚ} (hq : 0 ≤ q) : (q.num.natAbs : ℚ) / q.den = q := by
  have hnum : ((q.num.natAbs : ℤ) : ℚ) = q.num :=
    congrArg _ (Int.natAbs_of_nonneg (Rat.num_nonneg.mpr hq))
  rw [← Int.cast_natCast, hnum, Rat.num_div_den]

lemma two_zpow_le_overflow {e : ℤ} (he : e ≤ 1024) : (2 : ℚ) ^ e ≤ overflow := by
  unfold overflow
  generalize hk : 1024 = k
  rw [cast_two_pow, ← zpow_natCast]
  exact zpow_le_zpow_right₀ one_le_two (by omega)

lemma round_of_pos {q : ℚ} (hq : 0 < q) : round q =
    if overflow ≤ nearestSize q.num.natAbs q.den then infinite false
    else finite (nearestSize q.num.natAbs q.den) := by
  rw [round, if_neg (Rat.num_pos.mpr hq).ne']
  simp [not_lt.mpr hq.le]

/-- A rational that is less than half a width off a point of its grid is rounded to it. -/
lemma round_eq {q : ℚ} {k : Nat} {e : ℤ} (he : -1074 ≤ e) (htop : e ≤ 900)
    (hlow : (2 : ℚ) ^ (e + 52) ≤ q) (hhigh : q < 2 ^ (e + 53))
    (hnear : |q - k * 2 ^ e| < 2 ^ e / 2) : round q = finite (k * 2 ^ e) := by
  have hq : 0 < q := lt_of_lt_of_le (by positivity) hlow
  have hvalue := natAbs_div_den hq.le
  rw [← hvalue] at hlow hhigh hnear
  have hplace := lastPlace_eq q.den_pos he hlow hhigh
  have hsize := nearestSize_eq q.den_pos hplace hnear
  have hbound : (k : ℚ) * 2 ^ e < overflow := by
    calc (k : ℚ) * 2 ^ e < 2 ^ (e + 53) + 2 ^ e / 2 := by linarith [(abs_lt.mp hnear).1]
      _ ≤ 2 ^ (e + 53) + 2 ^ (e + 53) := by
        have hle : (2 : ℚ) ^ e ≤ 2 ^ (e + 53) := zpow_le_zpow_right₀ one_le_two (by omega)
        have hpos : (0 : ℚ) < 2 ^ e := by positivity
        linarith
      _ = 2 ^ (e + 54) := by
        rw [← mul_two, ← zpow_add_one₀ two_ne_zero, add_assoc]
        rfl
      _ ≤ overflow := two_zpow_le_overflow (by omega)
  rw [round_of_pos hq, hsize, if_neg (not_le.mpr hbound)]

/-- How far off rounding is, for a rational below a power of two. -/
lemma round_error {q : ℚ} {k : ℤ} (hk : -1021 ≤ k) (htop : k ≤ 1000) (hq : 0 ≤ q)
    (hlt : q < 2 ^ k) : ∃ r, round q = finite r ∧ |r - q| ≤ 2 ^ (k - 54) := by
  rcases hq.eq_or_lt with rfl | hq
  · exact ⟨0, rfl, by simpa using (by positivity : (0 : ℚ) ≤ 2 ^ (k - 54))⟩
  have hvalue := natAbs_div_den hq.le
  have hn : 0 < q.num.natAbs := Int.natAbs_pos.mpr (Rat.num_pos.mpr hq).ne'
  have hplace : lastPlace q.num.natAbs q.den ≤ k - 53 := by
    obtain ⟨-, -, hfine | hge⟩ := lastPlace_spec hn q.den_pos
    · omega
    · rw [hvalue] at hge
      have hless := (zpow_lt_zpow_iff_right₀ one_lt_two).mp (hge.trans_lt hlt)
      omega
  have herror := nearestSize_error q.num.natAbs q.den_pos
  rw [hvalue] at herror
  have hsmall : |nearestSize q.num.natAbs q.den - q| ≤ 2 ^ (k - 54) := by
    refine herror.trans ?_
    rw [div_le_iff₀ two_pos, ← zpow_add_one₀ two_ne_zero]
    exact zpow_le_zpow_right₀ one_le_two (by omega)
  have hbound : nearestSize q.num.natAbs q.den < overflow := by
    calc nearestSize q.num.natAbs q.den
        < 2 ^ k + 2 ^ (k - 54) := by linarith [(abs_le.mp hsmall).2]
      _ ≤ 2 ^ k + 2 ^ k := by
        gcongr
        · exact one_le_two
        · omega
      _ = 2 ^ (k + 1) := by rw [← mul_two, ← zpow_add_one₀ two_ne_zero]
      _ ≤ overflow := two_zpow_le_overflow (by omega)
  exact ⟨_, by rw [round_of_pos hq, if_neg (not_le.mpr hbound)], hsmall⟩

/-! ### Integers of 53 bits -/

lemma round_natCast {n : Nat} (h : n ≤ 2 ^ 53) : round n = finite n := by
  rcases Nat.eq_zero_or_pos n with rfl | hn
  · rfl
  rcases h.eq_or_lt with rfl | h
  · decide +kernel
  have hlog : n.log2 ≤ 52 := by
    have := (Nat.log2_lt hn.ne').mpr h
    omega
  have hpoint : ((n * 2 ^ (52 - n.log2) : ℕ) : ℚ) * 2 ^ ((n.log2 : ℤ) - 52) = n := by
    push_cast
    rw [mul_assoc, ← zpow_natCast, ← zpow_add₀ two_ne_zero,
      show ((52 - n.log2 : ℕ) : ℤ) + (n.log2 - 52) = 0 by omega, zpow_zero, mul_one]
  have hlow := Nat.log2_self_le hn.ne'
  have hhigh := Nat.lt_log2_self (n := n)
  rw [round_eq (k := n * 2 ^ (52 - n.log2)) (e := n.log2 - 52) (by omega) (by omega), hpoint]
  · rw [sub_add_cancel, zpow_natCast]
    exact_mod_cast hlow
  · rw [show (n.log2 : ℤ) - 52 + 53 = (n.log2 + 1 : ℕ) by omega, zpow_natCast]
    exact_mod_cast hhigh
  · rw [hpoint, sub_self, abs_zero]
    positivity

lemma ofNat_eq {n : Nat} (h : n ≤ 2 ^ 53) : ofNat n = finite n := round_natCast h

lemma ofNat_add_ofNat {m n : Nat} (h : m + n ≤ 2 ^ 53) : ofNat m + ofNat n = ofNat (m + n) := by
  rw [ofNat_eq (show m ≤ 2 ^ 53 by omega), ofNat_eq (show n ≤ 2 ^ 53 by omega), ofNat, Nat.cast_add]
  rfl

lemma ofNat_mul_ofNat {m n : Nat} (hn : 0 < n) (hn' : n ≤ 2 ^ 53) (h : m * n ≤ 2 ^ 53) :
    ofNat m * ofNat n = ofNat (m * n) := by
  have hm : m ≤ 2 ^ 53 := (Nat.le_mul_of_pos_right m hn).trans h
  rw [ofNat_eq hm, ofNat_eq hn', ofNat, Nat.cast_mul]
  rfl

/-! ### Lower bounds -/

/-- A number that is not below a natural number. -/
def AtLeast : Number → Nat → Prop
  | finite q, n => n ≤ q
  | infinite negative, _ => negative = false
  | nan, _ => False

variable {x y : Number} {m n : Nat} {q : ℚ}

lemma AtLeast.ne_nan (h : x.AtLeast n) : x ≠ nan := by
  rintro rfl
  exact h

lemma AtLeast.isPositive (h : x.AtLeast 1) : x.isPositive = true := by
  cases x with
  | nan => exact absurd h id
  | infinite negative =>
    obtain rfl : negative = false := h
    rfl
  | finite q =>
    have hq : (1 : ℚ) ≤ q := by simpa [AtLeast] using h
    exact decide_eq_true (lt_of_lt_of_le one_pos hq)

/-- Rounding crosses neither zero nor one. -/
lemma atLeast_round (hn : n ≤ 1) (h : (n : ℚ) ≤ q) : (round q).AtLeast n := by
  rcases (n.cast_nonneg.trans h).eq_or_lt with rfl | hq
  · exact h
  rw [round_of_pos hq]
  split
  · rfl
  have hvalue := natAbs_div_den hq.le
  change (n : ℚ) ≤ nearestSize q.num.natAbs q.den
  generalize hplace : lastPlace q.num.natAbs q.den = e
  obtain rfl | rfl : n = 0 ∨ n = 1 := by omega
  · have hzero := le_nearestSize (k := 0) q.den_pos (n := q.num.natAbs) (by
      rw [hvalue, Nat.cast_zero, zero_mul]
      exact hq.le)
    simpa using hzero
  · rcases le_or_gt e 0 with he | he
    · obtain ⟨k, hk⟩ := Int.eq_ofNat_of_zero_le (show 0 ≤ -e by omega)
      have hone : ((2 ^ k : ℕ) : ℚ) * 2 ^ e = (1 : ℕ) := by
        rw [show e = -(k : ℤ) by omega, Nat.cast_pow, Nat.cast_ofNat, zpow_neg, zpow_natCast,
          Nat.cast_one]
        exact mul_inv_cancel₀ (by positivity)
      have hle := le_nearestSize (k := 2 ^ k) (n := q.num.natAbs) q.den_pos (by
        rw [hplace, hone, hvalue]
        exact h)
      rwa [hplace, hone] at hle
    · have hn : 0 < q.num.natAbs := Int.natAbs_pos.mpr (Rat.num_pos.mpr hq).ne'
      obtain ⟨-, -, hfine | hge⟩ := lastPlace_spec hn q.den_pos
      · omega
      rw [hplace] at hge
      have hle := le_nearestSize (k := 1) (n := q.num.natAbs) q.den_pos (by
        rw [hplace, Nat.cast_one, one_mul]
        exact (zpow_le_zpow_right₀ one_le_two (by omega)).trans hge)
      rw [hplace, Nat.cast_one, one_mul] at hle
      refine le_trans ?_ hle
      rw [Nat.cast_one]
      exact one_le_zpow₀ one_le_two he.le

lemma atLeast_ofNat (hn : n ≤ 1) (h : n ≤ m) : (ofNat m).AtLeast n :=
  atLeast_round hn (by exact_mod_cast h)

lemma AtLeast.add {a b : Nat} (hx : x.AtLeast a) (hy : y.AtLeast b) (hn : n ≤ 1)
    (h : n ≤ a + b) : (x + y).AtLeast n := by
  cases x with
  | nan => exact absurd hx id
  | infinite negative =>
    obtain rfl : negative = false := hx
    cases y with
    | nan => exact absurd hy id
    | infinite negative =>
      obtain rfl : negative = false := hy
      rfl
    | finite q => rfl
  | finite q =>
    cases y with
    | nan => exact absurd hy id
    | infinite negative => exact hy
    | finite r =>
      refine atLeast_round hn ?_
      calc (n : ℚ) ≤ ((a + b : ℕ) : ℚ) := by exact_mod_cast h
        _ = a + b := Nat.cast_add a b
        _ ≤ q + r := add_le_add hx hy

lemma AtLeast.mul_ofNat (hx : x.AtLeast n) (hn : n ≤ 1) (hm : 0 < m) (hm' : m ≤ 2 ^ 53) :
    (x * ofNat m).AtLeast n := by
  have hpos : (0 : ℚ) < m := by exact_mod_cast hm
  rw [ofNat_eq hm']
  cases x with
  | nan => exact absurd hx id
  | infinite negative =>
    obtain rfl : negative = false := hx
    change (if (m : ℚ) = 0 then nan else infinite (false != decide ((m : ℚ) < 0))).AtLeast n
    rw [if_neg hpos.ne', decide_eq_false (not_lt.mpr hpos.le)]
    rfl
  | finite q =>
    have hq : (n : ℚ) ≤ q := hx
    have hone : (1 : ℚ) ≤ m := by exact_mod_cast hm
    exact atLeast_round hn (hq.trans (le_mul_of_one_le_right (n.cast_nonneg.trans hq) hone))

end Number

end EdgeCaller

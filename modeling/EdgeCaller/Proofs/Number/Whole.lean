import Mathlib.Data.Rat.Floor
import EdgeCaller.Number.Basic
/-!
Whole numbers.

Rounding leaves a whole number whole, however large it is, so a sum or a product of whole numbers is
whole too.
-/

namespace EdgeCaller

namespace Number

/-- A number that is no fraction: an integer, or none at all. -/
def IsWhole (x : Number) : Prop := ∀ q, x = finite q → ∃ n : ℤ, q = n

/-- A number that is not above a natural number. -/
def AtMost : Number → Nat → Prop
  | finite q, n => q ≤ n
  | infinite negative, _ => negative = true
  | nan, _ => False

lemma roundDiv_one (n : Nat) : roundDiv n 1 = n := by
  simp [roundDiv, Nat.mod_one]

/-- What can come of rounding: zero, an infinity, or a number of the size that is nearest. -/
lemma round_cases (q : Rat) : round q = finite 0 ∨ (∃ negative, round q = infinite negative) ∨
    round q = finite (nearestSize q.num.natAbs q.den) ∨
    round q = finite (-nearestSize q.num.natAbs q.den) := by
  simp only [round]
  by_cases hzero : q.num = 0
  · exact .inl (if_pos hzero)
  · rw [if_neg hzero]
    by_cases hbound : overflow ≤ nearestSize q.num.natAbs q.den
    · exact .inr (.inl ⟨_, if_pos hbound⟩)
    · rw [if_neg hbound]
      by_cases hneg : q < 0
      · exact .inr (.inr (.inr (by rw [if_pos hneg])))
      · exact .inr (.inr (.inl (by rw [if_neg hneg])))

/-- In whichever units a natural number is counted, its size is a natural number. -/
lemma exists_nat_inUnits (n : Nat) (e : ℤ) :
    ∃ k : Nat, (roundDiv (inUnits n 1 e).1 (inUnits n 1 e).2 : Rat) * pow2 e = k := by
  by_cases he : 0 ≤ e
  · rw [inUnits, pow2, if_pos he, if_pos he]
    exact ⟨_, (Nat.cast_mul _ _).symm⟩
  · have hpos : ((2 ^ (-e).toNat : Nat) : Rat) ≠ 0 := Nat.cast_ne_zero.mpr (Nat.two_pow_pos _).ne'
    refine ⟨n, ?_⟩
    rw [inUnits, pow2, if_neg he, if_neg he, roundDiv_one, Rat.mkRat_eq_div, Nat.cast_mul,
      Int.cast_one, mul_assoc]
    exact (congrArg _ (mul_one_div_cancel hpos)).trans (mul_one _)

lemma exists_nat_nearestSize (n : Nat) : ∃ k : Nat, nearestSize n 1 = k :=
  exists_nat_inUnits n (lastPlace n 1)

/-- Rounding leaves a whole number whole. -/
lemma isWhole_round (n : ℤ) : (round n).IsWhole := by
  intro q hq
  obtain ⟨k, hk⟩ := exists_nat_nearestSize n.natAbs
  rcases round_cases n with h | ⟨negative, h⟩ | h | h <;> rw [h] at hq
  · exact ⟨0, by simpa using (finite.inj hq).symm⟩
  · simp at hq
  · rw [Rat.num_intCast, Rat.den_intCast, hk] at hq
    exact ⟨k, by simpa using (finite.inj hq).symm⟩
  · rw [Rat.num_intCast, Rat.den_intCast, hk] at hq
    exact ⟨-k, by simpa using (finite.inj hq).symm⟩

lemma isWhole_ofNat (n : Nat) : (ofNat n).IsWhole := by
  simpa [ofNat] using isWhole_round n

variable {x y : Number} {q : Rat}

/-- A sum is finite only if both terms are. -/
lemma exists_of_add_eq_finite (h : x + y = finite q) :
    ∃ s t, x = finite s ∧ y = finite t ∧ round (s + t) = finite q := by
  change add x y = finite q at h
  unfold add at h
  split at h
  · simp at h
  · simp at h
  · split at h <;> simp at h
  · simp at h
  · simp at h
  · next s t => exact ⟨s, t, rfl, rfl, h⟩

/-- A product is finite only if both factors are. -/
lemma exists_of_mul_eq_finite (h : x * y = finite q) :
    ∃ s t, x = finite s ∧ y = finite t ∧ round (s * t) = finite q := by
  change mul x y = finite q at h
  unfold mul at h
  split at h
  · simp at h
  · simp at h
  · simp at h
  · split at h <;> simp at h
  · split at h <;> simp at h
  · next s t => exact ⟨s, t, rfl, rfl, h⟩

lemma IsWhole.add (hx : x.IsWhole) (hy : y.IsWhole) : (x + y).IsWhole := by
  intro q hq
  obtain ⟨s, t, rfl, rfl, hround⟩ := exists_of_add_eq_finite hq
  obtain ⟨n, rfl⟩ := hx s rfl
  obtain ⟨m, rfl⟩ := hy t rfl
  rw [← Int.cast_add] at hround
  exact isWhole_round (n + m) q hround

lemma IsWhole.mul (hx : x.IsWhole) (hy : y.IsWhole) : (x * y).IsWhole := by
  intro q hq
  obtain ⟨s, t, rfl, rfl, hround⟩ := exists_of_mul_eq_finite hq
  obtain ⟨n, rfl⟩ := hx s rfl
  obtain ⟨m, rfl⟩ := hy t rfl
  rw [← Int.cast_mul] at hround
  exact isWhole_round (n * m) q hround

lemma isWhole_floor (x : Number) : x.floor.IsWhole := by
  cases x with
  | nan | infinite a =>
    intro q hq
    simp [floor] at hq
  | finite q => exact isWhole_round q.floor

/-- A positive whole number is one at least. -/
lemma IsWhole.one_le (hq : (finite q).IsWhole) (hpos : 0 < q) : 1 ≤ q := by
  obtain ⟨n, rfl⟩ := hq q rfl
  have hn : 0 < n := Int.cast_pos.mp hpos
  exact_mod_cast hn

lemma AtMost.mono {m n : Nat} (h : x.AtMost m) (hmn : m ≤ n) : x.AtMost n := by
  cases x with
  | nan => exact h
  | infinite negative => exact h
  | finite q =>
    have hcast : (m : Rat) ≤ n := Nat.cast_le.mpr hmn
    exact le_trans h hcast

end Number

end EdgeCaller

/-!
# Numbers

All arithmetic of the sender is done on binary floating-point numbers of 53 bits. A number is
kept here as the exact rational it stands for, or as one of the two infinities, or as the result
of an operation without a value. Each operation is exact arithmetic followed by `round`, which
takes a rational to the nearest number, a tie going to the even neighbour. The sign of a zero is
not kept: nothing the sender computes or prints depends on it.
-/

namespace EdgeCaller

/-- A floating-point number. -/
inductive Number where
  | nan
  | infinite (negative : Bool)
  | finite (q : Rat)
  deriving DecidableEq, Repr

namespace Number

/-- The quotient `n / d` rounded to the nearest natural number, a tie going to the even one. -/
def roundDiv (n d : Nat) : Nat :=
  let q := n / d
  let r := n % d
  if 2 * r < d then q
  else if d < 2 * r then q + 1
  else if q % 2 = 0 then q else q + 1

/-- The fraction `n / d` in units of `2 ^ e`, again as a fraction. -/
def inUnits (n d : Nat) (e : Int) : Nat × Nat :=
  if 0 ≤ e then (n, d * Nat.pow 2 e.toNat) else (n * Nat.pow 2 (-e).toNat, d)

/-- The least mantissa of 53 binary digits. -/
def leastMantissa : Nat := 0x10000000000000

/-- The exponent of the last place that a number near `n / d` has: it leaves 53 binary digits
before the point, and is never below that of the least number. -/
def lastPlace (n d : Nat) : Int :=
  let e : Int := (n.log2 : Int) - d.log2 - 52
  let units := inUnits n d e
  max (if units.1 < units.2 * leastMantissa then e - 1 else e) (-1074)

/-- Two to an integer power. -/
def pow2 (e : Int) : Rat :=
  if 0 ≤ e then (Nat.pow 2 e.toNat : Rat) else mkRat 1 (Nat.pow 2 (-e).toNat)

/-- The mantissa and the exponent of the number nearest to `n / d`. -/
def nearest (n d : Nat) : Nat × Int :=
  let e := lastPlace n d
  let units := inUnits n d e
  (roundDiv units.1 units.2, e)

/-- The size of the number nearest to `n / d`, where there is no largest number. -/
def nearestSize (n d : Nat) : Rat :=
  let parts := nearest n d
  (parts.1 : Rat) * pow2 parts.2

/-- The midpoint above the largest number, as it is rounded. -/
def overflow : Rat := (Nat.pow 2 1024 : Rat)

/-- The number nearest to a rational. From the midpoint above the largest number on, that is an
infinity. -/
def round (q : Rat) : Number :=
  if q.num = 0 then finite 0
  else
    let size := nearestSize q.num.natAbs q.den
    if overflow ≤ size then infinite (decide (q < 0))
    else finite (if q < 0 then -size else size)

/-- The number nearest to an integer. -/
def ofInt (n : Int) : Number := round n

/-- The number nearest to a natural number. -/
def ofNat (n : Nat) : Number := round (n : Rat)

instance (n : Nat) : OfNat Number n := ⟨ofNat n⟩

/-- The sum. Two infinities of opposite sign have none. -/
def add : Number → Number → Number
  | nan, _ | _, nan => nan
  | infinite a, infinite b => if a = b then infinite a else nan
  | infinite a, finite _ | finite _, infinite a => infinite a
  | finite a, finite b => round (a + b)

/-- The product. An infinity times zero has none. -/
def mul : Number → Number → Number
  | nan, _ | _, nan => nan
  | infinite a, infinite b => infinite (a != b)
  | infinite a, finite q | finite q, infinite a =>
    if q = 0 then nan else infinite (a != decide (q < 0))
  | finite a, finite b => round (a * b)

instance : Add Number := ⟨add⟩
instance : Mul Number := ⟨mul⟩

/-- The greatest whole number that is not above the given one. -/
def floor : Number → Number
  | finite q => round (q.floor : Int)
  | x => x

/-- The whole part, the fraction cut off towards zero. -/
def truncate : Number → Number
  | finite q => round ((if q < 0 then q.ceil else q.floor : Int) : Rat)
  | x => x

/-- Whether a number is above zero. -/
def isPositive : Number → Bool
  | nan => false
  | infinite negative => !negative
  | finite q => decide (0 < q)

/-- The integer that a number stands for, if it is one of at most 53 bits. -/
def toSafeInt? : Number → Option Int
  | finite q => if q.den = 1 ∧ q.num.natAbs < 2 * leastMantissa then some q.num else none
  | _ => none

end Number

end EdgeCaller

import EdgeCaller.Number.Basic
/-!
# The 64-bit form of a number

One sign bit, eleven bits of exponent and 52 bits of mantissa.
-/

namespace EdgeCaller.Number

/-- The 63 bits below the sign of a finite number of this size. -/
def sizeBits (q : Rat) : Nat :=
  if q = 0 then 0
  else
    let (m, e) := nearest q.num.natAbs q.den
    if m < leastMantissa then m else (e + 1075).toNat * leastMantissa + (m - leastMantissa)

/-- The bit of the sign. -/
def signBit : Nat := 0x8000000000000000

/-- The bits of a number, as a natural number below `2 ^ 64`. -/
def toBits : Number → Nat
  | nan => 0x7ff8000000000000
  | infinite negative => (if negative then signBit else 0) + 0x7ff0000000000000
  | finite q => (if q < 0 then signBit else 0) + sizeBits q

/-- The bits of a number as sixteen hexadecimal digits. -/
def toHex (x : Number) : String :=
  let ds := Nat.toDigits 16 x.toBits
  String.ofList (List.replicate (16 - ds.length) '0' ++ ds)

end EdgeCaller.Number

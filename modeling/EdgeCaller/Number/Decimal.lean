import EdgeCaller.Number.Basic
/-!
# Numbers from decimal digits

A written number is read exactly and then rounded once, so every text stands for the number
nearest to the value it denotes, however many digits it has.
-/

namespace EdgeCaller

/-- Whether a character is one of the ten ASCII digits. -/
def isDigit (c : Char) : Bool := '0' ≤ c && c ≤ '9'

/-- The value of a digit. -/
def digitValue (c : Char) : Nat := c.toNat - '0'.toNat

/-- The value of a digit in a base up to sixteen. -/
def digitIn? (base : Nat) (c : Char) : Option Nat :=
  let n :=
    if isDigit c then c.toNat - '0'.toNat
    else if 'a' ≤ c ∧ c ≤ 'f' then c.toNat - 'a'.toNat + 10
    else if 'A' ≤ c ∧ c ≤ 'F' then c.toNat - 'A'.toNat + 10
    else base
  if n < base then some n else none

/-- The natural number that a row of digits denotes. -/
def natOfDigits (ds : List Char) : Nat := ds.foldl (fun n c => 10 * n + digitValue c) 0

/-- The decimal digits of a natural number, without leading zeros. -/
def digitsOfNat (n : Nat) : List Char := Nat.toDigits 10 n

/-- A sign, if there is one: whether it is a minus, and what follows it. -/
def takeSign : List Char → Bool × List Char
  | '-' :: cs => (true, cs)
  | '+' :: cs => (false, cs)
  | cs => (false, cs)

namespace Number

/-- Ten to an integer power. -/
def pow10 (e : Int) : Rat :=
  if 0 ≤ e then (Nat.pow 10 e.toNat : Rat) else mkRat 1 (Nat.pow 10 (-e).toNat)

/-- The number nearest to `m · 10 ^ e`. A value of more than 310 places before the point is beyond
every number, and one that begins past the 325th place after it is nearer to zero than to any
other; neither power is computed. -/
def ofDecimal (m : Nat) (e : Int) : Number :=
  if m = 0 then finite 0
  else
    let places : Int := (digitsOfNat m).length + e
    if 310 < places then infinite false
    else if places < -325 then finite 0
    else round ((m : Rat) * pow10 e)

/-- The opposite number. -/
def neg : Number → Number
  | nan => nan
  | infinite negative => infinite (!negative)
  | finite q => finite (-q)

/-- The number with these digits before and after the point, and this exponent of ten. -/
def ofParts (negative : Bool) (whole fraction : List Char) (exponent : Int) : Number :=
  let x := ofDecimal (natOfDigits (whole ++ fraction)) (exponent - fraction.length)
  if negative then x.neg else x

/-- An exponent of ten with an optional sign, and what follows it. -/
def takeExponent? (cs : List Char) : Option (Int × List Char) :=
  let (negative, rest) := takeSign cs
  let ds := rest.takeWhile isDigit
  if ds.isEmpty then none
  else
    let n : Int := natOfDigits ds
    some (if negative then -n else n, rest.dropWhile isDigit)

/-- A fraction and an exponent, each optional, after a row of digits. -/
def takeTail? (negative : Bool) (whole cs : List Char) : Option (Number × List Char) := do
  let (fraction, rest) ← match cs with
    | '.' :: r =>
      let ds := r.takeWhile isDigit
      if ds.isEmpty then none else some (ds, r.dropWhile isDigit)
    | r => some ([], r)
  match rest with
  | 'e' :: r | 'E' :: r => do
    let (exponent, rest) ← takeExponent? r
    some (ofParts negative whole fraction exponent, rest)
  | rest => some (ofParts negative whole fraction 0, rest)

/-- A number as data formats write it, and what follows it: a sign or none, digits without a
superfluous leading zero, a fraction and an exponent. -/
def take? (cs : List Char) : Option (Number × List Char) :=
  let (negative, rest) := match cs with
    | '-' :: r => (true, r)
    | r => (false, r)
  match rest with
  | '0' :: r => takeTail? negative ['0'] r
  | rest =>
    let ds := rest.takeWhile isDigit
    if ds.isEmpty then none else takeTail? negative ds (rest.dropWhile isDigit)

end Number

end EdgeCaller

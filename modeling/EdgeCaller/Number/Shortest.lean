import EdgeCaller.Number.Decimal
/-!
# Writing numbers

A number is written with the fewest digits that read back as the same number, and of those with
the ones nearest to it, the even one of two that are equally near. For one, two, up to seventeen
digits the two neighbours of the value on the grid of that many digits are tried; the first grid
with a neighbour that reads back wins.
-/

namespace EdgeCaller.Number

/-- The exponent of the leading decimal digit of `n / d`. -/
def leadingPlace (n d : Nat) : Int :=
  let k : Int := (digitsOfNat n).length - (digitsOfNat d).length
  if pow10 k ≤ mkRat n d then k else k - 1

/-- A neighbour of `q` on the grid of multiples of `10 ^ u` that reads back as `q`: the nearer of
two, and the even one of two that are equally near. -/
def onGrid? (q : Rat) (u : Int) : Option Nat :=
  let x := q / pow10 u
  let below := x.floor.toNat
  let rest := x - (below : Rat)
  let hits (c : Nat) : Bool := round ((c : Rat) * pow10 u) == finite q
  match hits below, hits (below + 1) with
  | true, true =>
    some (if 2 * rest < 1 ∨ (2 * rest = 1 ∧ below % 2 = 0) then below else below + 1)
  | true, false => some below
  | false, true => some (below + 1)
  | false, false => none

/-- Tries the grids of `digits` digits and more, `tries` of them. -/
def firstGrid (q : Rat) (lead : Int) (digits : Nat) : Nat → Nat × Int
  | 0 => (0, 0)
  | tries + 1 =>
    let u := lead - digits + 1
    match onGrid? q u with
    | some c => (c, u)
    | none => firstGrid q lead (digits + 1) tries

/-- The shortest decimal `c · 10 ^ u` that reads back as the positive number `q`. Seventeen digits
are always enough. -/
def shortest (q : Rat) : Nat × Int :=
  firstGrid q (leadingPlace q.num.natAbs q.den) 1 17

/-- Where a layout changes from positional notation to an exponent. -/
structure Layout where
  /-- The most digits before the point that are written out. -/
  whole : Int
  /-- The most zeros after the point that are written out. -/
  zeros : Int

/-- Up to 21 digits before the point and up to five zeros after it are written out. -/
def standardLayout : Layout := ⟨21, 5⟩

/-- The digits `ds`, the point standing after the first `point` of them, laid out. -/
def Layout.write (layout : Layout) (ds : List Char) (point : Int) : List Char :=
  if 0 < point ∧ point ≤ layout.whole then
    let before := point.toNat
    if ds.length ≤ before then ds ++ List.replicate (before - ds.length) '0'
    else ds.take before ++ '.' :: ds.drop before
  else if -layout.zeros ≤ point ∧ point ≤ 0 then
    '0' :: '.' :: List.replicate (-point).toNat '0' ++ ds
  else
    let mantissa := match ds with
      | d :: r@(_ :: _) => d :: '.' :: r
      | ds => ds
    let e := point - 1
    mantissa ++ 'e' :: (if 0 ≤ e then '+' else '-') :: digitsOfNat e.natAbs

/-- A row of digits without its trailing zeros. -/
def dropTrailingZeros (ds : List Char) : List Char := (ds.reverse.dropWhile (· == '0')).reverse

/-- A positive finite number, written. -/
def writePositive (q : Rat) : List Char :=
  let (c, u) := shortest q
  let ds := digitsOfNat c
  standardLayout.write (dropTrailingZeros ds) (ds.length + u)

/-- A number, written. -/
def toText : Number → String
  | nan => "NaN"
  | infinite negative => if negative then "-Infinity" else "Infinity"
  | finite q =>
    if q = 0 then "0"
    else if q < 0 then String.ofList ('-' :: writePositive (-q))
    else String.ofList (writePositive q)

instance : ToString Number := ⟨toText⟩

end EdgeCaller.Number

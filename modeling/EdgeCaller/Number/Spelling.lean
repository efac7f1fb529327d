import EdgeCaller.Text.Blank
import EdgeCaller.Number.Decimal
/-!
# Spellings of numbers

Data formats write a number in one strict way; a text that is asked for its number may be spelled
more freely. Blanks around it do not count, and nothing at all is zero. After `0b`, `0o` or `0x`
come the digits of another base. A decimal may have a sign, superfluous zeros, no digits on one side
of the point, and an exponent, and an infinity is spelled by its name. Any other text names no
number.
-/

namespace EdgeCaller

/-- The base that the start of a text announces, and the digits that follow it. -/
def announced? : List Char → Option (Nat × List Char)
  | '0' :: c :: ds =>
    if c = 'b' ∨ c = 'B' then some (2, ds)
    else if c = 'o' ∨ c = 'O' then some (8, ds)
    else if c = 'x' ∨ c = 'X' then some (16, ds)
    else none
  | _ => none

/-- The natural number that a row of digits denotes in a base. -/
def natIn? (base : Nat) (ds : List Char) : Option Nat :=
  if ds.isEmpty then none
  else ds.foldlM (fun n c => (digitIn? base c).map fun d => base * n + d) 0

namespace Number

/-- A decimal without its sign. -/
def decimal? (negative : Bool) (cs : List Char) : Option Number :=
  let whole := cs.takeWhile isDigit
  let (fraction, rest) := match cs.dropWhile isDigit with
    | '.' :: r => (r.takeWhile isDigit, r.dropWhile isDigit)
    | r => ([], r)
  if whole.isEmpty ∧ fraction.isEmpty then none
  else
    match rest with
    | [] => some (ofParts negative whole fraction 0)
    | 'e' :: r | 'E' :: r =>
      match takeExponent? r with
      | some (exponent, []) => some (ofParts negative whole fraction exponent)
      | _ => none
    | _ => none

/-- A decimal or the name of an infinity, with a sign or without one. -/
def signed? (cs : List Char) : Option Number :=
  let (negative, rest) := takeSign cs
  if rest = "Infinity".toList then some (infinite negative) else decimal? negative rest

/-- The number that a text names. -/
def ofText (s : String) : Number :=
  let cs := Text.trim s.toList
  if cs.isEmpty then 0
  else
    match announced? cs with
    | some (base, ds) => ((natIn? base ds).map ofNat).getD nan
    | none => (signed? cs).getD nan

end Number

/-- The integer that a text names, of any size. Neither a point nor an exponent is allowed. -/
def integerOfText? (s : String) : Option Int :=
  let cs := Text.trim s.toList
  if cs.isEmpty then some 0
  else
    match announced? cs with
    | some (base, ds) => (natIn? base ds).map Int.ofNat
    | none =>
      let (negative, ds) := takeSign cs
      (natIn? 10 ds).map fun n => if negative then -(n : Int) else n

end EdgeCaller

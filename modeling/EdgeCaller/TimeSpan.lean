import EdgeCaller.Text.Blank
import EdgeCaller.Number.Decimal
/-!
# Time spans

The delay between two calls is written as a number of days, or as `hh:mm` with days before it and
seconds and a fraction of a second after it. `Denotes` is the grammar, `parse?` reads it. A span
is worth whole milliseconds: the fraction is cut off, not rounded.

The length is computed in floating point, so that a row of day digits of any length has one. Up to
`2 ^ 53` milliseconds it agrees with `TimeSpan.exact`, the same sum over the natural numbers.
-/

namespace EdgeCaller

/-- A time span, as written. -/
inductive TimeSpan where
  /-- A bare count of days. -/
  | wholeDays (days : Nat)
  /-- Days, hours, minutes and seconds, and the digits of a fraction of a second. -/
  | clock (days hours minutes seconds : Nat) (fraction : List Char)
  deriving DecidableEq, Repr

namespace TimeSpan

/-- A row of `low` to `high` digits and nothing else. -/
def IsField (low high : Nat) (ds : List Char) : Prop :=
  low ≤ ds.length ∧ ds.length ≤ high ∧ ∀ c ∈ ds, isDigit c = true

/-- The part of a clock after the hours, from the colon on: minutes, then seconds if any, then a
fraction if any. -/
inductive TailDenotes : List Char → Nat → Nat → List Char → Prop where
  | minutes {m : List Char} : IsField 1 2 m → natOfDigits m ≤ 59 →
      TailDenotes (':' :: m) (natOfDigits m) 0 []
  | seconds {m s : List Char} : IsField 1 2 m → natOfDigits m ≤ 59 →
      IsField 1 2 s → natOfDigits s ≤ 59 →
      TailDenotes (':' :: m ++ ':' :: s) (natOfDigits m) (natOfDigits s) []
  | fraction {m s f : List Char} : IsField 1 2 m → natOfDigits m ≤ 59 →
      IsField 1 2 s → natOfDigits s ≤ 59 → IsField 1 7 f →
      TailDenotes (':' :: m ++ ':' :: s ++ '.' :: f) (natOfDigits m) (natOfDigits s) f

/-- The grammar of time spans: what a text without blanks around it denotes. -/
inductive Denotes : List Char → TimeSpan → Prop where
  | wholeDays {d : List Char} : d ≠ [] → (∀ c ∈ d, isDigit c = true) →
      Denotes d (.wholeDays (natOfDigits d))
  | clock {h t f : List Char} {m s : Nat} : IsField 1 2 h → natOfDigits h ≤ 23 →
      TailDenotes t m s f → Denotes (h ++ t) (.clock 0 (natOfDigits h) m s f)
  | daysAndClock {d h t f : List Char} {m s : Nat} : d ≠ [] → (∀ c ∈ d, isDigit c = true) →
      IsField 1 2 h → natOfDigits h ≤ 23 → TailDenotes t m s f →
      Denotes (d ++ '.' :: h ++ t) (.clock (natOfDigits d) (natOfDigits h) m s f)

/-- The value of a field of one or two digits that is not above `top`. -/
def field? (top : Nat) (ds : List Char) : Option Nat :=
  if ds.length = 1 ∨ ds.length = 2 then
    if natOfDigits ds ≤ top then some (natOfDigits ds) else none
  else none

/-- A fraction of one to seven digits. -/
def fraction? (cs : List Char) : Option (List Char) :=
  if 1 ≤ cs.length ∧ cs.length ≤ 7 ∧ cs.all isDigit then some cs else none

/-- Seconds with a fraction or without one. -/
def seconds? (cs : List Char) : Option (Nat × List Char) := do
  let s ← field? 59 (cs.takeWhile isDigit)
  match cs.dropWhile isDigit with
  | [] => some (s, [])
  | '.' :: r => do
    let f ← fraction? r
    some (s, f)
  | _ => none

/-- Minutes and what follows them. -/
def minutes? (cs : List Char) : Option (Nat × Nat × List Char) := do
  let m ← field? 59 (cs.takeWhile isDigit)
  match cs.dropWhile isDigit with
  | [] => some (m, 0, [])
  | ':' :: r => do
    let (s, f) ← seconds? r
    some (m, s, f)
  | _ => none

/-- The clock that begins with a row of hour digits, its remaining text given apart. -/
def clock? (days : Nat) (hours rest : List Char) : Option TimeSpan := do
  let h ← field? 23 hours
  match rest with
  | ':' :: r => do
    let (m, s, f) ← minutes? r
    some (.clock days h m s f)
  | _ => none

/-- Reads a text without blanks around it. -/
def ofChars? (cs : List Char) : Option TimeSpan :=
  let ds := cs.takeWhile isDigit
  match cs.dropWhile isDigit with
  | [] => if ds.isEmpty then none else some (.wholeDays (natOfDigits ds))
  | '.' :: r =>
    if ds.isEmpty then none
    else clock? (natOfDigits ds) (r.takeWhile isDigit) (r.dropWhile isDigit)
  | rest => clock? 0 ds rest

/-- The time span that a text denotes, blanks around it aside. -/
def parse? (s : String) : Option TimeSpan := ofChars? (Text.trim s.toList)

/-- Milliseconds in a day. -/
def dayLength : Nat := 24 * 60 * 60 * 1000

/-- The whole milliseconds in a fraction of a second. -/
def fractionLength (fraction : List Char) : Number :=
  if fraction.isEmpty then 0
  else (Number.ofParts false [] fraction 0 * 1000).floor

/-- The length in milliseconds. -/
def milliseconds : TimeSpan → Number
  | wholeDays d => Number.ofNat d * Number.ofNat dayLength
  | clock d h m s f =>
    (((Number.ofNat d * 24 + Number.ofNat h) * 60 + Number.ofNat m) * 60 + Number.ofNat s) * 1000
      + fractionLength f

/-- The length in milliseconds, computed over the natural numbers. -/
def exact : TimeSpan → Nat
  | wholeDays d => d * dayLength
  | clock d h m s f =>
    d * dayLength + h * 3600000 + m * 60000 + s * 1000
      + natOfDigits f * 1000 / Nat.pow 10 f.length

/-- The milliseconds that a text denotes, if it is a time span. -/
def read? (s : String) : Option Number := (parse? s).map milliseconds

end TimeSpan

end EdgeCaller

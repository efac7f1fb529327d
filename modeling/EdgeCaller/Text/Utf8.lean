import EdgeCaller.Text.Units
/-!
# Reading bytes as text

A file is read as UTF-8. Bytes that form no character are not an error: each longest run of bytes
that begins some character and cannot be continued becomes one replacement character, and the byte
that broke it is read afresh. A byte order mark at the start stays.

In the other direction a half that stands alone cannot be written. It becomes a replacement
character, too.
-/

namespace EdgeCaller.Text.Utf8

/-- What stands for bytes that form no character. -/
def replacement : Char := '\ufffd'

/-- A character part way through: the bits so far, the count of bytes still to come, and the
range the next byte must lie in. -/
structure Pending where
  bits : Nat
  missing : Nat
  low : Nat
  high : Nat

/-- What the first byte of a character announces. -/
inductive Lead where
  | whole (c : Char)
  | partway (p : Pending)
  | bad

/-- The reading of a first byte. The ranges rule out overlong forms, surrogates and values past
the last character. -/
def lead (b : Nat) : Lead :=
  if b < 0x80 then .whole (Char.ofNat b)
  else if b < 0xc2 then .bad
  else if b < 0xe0 then .partway ⟨b - 0xc0, 1, 0x80, 0xbf⟩
  else if b < 0xf0 then
    .partway ⟨b - 0xe0, 2, if b == 0xe0 then 0xa0 else 0x80, if b == 0xed then 0x9f else 0xbf⟩
  else if b < 0xf5 then
    .partway ⟨b - 0xf0, 3, if b == 0xf0 then 0x90 else 0x80, if b == 0xf4 then 0x8f else 0xbf⟩
  else .bad

/-- The characters a first byte gives at once, and what it leaves open. -/
def begin (b : Nat) : List Char × Option Pending :=
  match lead b with
  | .whole c => ([c], none)
  | .partway p => ([], some p)
  | .bad => ([replacement], none)

/-- One byte: it continues the character that is open, or it breaks that character off and is
read as a first byte. -/
def step (open? : Option Pending) (b : Nat) : List Char × Option Pending :=
  match open? with
  | none => begin b
  | some p =>
    if p.low ≤ b ∧ b ≤ p.high then
      let bits := p.bits * 64 + (b - 0x80)
      if p.missing = 1 then (ofChar (Char.ofNat bits), none)
      else ([], some ⟨bits, p.missing - 1, 0x80, 0xbf⟩)
    else
      let (cs, next) := begin b
      (replacement :: cs, next)

/-- Reads on from a character that may be open; one left open at the end is broken off. -/
def decodeFrom (open? : Option Pending) : List Nat → List Char
  | [] => if open?.isSome then [replacement] else []
  | b :: bs =>
    let (cs, next) := step open? b
    cs ++ decodeFrom next bs

/-- The text of a list of bytes. -/
def decode (bytes : List Nat) : String := String.ofList (decodeFrom none bytes)

/-- The characters that can be written for a row of characters. -/
def writable : List Char → List Char
  | [] => []
  | [c] => [if (half? c).isSome then replacement else c]
  | c :: d :: cs =>
    match pair? c d with
    | some e => e :: writable cs
    | none => (if (half? c).isSome then replacement else c) :: writable (d :: cs)

end EdgeCaller.Text.Utf8

/-!
# Letter case

Names of transports and of log levels are compared without regard to letter case. Such a name is
ASCII, so all that matters of a text's lower case is which of its characters become ASCII: the
capitals A to Z, and the Kelvin sign, whose lower case is `k`. Every other character outside ASCII
has a lower case that no name contains, and stays as it is here.
-/

namespace EdgeCaller.Text

/-- The lower case of a capital letter and of the Kelvin sign; any other character unchanged. -/
def lowerChar (c : Char) : Char :=
  if c == '\u212a' then 'k' else c.toLower

/-- A text in lower case, as far as a comparison with an ASCII name can tell. -/
def lower (cs : List Char) : List Char := cs.map lowerChar

@[simp] theorem lower_nil : lower [] = [] := rfl

@[simp] theorem length_lower (cs : List Char) : (lower cs).length = cs.length := by
  simp [lower]

/-- Two characters that agree up to ASCII letter case. -/
def sameLetter (a b : Char) : Bool := a.toLower == b.toLower

end EdgeCaller.Text

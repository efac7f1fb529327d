import EdgeCaller.Text.Blank
/-!
# Recognising lines of an environment file

A recogniser is given a text and what to do with the rest of it, and tries its ways of reading in
a fixed order until what follows accepts the rest. `most` reads as many characters as it can and
gives them back one by one; `least` reads as few as it can and takes them one by one.

A line is a name, a sign and a value, the value optional. The sign is an equals sign with or
without blanks, or a colon with a blank after it. The value is a text between two quotes, in which
the same quote counts only with a backslash before it, or else everything up to a comment or the
end of the line.
-/

namespace EdgeCaller.EnvFile

/-- What is done with the rest of a text. -/
abbrev Rest (α : Type) := List Char → Option α

variable {α : Type}

/-- One character of a class. -/
def one (p : Char → Bool) (k : Rest α) : Rest α
  | [] => none
  | c :: cs => if p c then k cs else none

/-- Characters of a class, as many as what follows allows. -/
def most (p : Char → Bool) (k : Rest α) : Rest α
  | [] => k []
  | c :: cs => if p c then most p k cs <|> k (c :: cs) else k (c :: cs)

/-- Characters of a class, as few as what follows allows. -/
def least (p : Char → Bool) (k : Rest α) : Rest α
  | [] => k []
  | c :: cs => k (c :: cs) <|> if p c then least p k cs else none

/-- At least one character of a class, as many as what follows allows. -/
def several (p : Char → Bool) (k : Rest α) : Rest α := one p (most p k)

/-- The inside of a text between quotes. A backslash takes a quote after it along, or else is read
as any other character. -/
def inside (quote : Char) (k : Rest α) : Rest α
  | [] => k []
  | c :: cs =>
    if c = quote then k (c :: cs)
    else
      (match cs with
        | d :: ds => if c = '\\' ∧ d = quote then inside quote k ds else none
        | [] => none) <|> inside quote k cs <|> k (c :: cs)

/-- A text between quotes, blanks before it. -/
def quoted (quote : Char) (k : Rest α) : Rest α :=
  most Text.isBlank (one (· == quote) (inside quote (one (· == quote) k)))

/-- What was read of a text, given the rest of it. -/
def consumed (cs rest : List Char) : List Char := cs.take (cs.length - rest.length)

/-- The characters of a name. -/
def isNameChar (c : Char) : Bool := c.isAlphanum || c == '_' || c == '.' || c == '-'

/-- The characters of a value without quotes. -/
def isPlainChar (c : Char) : Bool := !(c == '#' || c == '\r' || c == '\n')

/-- A name, the value with its quotes, and the text after the line. -/
structure Line where
  name : List Char
  value : List Char
  rest : List Char

/-- A comment, if there is one. -/
def comment (k : Rest α) : Rest α
  | '#' :: cs => most (fun c => !Text.isLineEnd c) k cs <|> k ('#' :: cs)
  | cs => k cs

/-- Blanks, a comment, and the end of a line, which is not read. -/
def finish (name value : List Char) : Rest Line :=
  most Text.isBlank <| comment fun cs =>
    match cs with
    | [] => some ⟨name, value, []⟩
    | c :: rest => if Text.isLineEnd c then some ⟨name, value, c :: rest⟩ else none

/-- A value, if there is one, and the end of the line. -/
def valueAndEnd (name : List Char) : Rest Line := fun cs =>
  let close : Rest Line := fun rest => finish name (consumed cs rest) rest
  quoted '\'' close cs <|> quoted '"' close cs <|> quoted '\x60' close cs
    <|> several isPlainChar close cs <|> finish name [] cs

/-- The sign between a name and its value. -/
def sign (k : Rest α) : Rest α := fun cs =>
  most Text.isBlank (one (· == '=') (least Text.isBlank k)) cs
    <|> one (· == ':') (one Text.isBlank (least Text.isBlank k)) cs

/-- A name, a sign and a value. -/
def assignment : Rest Line := fun cs =>
  several isNameChar (fun rest => sign (valueAndEnd (consumed cs rest)) rest) cs

/-- A word that may stand before a name. -/
def export? : Rest Line := fun cs =>
  (if "export".toList.isPrefixOf cs then several Text.isBlank assignment (cs.drop 6) else none)
    <|> assignment cs

/-- A line that begins here, blank lines before it aside. -/
def line? : Rest Line := most Text.isBlank export?

end EdgeCaller.EnvFile

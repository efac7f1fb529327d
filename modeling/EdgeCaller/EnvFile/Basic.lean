import EdgeCaller.EnvFile.Recognizer
import EdgeCaller.Json.Basic
/-!
# Environment files

An environment file lists variables, one to a line. Lines that are no assignment are passed over.
The blanks around a value and its quotes are taken off; between double quotes an escaped line
feed or carriage return stands for the character.
-/

namespace EdgeCaller.EnvFile

/-- Every line end written in one of the two older ways becomes a line feed. -/
def unifyLineEnds : List Char → List Char
  | [] => []
  | '\r' :: '\n' :: cs => '\n' :: unifyLineEnds cs
  | '\r' :: cs => '\n' :: unifyLineEnds cs
  | c :: cs => c :: unifyLineEnds cs

/-- Whether a text ends with the end of a line. -/
def endsLine (cs : List Char) : Bool := (cs.getLast?.map Text.isLineEnd).getD true

/-- The assignments of a text, found from left to right. Each is looked for at the start of a line
only. -/
def scan (atStart : Bool) : List Char → List (List Char × List Char)
  | [] => []
  | c :: cs =>
    match if atStart then line? (c :: cs) else none with
    | none => scan (Text.isLineEnd c) cs
    | some found =>
      if found.rest.length ≤ cs.length then
        (found.name, found.value) :: scan (endsLine (consumed (c :: cs) found.rest)) found.rest
      else []
termination_by cs => cs.length

/-- Whether a character is one of the three quotes. -/
def isQuote (c : Char) : Bool := c == '\'' || c == '"' || c == '\x60'

/-- The text up to the last quote of this kind that ends a line, and the text after it. -/
def closing? (quote : Char) : List Char → Option (List Char × List Char)
  | [] => none
  | c :: cs =>
    match closing? quote cs with
    | some (before, after) => some (c :: before, after)
    | none =>
      if c = quote ∧ (cs.head?.map Text.isLineEnd).getD true then some ([], cs) else none

/-- Takes off the quotes that begin a line and end one. -/
def unquote (atStart : Bool) : List Char → List Char
  | [] => []
  | c :: cs =>
    match if atStart && isQuote c then closing? c cs else none with
    | none => c :: unquote (Text.isLineEnd c) cs
    | some (before, after) =>
      if after.length ≤ cs.length then before ++ unquote false after else []
termination_by cs => cs.length

/-- Puts characters in place of escaped line feeds and carriage returns. -/
def expand : List Char → List Char
  | [] => []
  | '\\' :: 'n' :: cs => '\n' :: expand cs
  | '\\' :: 'r' :: cs => '\r' :: expand cs
  | c :: cs => c :: expand cs

/-- The value that is written so. -/
def value (written : List Char) : List Char :=
  let trimmed := Text.trim written
  let inner := unquote true trimmed
  if trimmed.head? = some '"' then expand inner else inner

/-- The variables that a file assigns, each once, with the last value it is given. The reserved name
is never assigned. -/
def entries (text : String) : List (String × String) :=
  Members.ofList <|
    ((scan true (unifyLineEnds text.toList)).map fun (name, written) =>
      (String.ofList name, String.ofList (value written))).filter (·.1 ≠ Members.reservedName)

end EdgeCaller.EnvFile

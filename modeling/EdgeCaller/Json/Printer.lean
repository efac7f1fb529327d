import EdgeCaller.Json.Basic
import EdgeCaller.Number.Shortest
import EdgeCaller.Text.Units
/-!
# Writing JSON

A value is written on one line without blanks, or over several lines with two blanks for each
level. Only the quote, the backslash, the control characters below the blank and halves that stand
alone are escaped.
A number without a finite value is written as `null`.
-/

namespace EdgeCaller.Json

/-- A unit as an escape of four hexadecimal digits. -/
def unitEscape (u : Nat) : List Char :=
  '\\' :: 'u' :: [u / 0x1000 % 16, u / 0x100 % 16, u / 0x10 % 16, u % 16].map Nat.digitChar

/-- A character inside quotes. -/
def writeChar (c : Char) : List Char :=
  if c = '"' then ['\\', '"']
  else if c = '\\' then ['\\', '\\']
  else if c = '\x08' then ['\\', 'b']
  else if c = '\t' then ['\\', 't']
  else if c = '\n' then ['\\', 'n']
  else if c = '\x0c' then ['\\', 'f']
  else if c = '\r' then ['\\', 'r']
  else if c.toNat < 0x20 then unitEscape c.toNat
  else
    match Text.half? c with
    | some u => unitEscape u
    | none => [c]

/-- The characters of a text inside quotes. Two halves that make a character are not escaped. -/
def writeChars : List Char → List Char
  | [] => []
  | [c] => writeChar c
  | c :: d :: cs =>
    if (Text.pair? c d).isSome then c :: d :: writeChars cs
    else writeChar c ++ writeChars (d :: cs)

/-- A text in quotes. -/
def quote (s : String) : String :=
  String.ofList ('"' :: writeChars s.toList ++ ['"'])

/-- A number as JSON writes it. -/
def writeNumber : Number → String
  | .finite q => (Number.finite q).toText
  | _ => "null"

mutual

/-- A value on one line. -/
def compact : Json → String
  | .null => "null"
  | .bool b => if b then "true" else "false"
  | .number x => writeNumber x
  | .text s => quote s
  | .array items => "[" ++ ",".intercalate (compactItems items) ++ "]"
  | .object members => "\x7b" ++ ",".intercalate (compactMembers members) ++ "\x7d"

/-- Each item on one line. -/
def compactItems : List Json → List String
  | [] => []
  | item :: items => compact item :: compactItems items

/-- Each member on one line. -/
def compactMembers : List (String × Json) → List String
  | [] => []
  | (name, value) :: members => (quote name ++ ":" ++ compact value) :: compactMembers members

end

/-- The start of a line at a level. -/
def margin (level : Nat) : String := "\n" ++ String.ofList (List.replicate (2 * level) ' ')

/-- Lines of a bracket that stands at a level; an empty one stays on its line. -/
def enclose (level : Nat) (opening closing : String) : List String → String
  | [] => opening ++ closing
  | parts =>
    opening ++ margin (level + 1) ++ ("," ++ margin (level + 1)).intercalate parts
      ++ margin level ++ closing

mutual

/-- A value over several lines, from a level on. -/
def block (level : Nat) : Json → String
  | .array items => enclose level "[" "]" (blockItems (level + 1) items)
  | .object members => enclose level "\x7b" "\x7d" (blockMembers (level + 1) members)
  | .null => "null"
  | .bool b => if b then "true" else "false"
  | .number x => writeNumber x
  | .text s => quote s

/-- Each item at a level. -/
def blockItems (level : Nat) : List Json → List String
  | [] => []
  | item :: items => block level item :: blockItems level items

/-- Each member at a level. -/
def blockMembers (level : Nat) : List (String × Json) → List String
  | [] => []
  | (name, value) :: members =>
    (quote name ++ ": " ++ block level value) :: blockMembers level members

end

/-- A value written over several lines. -/
def indented (value : Json) : String := value.block 0

end EdgeCaller.Json

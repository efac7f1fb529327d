import EdgeCaller.Text.Fold
/-!
# Redaction

A connection string is a list of settings with a semicolon after each but the last. Before it is
shown, everything from the name of the access key to the end of its setting is replaced. The name
is found in any ASCII letter case, and is kept as it was written.
-/

namespace EdgeCaller.Redaction

/-- The name of the setting that is hidden, with the sign after it. -/
def keyName : List Char := "SharedAccessKey=".toList

/-- What is shown in place of a key. -/
def mask : List Char := "[redacted]".toList

/-- Whether a text begins with the name of the access key. -/
def startsWithKey (cs : List Char) : Bool :=
  keyName.length ≤ cs.length &&
    (cs.zip keyName).all fun (a, b) => Text.sameLetter a b

/-- Where a scan of a connection string stands. -/
inductive Place where
  /-- In text that is shown. -/
  | shown
  /-- Inside the name of a key, of which `left` characters and the last are still to come. -/
  | name (left : Nat)
  /-- Inside a key. -/
  | key
  deriving DecidableEq, Repr

/-- Copies a text from left to right, leaving keys out. -/
def scan : Place → List Char → List Char
  | _, [] => []
  | .shown, c :: cs =>
    if startsWithKey (c :: cs) then c :: scan (.name (keyName.length - 2)) cs
    else c :: scan .shown cs
  | .name 0, c :: cs => c :: mask ++ scan .key cs
  | .name (left + 1), c :: cs => c :: scan (.name left) cs
  | .key, c :: cs => if c == ';' then c :: scan .shown cs else scan .key cs

/-- A text with its keys hidden. -/
def redactChars (cs : List Char) : List Char := scan .shown cs

/-- A connection string with its keys hidden. -/
def redact (s : String) : String := String.ofList (redactChars s.toList)

end EdgeCaller.Redaction

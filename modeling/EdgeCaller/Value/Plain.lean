import EdgeCaller.Value.Conversion
import EdgeCaller.Calendar
/-!
# Plain forms

Most values have a plain form, in which they are written as JSON. An absent value and a token have
none and are left out of a record. An integer, a record that refuses, a record that is only modelled
on a moment, and a value that contains itself stop the whole writing; the reason says which of them
it was.
-/

namespace EdgeCaller

/-- The way from a record or list to one of its parts. -/
inductive Part where
  | index (n : Nat)
  | member (name : String)
  deriving DecidableEq, Repr

/-- A record or list that is being written: how it was reached, and what built it. -/
structure Opened where
  part : Part
  builder : String
  deriving DecidableEq, Repr

/-- Why a value cannot be written. -/
inductive Unwritable where
  | integer
  | refused
  /-- A record that is no moment is to be written as one, and would have to be converted for it. -/
  | unconvertible (why : Unconvertible)
  /-- A record or list contains itself: what was opened from it on, innermost first, and the part
  that leads back to it. -/
  | circular (opened : List Opened) (last : Part)
  deriving DecidableEq, Repr

namespace Unwritable

/-- The way to a part, in words. -/
def partText : Part → String
  | .index n => "index " ++ toString n
  | .member name => if name.isEmpty then "<anonymous>" else "property '" ++ name ++ "'"

/-- What a circle leads through, in words. -/
def builderText (o : Opened) : String := "object with constructor '" ++ o.builder ++ "'"

/-- One line of the account of a circle. -/
def hopText (o : Opened) : String := "\n    |     " ++ partText o.part ++ " -> " ++ builderText o

/-- The account of a circle: where it starts, at most two steps in, one step before its end, and
the part that closes it. -/
def circleText (opened : List Opened) (last : Part) : String :=
  match opened.reverse with
  | [] => ""
  | start :: hops =>
    let near := hops.take 2
    let far := hops.drop 2
    "Converting circular structure to JSON\n    --> starting at " ++ builderText start ++
      String.join (near.map hopText) ++
      (if 1 < far.length then "\n    |     ..." else "") ++
      String.join ((far.drop (far.length - 1)).map hopText) ++
      "\n    --- " ++ partText last ++ " closes the circle"

/-- The failure that an attempt to write the value ends with. -/
def failure : Unwritable → Value
  | integer => Value.typeFailure "Do not know how to serialize a BigInt"
  | refused => Value.plainFailure "toJSON failed"
  | unconvertible why => why.failure
  | circular opened last => Value.typeFailure (circleText opened last)

end Unwritable

namespace Value

/-- The name of the way in which a record is written. -/
def writerName : String := "toJSON"

/-- The circle that closes at the record or list which is `depth` steps out. Only what is being
written belongs to it; in the place of a record that another value is written for stands `none`. -/
def circle? (opened : List (Option Opened)) (depth : Nat) : Option (List Opened) :=
  match (opened.take (depth + 1)).reduceOption with
  | [] => none
  | inner => if depth < opened.length then some inner else none

mutual

/-- The plain form of a value that was reached by `part` from inside `opened`. Of a stand-in it is
the form of its value, which is then taken as it is, and not asked what it stands for in turn; a
record takes over from its model how it is written. -/
def plainAt (asItIs : Bool) (opened : List (Option Opened)) (part : Part) :
    Value → Except Unwritable (Option Json)
  | failure _ _ | table => .ok (some (.object []))
  | openFailure _ transport _ =>
    .ok (some (.object [("code", .text openFailureCode), ("transport", .text transport),
      ("name", .text openFailureName)]))
  | text s => .ok (some (.text s))
  | number x => .ok (some (.number x))
  | bool b => .ok (some (.bool b))
  | null => .ok (some .null)
  | absent | token _ => .ok none
  | moment ms? =>
    .ok (some (if asItIs then .object [] else match ms?.bind Calendar.stamp? with
      | some s => .text s
      | none => .null))
  | integer _ => .error .integer
  | refusing => if asItIs then .ok (some (.object [])) else .error .refused
  | enclosing depth =>
    match circle? opened depth with
    | some inner => .error (.circular inner part)
    | none => .ok (some (.object []))
  | record members | bareRecord members => do
    let ms ← plainMembers (some ⟨part, "Object"⟩ :: opened) members
    .ok (some (.object ms))
  | derived members model =>
    match if asItIs then none else taken? (derived members model) 0 opened part model with
    | some j? => j?
    | none => do
      let ms ← plainMembers (some ⟨part, model.builder⟩ :: opened) members
      .ok (some (.object ms))
  | list items => do
    let vs ← plainItems (some ⟨part, "Array"⟩ :: opened) 0 items
    .ok (some (.array vs))
  | standIn value =>
    if asItIs then .ok (some (.object [])) else plainAt true opened part value

/-- The plain form that a record takes over from its model, which is `level` models away. A member
of the name of the writing takes its place and is none. A record that stands for itself is written
by its members. -/
def taken? (taker : Value) (level : Nat) (opened : List (Option Opened)) (part : Part) :
    Value → Option (Except Unwritable (Option Json))
  | derived _ model => taken? taker (level + 1) (none :: opened) part model
  | standIn value =>
    if taker.hasMember writerName ∨ value.isEnclosing level then none
    else some (plainAt true (none :: opened) part value)
  | refusing => if taker.hasMember writerName then none else some (.error .refused)
  | moment _ =>
    if taker.hasMember writerName then none
    else some (.error (.unconvertible (taker.lackOnMoment Conversion.toNumber.order)))
  | _ => none

/-- The plain forms of the items of a list; `null` stands for one that has none. -/
def plainItems (opened : List (Option Opened)) (n : Nat) :
    List Value → Except Unwritable (List Json)
  | [] => .ok []
  | item :: items => do
    let j ← plainAt false opened (.index n) item
    let rest ← plainItems opened (n + 1) items
    .ok (j.getD .null :: rest)

/-- The plain forms of the members of a record; one that has none is left out. -/
def plainMembers (opened : List (Option Opened)) :
    List (String × Value) → Except Unwritable (List (String × Json))
  | [] => .ok []
  | (name, value) :: members => do
    let j ← plainAt false opened (.member name) value
    let rest ← plainMembers opened members
    match j with
    | some j => .ok ((name, j) :: rest)
    | none => .ok rest

end

/-- The plain form of a value, if it has one. -/
def plain (v : Value) : Except Unwritable (Option Json) := plainAt false [] (.member "") v

end Value

end EdgeCaller

import EdgeCaller.Value.Conversion
import EdgeCaller.Calendar
import EdgeCaller.Number.Shortest
import EdgeCaller.Number.Spelling
/-!
# Values as text

Nearly every value has a text of its own, apart from the plain form in which it is written. A
list is its items with commas between them, where an absent item, and a list around it, are empty.
A record takes the conversion over from its model, and with a list for a model also its items. A
member of the name of the conversion takes the conversion's place, and is none.
-/

namespace EdgeCaller

namespace Value

/-- A failure's name and message. -/
def headline (name message : String) : String :=
  if message.isEmpty then name else if name.isEmpty then message else name ++ ": " ++ message

/-- What stands for a word of a failure: the word itself where there is no member in its place, and
the standard word where there is one without a value. -/
def wordUnder (member? : Option Value) (text? : Option (Except Unconvertible String))
    (word standard : String) : Except Unconvertible String :=
  match member?, text? with
  | some absent, _ => .ok standard
  | some null, _ => .ok "null"
  | some _, some s? => s?
  | _, _ => .ok word

/-- The name and message of a record that takes them over from a failure. -/
def headlineUnder (taker : Value) (own : List (String × Except Unconvertible String))
    (name message : String) : Except Unconvertible String := do
  let name ← wordUnder (taker.member? "name") (Members.get? "name" own) name "Error"
  let message ← wordUnder (taker.member? "message") (Members.get? "message" own) message ""
  .ok (headline name message)

/-- The name of the joining of a list's items, which is the conversion of a list. -/
def joiningName : String := "join"

/-- The name of the number of a list's items. -/
def lengthName : String := "length"

/-- The text of a record, which hides its members. -/
def recordText : String := "[object Object]"

/-- The text of a table, which hides its entries. -/
def tableText : String := "[object Map]"

/-- How many items a number is for. -/
def countOf : Number → Nat
  | .finite q => q.floor.toNat
  | _ => 0

/-- How many items a record joins: as many as its model has, or as its member for the length says
that has this text. -/
def itemCount (length? : Option Value) (text? : Option (Except Unconvertible String))
    (count : Nat) : Except Unconvertible Nat :=
  match length?, text? with
  | some (integer _), _ => .error .integer
  | some (token _), _ => .error (.token .toNumber)
  | some (bool true), _ => .ok 1
  | some (moment ms?), _ => .ok (ms?.getD 0).toNat
  | some v, some s? =>
    if v.isMoment then .error (v.lackOnMoment Conversion.toNumber.order)
    else s?.map fun s => countOf (Number.ofText s)
  | _, _ => .ok count

/-- The text of a record that is joined like a list: its own texts in place of the items. -/
def joinedUnder (length? : Option Value) (own : List (String × Except Unconvertible String))
    (items : List (Except Unconvertible String)) : Except Unconvertible String := do
  let count ← itemCount length? (Members.get? lengthName own) items.length
  let parts ← (List.range count).mapM fun n =>
    (Members.get? (toString n) own).getD (items[n]?.getD (.ok ""))
  .ok (",".intercalate parts)

mutual

/-- The text of a value, which may be an item of a list. -/
def textAt (inList : Bool) : Value → Except Unconvertible String
  | failure name message => .ok (headline name message)
  | openFailure message _ _ => .ok (headline openFailureName message)
  | text s => .ok s
  | number x => .ok x.toText
  | integer n => .ok (toString n)
  | bool b => .ok (if b then "true" else "false")
  | null => .ok (if inList then "" else "null")
  | absent => .ok (if inList then "" else "undefined")
  | token description =>
    if inList then .error (.token .toText) else .ok ("Symbol(" ++ description ++ ")")
  | moment ms? => .ok ((ms?.map Calendar.describe).getD "Invalid Date")
  | record members =>
    if members.any (·.1 = Conversion.toText.name) then .error .record else .ok recordText
  | bareRecord _ => .error .record
  | derived members model =>
    let v := derived members model
    if v.hasMember Conversion.toText.name && !v.isMoment then .error .record
    else takenText v (memberTexts members) model
  | list items => do
    let parts ← itemTexts? items
    .ok (",".intercalate parts)
  | table => .ok tableText
  | standIn _ | refusing => .ok recordText
  | enclosing _ => .ok (if inList then "" else recordText)

/-- The text that a record takes over from its model. Of a failure it takes over the name and the
message, of a list the joining and the items, as far as it has no members for them. A member of the
name of the joining takes its place and is none; the record is then read like any other. -/
def takenText (taker : Value) (own : List (String × Except Unconvertible String)) :
    Value → Except Unconvertible String
  | derived members model => takenText taker (own ++ memberTexts members) model
  | failure name message => headlineUnder taker own name message
  | openFailure message _ _ => headlineUnder taker own openFailureName message
  | bareRecord _ => .error .record
  | moment _ => .error (taker.lackOnMoment Conversion.toText.order)
  | table => .ok tableText
  | list items =>
    if taker.hasMember joiningName then .ok recordText
    else joinedUnder (taker.member? lengthName) own (textsOf items)
  | _ => .ok recordText

/-- The texts of the members of a record, where they stand for items. -/
def memberTexts : List (String × Value) → List (String × Except Unconvertible String)
  | [] => []
  | (name, value) :: members => (name, textAt true value) :: memberTexts members

/-- What the items of a list have for a text, one by one. -/
def textsOf : List Value → List (Except Unconvertible String)
  | [] => []
  | item :: items => textAt true item :: textsOf items

/-- The texts of the items of a list. -/
def itemTexts? : List Value → Except Unconvertible (List String)
  | [] => .ok []
  | item :: items => do
    let s ← textAt true item
    let ss ← itemTexts? items
    .ok (s :: ss)

end

/-- The text of a value. -/
def text? (v : Value) : Except Unconvertible String := v.textAt false

end Value

end EdgeCaller

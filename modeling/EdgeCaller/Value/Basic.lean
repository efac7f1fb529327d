import EdgeCaller.Json.Basic
import EdgeCaller.Text.Units
/-!
# Values

A call may fail with any value, a response may carry any status, and a log line may be given any
value to show. These are the values there are: failures with a name and a message, plain data,
and some that have no plain form, such as a table, a token, or a record that decides for itself
how it is written.

A record may be modelled on another value. What it lacks it takes over from its model: a conversion
to text, a way of being written, the name and message of a failure. An assignment to the reserved
name sets the model, where the common operations are there to do it (`Value.assign`).
-/

namespace EdgeCaller

/-- A value that a call may fail with or answer. -/
inductive Value where
  /-- A failure with a name and a message. -/
  | failure (name message : String)
  /-- The failure to open a connection, and what caused it. -/
  | openFailure (message transport : String) (cause : Value)
  | text (s : String)
  | number (x : Number)
  /-- An integer of any size. -/
  | integer (n : Int)
  | bool (b : Bool)
  | null
  /-- No value at all. -/
  | absent
  /-- A token, known by its description only. -/
  | token (description : String)
  /-- A moment, if it is a valid one. -/
  | moment (ms? : Option Int)
  | record (members : List (String × Value))
  /-- A record without the common operations, such as a conversion to text. -/
  | bareRecord (members : List (String × Value))
  /-- A record that takes over from a model what it lacks itself. -/
  | derived (members : List (String × Value)) (model : Value)
  | list (items : List Value)
  /-- A table, whose entries are never shown. -/
  | table
  /-- A record that is written as another value. -/
  | standIn (value : Value)
  /-- A record that refuses to be written. -/
  | refusing
  /-- A record or list that this value is part of, counted outwards from the nearest. -/
  | enclosing (depth : Nat)

instance : Inhabited Value := ⟨.absent⟩

namespace Value

/-- The name of a failure to open a connection. -/
def openFailureName : String := "ConnectionOpenError"

/-- The code of a failure to open a connection. -/
def openFailureCode : String := "connection_open_failed"

/-- A failure because a value is of the wrong type. -/
def typeFailure (message : String) : Value := failure "TypeError" message

/-- A failure because a number is out of range. -/
def rangeFailure (message : String) : Value := failure "RangeError" message

/-- A plain failure. -/
def plainFailure (message : String) : Value := failure "Error" message

/-- The name of the size of a table. -/
def sizeName : String := "size"

/-- The name of the trace of a failure, which tells where it came from. -/
def traceName : String := "stack"

/-- A failure because the size of a table, which a record takes over, would be assigned. -/
def sizeAssigned : Value :=
  typeFailure "Cannot set property size of #<Map> which has only a getter"

/-- A failure because a record would be modelled on itself. -/
def selfModelled : Value := typeFailure "Cyclic __proto__ value"

/-- The member of a record, its own or one taken over. -/
def member? (name : String) : Value → Option Value
  | record members | bareRecord members => Members.get? name members
  | derived members model =>
    match Members.get? name members with
    | some x => some x
    | none => model.member? name
  | _ => none

/-- Whether a record has a member, its own or one taken over. -/
def hasMember (name : String) (v : Value) : Bool := (v.member? name).isSome

/-- Whether a value is a table or takes over from one. -/
def isTable : Value → Bool
  | table => true
  | derived _ model => model.isTable
  | _ => false

/-- The name and the message of a failure, or of a record modelled on one. A record may have members
in their place, which need not be texts. -/
def failure? : Value → Option (Value × Value)
  | failure name message => some (text name, text message)
  | openFailure message _ _ => some (text openFailureName, text message)
  | derived members model =>
    model.failure?.map fun (name, message) =>
      ((Members.get? "name" members).getD name, (Members.get? "message" members).getD message)
  | _ => none

/-- Whether a value has the common operations, its own or taken over. -/
def hasCommon : Value → Bool
  | bareRecord _ => false
  | derived _ model => model.hasCommon
  | _ => true

/-- Whether a record can be modelled on a value. -/
def canModel : Value → Bool
  | failure _ _ | openFailure _ _ _ | moment _ | record _ | bareRecord _ | derived _ _ | list _
  | table | standIn _ | refusing | enclosing _ => true
  | text _ | number _ | integer _ | bool _ | null | absent | token _ => false

/-- Whether a value is the record or list that is the given number of steps around it. -/
def isEnclosing (steps : Nat) : Value → Bool
  | enclosing depth => depth = steps
  | _ => false

/-- Whether a model leads back to the record or list that is the given number of steps around it. -/
def leadsBack (steps : Nat) : Value → Bool
  | derived _ model => model.leadsBack (steps + 1)
  | model => model.isEnclosing steps

/-- The members that a record has itself. -/
def members : Value → List (String × Value)
  | record members | bareRecord members | derived members _ => members
  | _ => []

/-- The record with these members in place of its own. -/
def withMembers (ms : List (String × Value)) : Value → Value
  | bareRecord _ => bareRecord ms
  | derived _ model => derived ms model
  | _ => record ms

/-- Models a record on a value, or on none at all. A value that cannot be a model changes nothing,
and no record can be modelled on itself. -/
def remodel (model v : Value) : Except Value Value :=
  if model.leadsBack 0 then .error selfModelled
  else if model.canModel then .ok (derived v.members model)
  else
    match model with
    | null => .ok (bareRecord v.members)
    | _ => .ok v

/-- Assigns a member of a record. Where it has no member of the name, its own or one taken over,
three names are not free: what is assigned to the reserved name becomes its model, if it has the
common operations; the size of a table cannot be assigned; and the trace of a failure stays with the
failure, so that assigning it leaves the record as it is. -/
def assign (v : Value) (name : String) (x : Value) : Except Value Value :=
  let assigned := v.withMembers (Members.put name x v.members)
  if v.hasMember name then .ok assigned
  else if name = Members.reservedName ∧ v.hasCommon then remodel x v
  else if name = sizeName ∧ v.isTable then .error sizeAssigned
  else if name = traceName ∧ v.failure?.isSome then .ok v
  else .ok assigned

mutual

/-- The value that plain data is. -/
def ofJson : Json → Value
  | .null => null
  | .bool b => bool b
  | .number x => number x
  | .text s => text s
  | .array items => list (ofJsonItems items)
  | .object members => record (ofJsonMembers members)

/-- The values of the items of an array. -/
def ofJsonItems : List Json → List Value
  | [] => []
  | item :: items => ofJson item :: ofJsonItems items

/-- The values of the members of an object. -/
def ofJsonMembers : List (String × Json) → List (String × Value)
  | [] => []
  | (name, value) :: members => (name, ofJson value) :: ofJsonMembers members

end

/-- Whether a value is the given number. -/
def isNumber (x : Number) : Value → Bool
  | number y => x == y
  | _ => false

/-- What else the failure to open a connection says. -/
structure OpenFailure where
  code : Value
  transport : Value
  cause : Value

/-- What else a failure to open a connection says, or a record modelled on one. -/
def openFailure? : Value → Option OpenFailure
  | openFailure _ transport cause => some ⟨text openFailureCode, text transport, cause⟩
  | derived members model =>
    model.openFailure?.map fun f =>
      { code := (Members.get? "code" members).getD f.code
        transport := (Members.get? "transport" members).getD f.transport
        cause := (Members.get? "cause" members).getD f.cause }
  | _ => none

/-- The word for the type of a value. -/
def typeName : Value → String
  | text _ => "string"
  | number _ => "number"
  | integer _ => "bigint"
  | bool _ => "boolean"
  | absent => "undefined"
  | token _ => "symbol"
  | failure _ _ | openFailure _ _ _ | null | moment _ | record _ | bareRecord _ | derived _ _
  | list _ | table | standIn _ | refusing | enclosing _ => "object"

/-- The kind of a value: the name of a failure, or the word for its type. -/
def kind (v : Value) : Value :=
  match v.failure? with
  | some (name, _) => name
  | none => text v.typeName

/-- How many members of a value can be listed: those of a record, the items of a list, the units of
a text. -/
def memberCount : Value → Nat
  | text s => (Text.units s).length
  | record members | bareRecord members | derived members _ => members.length
  | list items => items.length
  | openFailure _ _ _ => 3
  | standIn _ | refusing | enclosing _ => 1
  | failure _ _ | number _ | integer _ | bool _ | null | absent | token _ | moment _ | table => 0

/-- What a value is said to be built by, where it is part of a circle. -/
def builder : Value → String
  | failure name _ => name
  | openFailure _ _ _ => openFailureName
  | list _ => "Array"
  | table => "Map"
  | moment _ => "Date"
  | derived _ model => model.builder
  | _ => "Object"

end Value

end EdgeCaller

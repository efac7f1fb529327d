import EdgeCaller.Value.Basic
/-!
# Conversions

A value is converted to a text or to a number by one of two operations. The one that fits is tried
first. A member of its name takes its place and is none, so that the other one is tried.

A record that is modelled on a moment takes both operations over, but they serve moments only: the
first of them that is still in place ends the conversion (`Value.lackOnMoment`).
-/

namespace EdgeCaller

/-- An operation by which a value is converted. -/
inductive Conversion where
  | toText
  | toNumber
  deriving DecidableEq, Repr

namespace Conversion

/-- The name of an operation. -/
def name : Conversion → String
  | toText => "toString"
  | toNumber => "valueOf"

/-- What an operation should give, in words. -/
def result : Conversion → String
  | toText => "string"
  | toNumber => "number"

/-- The order in which the operations are tried: the one that fits, then the other. -/
def order : Conversion → List Conversion
  | toText => [toText, toNumber]
  | toNumber => [toNumber, toText]

end Conversion

/-- Why a value cannot be converted. -/
inductive Unconvertible where
  /-- A token has a text of its own, but none inside a list, and it is no number. -/
  | token (goal : Conversion)
  /-- An integer of any size is no number. -/
  | integer
  /-- A record without an operation that converts it. -/
  | record
  /-- A record that is no moment has this operation of moments. -/
  | notMoment (operation : Conversion)
  deriving DecidableEq, Repr

namespace Unconvertible

/-- The failure that the conversion ends with. -/
def failure : Unconvertible → Value
  | token c => Value.typeFailure ("Cannot convert a Symbol value to a " ++ c.result)
  | integer => Value.typeFailure "Cannot convert a BigInt value to a number"
  | record => Value.typeFailure "Cannot convert object to primitive value"
  | notMoment .toText =>
    Value.typeFailure
      "Method Date.prototype.toString called on incompatible receiver [object Object]"
  | notMoment .toNumber => Value.typeFailure "this is not a Date object."

end Unconvertible

namespace Value

/-- Whether a value is a moment or takes over from one. -/
def isMoment : Value → Bool
  | moment _ => true
  | derived _ model => model.isMoment
  | _ => false

/-- Why a record that is modelled on a moment cannot be converted by these operations. -/
def lackOnMoment (v : Value) : List Conversion → Unconvertible
  | [] => .record
  | c :: cs => if v.hasMember c.name then v.lackOnMoment cs else .notMoment c

end Value

end EdgeCaller

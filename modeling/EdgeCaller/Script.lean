import EdgeCaller.Event
/-!
# Scripts

What lies beyond a sender, the module client or a whole connection, is given by a script: for each
kind of call a list of replies, the `n`-th for the `n`-th call. The last reply serves all later
calls, and where there is none a call succeeds at once.
-/

namespace EdgeCaller

/-- How a call goes. With a delay of zero it is answered as soon as the caller waits for it. -/
inductive Course where
  | never
  /-- The call fails before the caller can wait for anything. -/
  | throws (error : Value)
  | fails (error : Value) (after : Nat)
  | succeeds (after : Nat)

/-- The reply to a call. Status and payload are those of a response, where the call has one. -/
structure Reply where
  course : Course := .succeeds 0
  status : Value := .number successStatus
  payload : Value := .absent
  /-- Whether the call that was received is changed once it is recorded. -/
  alters : Bool := false

namespace Reply

/-- How the reply settles a call, and after how long; nothing if it never does. -/
def settlement? (r : Reply) (answer : Answer) : Option (Nat × Settlement) :=
  match r.course with
  | .never => none
  | .throws error => some (0, .rejected error)
  | .fails error after => some (after, .rejected error)
  | .succeeds after => some (after, .fulfilled answer)

/-- How the reply settles a call of a method. -/
def response? (r : Reply) : Option (Nat × Settlement) :=
  r.settlement? (.response r.status r.payload)

/-- The `n`-th reply of a list, counted from zero. -/
def nth (replies : List Reply) (n : Nat) : Reply :=
  (replies[n]?.or replies.getLast?).getD {}

end Reply

/-- The replies to all calls. -/
structure Script where
  creates : List Reply := []
  opens : List Reply := []
  closes : List Reply := []
  invokes : List Reply := []
  publishes : List Reply := []

/-- How many calls of each kind have been made. -/
structure Tally where
  creates : Nat := 0
  opens : Nat := 0
  closes : Nat := 0
  invokes : Nat := 0
  publishes : Nat := 0

end EdgeCaller

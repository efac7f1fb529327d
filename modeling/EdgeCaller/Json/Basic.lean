import EdgeCaller.Number.Basic
/-!
# Plain data

The values of the JSON data format. The members of an object are kept as a list of names and
values, in the order in which they are written: names that are whole numbers first, by size, then
the others as they were first given. `Members.ofList` brings members into this order, and settles
a name that is given twice.
-/

namespace EdgeCaller

/-- A value of the JSON data format. -/
inductive Json where
  | null
  | bool (b : Bool)
  | number (x : Number)
  | text (s : String)
  | array (items : List Json)
  | object (members : List (String × Json))

instance : Inhabited Json := ⟨.null⟩

namespace Members

variable {α : Type}

/-- The name that no member is given by an ordinary assignment. -/
def reservedName : String := "__proto__"

/-- Sets a member: a name that is there keeps its place, a new one comes last. -/
def set (name : String) (value : α) : List (String × α) → List (String × α)
  | [] => [(name, value)]
  | (n, v) :: rest => if n = name then (n, value) :: rest else (n, v) :: set name value rest

/-- The value of a member. -/
def get? (name : String) : List (String × α) → Option α
  | [] => none
  | (n, v) :: rest => if n = name then some v else get? name rest

@[simp] theorem get?_set_self (name : String) (value : α) (ms : List (String × α)) :
    get? name (set name value ms) = some value := by
  induction ms with
  | nil => simp [set, get?]
  | cons m rest ih => by_cases h : m.1 = name <;> simp [set, get?, h, ih]

theorem get?_set_of_ne {name other : String} (h : other ≠ name) (value : α)
    (ms : List (String × α)) : get? other (set name value ms) = get? other ms := by
  induction ms with
  | nil => simp [set, get?, h.symm]
  | cons m rest ih =>
    by_cases hm : m.1 = name
    · simp [set, get?, hm, h.symm]
    · simp [set, get?, hm, ih]

/-- The greatest whole number that counts as an index. -/
def greatestIndex : Nat := 4294967294

/-- The whole number that a name is the plain decimal form of, if it counts as an index. -/
def index? (name : String) : Option Nat :=
  match name.toList with
  | [] => none
  | ['0'] => some 0
  | '0' :: _ => none
  | cs =>
    if cs.all (fun c => '0' ≤ c && c ≤ '9') then
      let n := cs.foldl (fun n c => 10 * n + (c.toNat - 48)) 0
      if n ≤ greatestIndex then some n else none
    else none

/-- The names that are whole numbers first, by size; the others as they are. -/
def inOrder (ms : List (String × α)) : List (String × α) :=
  let numbered := ms.filterMap fun m => (index? m.1).map fun n => (n, m)
  (numbered.mergeSort fun a b => decide (a.1 ≤ b.1)).map (·.2)
    ++ ms.filter fun m => (index? m.1).isNone

/-- Sets a member and brings it into its place. -/
def put (name : String) (value : α) (ms : List (String × α)) : List (String × α) :=
  inOrder (set name value ms)

/-- The members of a list in which a later value replaces an earlier one, in order. -/
def ofList (ms : List (String × α)) : List (String × α) :=
  inOrder (ms.foldl (fun acc (name, value) => set name value acc) [])

end Members

end EdgeCaller

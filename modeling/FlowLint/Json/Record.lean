import FlowLint.Json.Value

/-! # Objects with known members

An object that stands for a record has members with known keys, each at most once; other members say
nothing. A member that may be missing may also be null. Objects only stand for records: an array
that lists the values of a record in their order, which other readers take for it, is refused.
-/

namespace FlowLint.Json

/-- Whether none of the keys has more than one member. -/
def eachOnce (known : List String) (members : List (String × Json)) : Bool :=
  known.all fun key => (members.filter (·.1 = key)).length ≤ 1

/-- The members of a record with the known keys. -/
def record? (known : List String) : Json → Option (List (String × Json))
  | obj members => if eachOnce known members then some members else none
  | _ => none

def text? (members : List (String × Json)) (key : String) : Option String :=
  lookup members key >>= asString?

/-- The value of a member that may be missing or null, read by `read?`. -/
def optional? {α : Type} (read? : Json → Option α) (members : List (String × Json)) (key : String) :
    Option (Option α) :=
  match lookup members key with
  | none => some none
  | some null => some none
  | some v => (read? v).map some

def readEach? {α : Type} (read? : Json → Option α) : List Json → Option (List α)
  | [] => some []
  | v :: rest => do
    let x ← read? v
    let xs ← readEach? read? rest
    return x :: xs

/-- The items of an array, read one by one. -/
def items? {α : Type} (read? : Json → Option α) (v : Json) : Option (List α) :=
  v.asArray? >>= readEach? read?

def textMember (key value : String) : String × Json :=
  (key, .str value)

/-- A member that is left out if there is no value. -/
def optionalMember (key : String) (value : Option Json) : List (String × Json) :=
  (value.map fun v => (key, v)).toList

end FlowLint.Json

import FlowLint.Numeric.Shortest

/-! # JSON values

A value keeps the members of an object as they are written, in order and with repeated keys. Where
an object stands for a finite map, `Json.sorted` gives its one written form: keys in order, the last
of several members with the same key.
-/

namespace FlowLint

/-- A number: a whole number that fits 64 bits, with or without sign, or a floating-point one. -/
inductive Json.Number
  | int (value : Int)
  | real (value : Numeric.Binary64)
deriving Repr, DecidableEq, Inhabited

inductive Json
  | null
  | bool (value : Bool)
  | num (value : Json.Number)
  | str (value : String)
  | arr (items : List Json)
  | obj (members : List (String × Json))
deriving Repr, Inhabited

namespace Json

def ofNat (n : Nat) : Json :=
  .num (.int n)

def ofOption : Option String → Json
  | none => .null
  | some s => .str s

/-- The value of the last member with a key. -/
def lookup (members : List (String × Json)) (key : String) : Option Json :=
  (members.reverse.find? (·.1 = key)).map (·.2)

def get? : Json → String → Option Json
  | obj members, key => lookup members key
  | _, _ => none

def asString? : Json → Option String
  | str s => some s
  | _ => none

/-- The value of a whole number that is not negative. -/
def asNat? : Json → Option Nat
  | num (.int n) => if 0 ≤ n then some n.toNat else none
  | _ => none

def asArray? : Json → Option (List Json)
  | arr items => some items
  | _ => none

/-- Adds a member to members with keys in order, or replaces the one with that key. -/
def insertMember (key : String) (value : Json) : List (String × Json) → List (String × Json)
  | [] => [(key, value)]
  | (k, v) :: rest =>
    if key < k then (key, value) :: (k, v) :: rest
    else if key = k then (key, value) :: rest
    else (k, v) :: insertMember key value rest

mutual
/-- The value with the members of all objects in it in the order of their keys, each key once with
the last value written for it. -/
def sorted : Json → Json
  | null => null
  | bool b => bool b
  | num n => num n
  | str s => str s
  | arr items => arr (sortedItems items)
  | obj members => obj (sortedMembers [] members)
def sortedItems : List Json → List Json
  | [] => []
  | v :: rest => sorted v :: sortedItems rest
/-- The sorted members `done` with others put in their places. -/
def sortedMembers (done : List (String × Json)) : List (String × Json) → List (String × Json)
  | [] => done
  | (k, v) :: rest => sortedMembers (insertMember k (sorted v) done) rest
end

mutual
/-- Whether two values are the same, members compared in order. The floating-point zeros, which are
equal as numbers, are told apart by their signs; a value with whole numbers only is the same as no
value that holds one of them. -/
def same : Json → Json → Bool
  | null, null => true
  | bool a, bool b => a == b
  | num a, num b => a == b
  | str a, str b => a == b
  | arr xs, arr ys => sameItems xs ys
  | obj xs, obj ys => sameMembers xs ys
  | _, _ => false
def sameItems : List Json → List Json → Bool
  | [], [] => true
  | x :: xs, y :: ys => same x y && sameItems xs ys
  | _, _ => false
def sameMembers : List (String × Json) → List (String × Json) → Bool
  | [], [] => true
  | (k, x) :: xs, (l, y) :: ys => k == l && same x y && sameMembers xs ys
  | _, _ => false
end

end Json

end FlowLint

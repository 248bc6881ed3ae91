/-! # Spans of characters

Properties of characters are tables of spans. A span runs from one character number to another, by
ones or, where small and capital letters alternate, by twos. A shift says how far the characters of
a span are from those they are mapped to.
-/

namespace FlowLint.Text

/-- The numbers from `first` to `last` in steps. -/
structure Span where
  first : Nat
  last : Nat
  step : Nat
deriving Repr, DecidableEq, Inhabited

def Span.contains (s : Span) (n : Nat) : Bool :=
  s.first ≤ n && n ≤ s.last && (n - s.first) % s.step == 0

def inTable (table : Array Span) (c : Char) : Bool :=
  table.any (·.contains c.toNat)

/-- A span and the distance to the characters that its characters are mapped to. -/
structure Shift where
  span : Span
  distance : Int
deriving Repr, DecidableEq, Inhabited

/-- Where a table maps a character, itself if the table does not mention it. -/
def shifted (table : Array Shift) (c : Char) : Char :=
  match table.find? (·.span.contains c.toNat) with
  | some s => Char.ofNat ((c.toNat : Int) + s.distance).toNat
  | none => c

/-- The characters other than `c` that a table maps to `c`. -/
def shiftedFrom (table : Array Shift) (c : Char) : List Char :=
  table.toList.filterMap fun s =>
    let n := ((c.toNat : Int) - s.distance).toNat
    if (n : Int) + s.distance = c.toNat ∧ s.span.contains n then some (Char.ofNat n) else none

end FlowLint.Text

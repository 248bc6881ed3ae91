import FlowLint.Text.Blank
import FlowLint.Text.Property.Case
import FlowLint.Text.Property.Word

/-! # Sets of characters

What one place of a pattern may match, as an expression that says for every character whether it is
in the set. Nothing is enumerated: a set closed under change of case asks about the few characters
that differ from the one at hand in case only.
-/

namespace FlowLint.Pattern

/-- A property of characters that patterns can name. -/
inductive Property
  | any
  | ascii
  | letter
  | capital
  | small
  | number
  | decimal
  | alphabetic
  | wordPart
  | blank
deriving Repr, DecidableEq, Inhabited

def Property.holds : Property → Char → Bool
  | any, _ => true
  | ascii, c => c.toNat < 128
  | letter, c => Text.isLetter c
  | capital, c => Text.isCapital c
  | small, c => Text.isSmall c
  | number, c => Text.isNumber c
  | decimal, c => Text.isDecimal c
  | alphabetic, c => Text.isAlphabetic c
  | wordPart, c => Text.isWordPart c
  | blank, c => Text.isBlank c

inductive CharSet
  | none
  | range (first last : Char)
  | property (p : Property)
  | union (a b : CharSet)
  | inter (a b : CharSet)
  | compl (a : CharSet)
  /-- The set together with all that differs from one of its members in case only. -/
  | anyCase (a : CharSet)
deriving Repr, DecidableEq, Inhabited

namespace CharSet

def mem : CharSet → Char → Bool
  | none, _ => false
  | range first last, c => first.toNat ≤ c.toNat && c.toNat ≤ last.toNat
  | property p, c => p.holds c
  | union a b, c => a.mem c || b.mem c
  | inter a b, c => a.mem c && b.mem c
  | compl a, c => !a.mem c
  | anyCase a, c => (Text.caseClass c).any a.mem

def single (c : Char) : CharSet :=
  range c c

def all : CharSet :=
  compl none

def unionOf : List CharSet → CharSet
  | [] => none
  | [a] => a
  | a :: rest => union a (unionOf rest)

def diff (a b : CharSet) : CharSet :=
  inter a (compl b)

/-- What is in one of the sets only. -/
def symmDiff (a b : CharSet) : CharSet :=
  union (diff a b) (diff b a)

/-- The set, negated if asked. -/
def negateIf (negated : Bool) (a : CharSet) : CharSet :=
  if negated then compl a else a

/-- The set, closed under change of case if asked. -/
def anyCaseIf (caseless : Bool) (a : CharSet) : CharSet :=
  if caseless then anyCase a else a

/-- A range of characters given by their numbers. -/
def ofNumbers (first last : Nat) : CharSet :=
  range (Char.ofNat first) (Char.ofNat last)

end CharSet

end FlowLint.Pattern

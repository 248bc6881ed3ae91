import FlowLint.Pattern.CharSet

/-! # Patterns

A pattern describes which stretches of a text match it. Besides sets of characters, sequence, choice
and repetition there are looks, which match the empty stretch at some places only, as the characters
to the left and right of the place decide. A repetition has a least count and may have a greatest;
how many of the possible repetitions a search would prefer is not recorded, for only the existence
of a match is ever asked for.
-/

namespace FlowLint.Pattern

/-- A condition on a place in a text. -/
inductive Look
  | textStart
  | textEnd
  | lineStart
  | lineEnd
  /-- Line ends that count a carriage return, alone or before a line feed, as one. -/
  | anyLineStart
  | anyLineEnd
  | wordBoundary
  | notWordBoundary
  | wordStart
  | wordEnd
  | wordStartHalf
  | wordEndHalf
deriving Repr, DecidableEq, Inhabited

inductive Regex
  | empty
  | set (s : CharSet)
  | look (l : Look)
  | seq (a b : Regex)
  | alt (a b : Regex)
  | rep (a : Regex) (least : Nat) (greatest : Option Nat)
deriving Repr, DecidableEq, Inhabited

/-- A place in a text: the characters next to it, where there are any. -/
structure Place where
  before : Option Char
  after : Option Char
deriving Repr, DecidableEq, Inhabited

namespace Place

/-- Whether a word part stands before the place. -/
def afterWord (p : Place) : Bool :=
  p.before.any Text.isWordPart

/-- Whether a word part stands after the place. -/
def beforeWord (p : Place) : Bool :=
  p.after.any Text.isWordPart

end Place

def Look.holds : Look → Place → Bool
  | textStart, p => p.before.isNone
  | textEnd, p => p.after.isNone
  | lineStart, p => p.before.isNone || p.before == some '\n'
  | lineEnd, p => p.after.isNone || p.after == some '\n'
  | anyLineStart, p =>
    p.before.isNone || p.before == some '\n' || (p.before == some '\r' && p.after != some '\n')
  | anyLineEnd, p =>
    p.after.isNone || p.after == some '\r' || (p.after == some '\n' && p.before != some '\r')
  | wordBoundary, p => p.afterWord != p.beforeWord
  | notWordBoundary, p => p.afterWord == p.beforeWord
  | wordStart, p => !p.afterWord && p.beforeWord
  | wordEnd, p => p.afterWord && !p.beforeWord
  | wordStartHalf, p => !p.afterWord
  | wordEndHalf, p => !p.beforeWord

namespace Regex

def seqOf : List Regex → Regex
  | [] => empty
  | [a] => a
  | a :: rest => seq a (seqOf rest)

/-- The choice between patterns; there is at least one. -/
def altOf (first : Regex) : List Regex → Regex
  | [] => first
  | a :: rest => alt first (altOf a rest)

end Regex

end FlowLint.Pattern

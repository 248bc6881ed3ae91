import FlowLint.Pattern.Regex

/-! # Searching

Whether some stretch of a text matches a pattern is decided in one pass. What is kept between two
characters is a list of patterns without repeats: what may still have to match after one of the
starts tried so far. Consuming a character replaces each by its derivatives, and a new start is tried
at every place. There are only finitely many derivatives, about as many as the pattern has
characters, so the work is the length of the text times a bound that depends on the pattern alone.
-/

namespace FlowLint.Pattern

namespace Regex

/-- Whether a pattern matches the empty stretch at a place. -/
def nullable (p : Place) : Regex → Bool
  | empty => true
  | set _ => false
  | look l => l.holds p
  | seq a b => a.nullable p && b.nullable p
  | alt a b => a.nullable p || b.nullable p
  | rep a least _ => least == 0 || a.nullable p

/-- One pattern and then another, written with sequences nested to the right. -/
def followedBy : Regex → Regex → Regex
  | empty, b => b
  | seq a a', b => seq a (a'.followedBy b)
  | a, empty => a
  | a, b => seq a b

/-- The repetitions that are left after one more, which was empty if `skipped` allows it: then fewer
than the least count may follow. -/
def oneLess (a : Regex) (least : Nat) (greatest : Option Nat) (skipped : Bool) : Regex :=
  let least := if skipped then 0 else least - 1
  match greatest with
  | some 0 | some 1 => empty
  | some n => rep a least (some (n - 1))
  | none => rep a least none

/-- What is left to match of a pattern after the character `c`, which follows the place: one of the
patterns of the list. -/
def derivatives (p : Place) (c : Char) : Regex → List Regex
  | empty => []
  | set s => if s.mem c then [empty] else []
  | look _ => []
  | seq a b =>
    (a.derivatives p c).map (·.followedBy b) ++ (if a.nullable p then b.derivatives p c else [])
  | alt a b => a.derivatives p c ++ b.derivatives p c
  | rep a least greatest =>
    if greatest = some 0 then []
    else (a.derivatives p c).map (·.followedBy (oneLess a least greatest (a.nullable p)))

def withoutRepeats (kept : List Regex) : List Regex → List Regex
  | [] => kept.reverse
  | r :: rest => withoutRepeats (if kept.contains r then kept else r :: kept) rest

/-- Whether the rest of a text has a matching stretch. Starts before it have left `pending`, and
`before` is the character in front of the rest. -/
def searchFrom (r : Regex) (pending : List Regex) (before : Option Char) : List Char → Bool
  | [] => (r :: pending).any (nullable ⟨before, none⟩)
  | c :: cs =>
    let p : Place := ⟨before, some c⟩
    let started := r :: pending
    started.any (nullable p) ||
      searchFrom r (withoutRepeats [] (started.flatMap (derivatives p c))) (some c) cs

/-- Whether some stretch of a text matches. -/
def search (r : Regex) (text : String) : Bool :=
  searchFrom r [] none text.toList

end Regex

end FlowLint.Pattern

import FlowLint.Text.Property.Case

/-! # Small letters

The full lower-case form of a text: each character becomes its small form, one of them two
characters, and a capital sigma becomes the form for the end of a word where it ends one.
-/

namespace FlowLint.Text

/-- Whether the nearest character that is not passed over is cased. -/
def nearestIsCased (cs : List Char) : Bool :=
  match cs.dropWhile isCaseIgnorable with
  | [] => false
  | c :: _ => isCased c

/-- The small form of a character between `before`, nearest first, and `after`. -/
def smallForm (before : List Char) (c : Char) (after : List Char) : List Char :=
  if c.toNat = 0x3A3 then
    [if nearestIsCased before && !nearestIsCased after then Char.ofNat 0x3C2 else Char.ofNat 0x3C3]
  else if c.toNat = 0x130 then ['i', Char.ofNat 0x307]
  else [shifted smallForms c]

/-- The small forms of the rest of a text after `before`, nearest first. -/
def smallFormsAfter (before : List Char) : List Char → List Char
  | [] => []
  | c :: after => smallForm before c after ++ smallFormsAfter (c :: before) after

def lowercase (s : String) : String :=
  String.ofList (smallFormsAfter [] s.toList)

end FlowLint.Text

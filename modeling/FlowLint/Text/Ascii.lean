/-! # Letters A to Z

Comparisons that ignore the case of the 26 letters and of nothing else.
-/

namespace FlowLint.Text

/-- Whether two lists of characters are the same but for the case of the letters A to Z. -/
def sameIgnoringCase (xs ys : List Char) : Bool :=
  xs.map Char.toLower == ys.map Char.toLower

/-- Whether a text begins with another, but for the case of the letters A to Z. -/
def startsWithIgnoringCase (s lead : String) : Bool :=
  (lead.toList.map Char.toLower).isPrefixOf (s.toList.map Char.toLower)

end FlowLint.Text

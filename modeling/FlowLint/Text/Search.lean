/-! # Texts inside texts -/

namespace FlowLint.Text

/-- Whether characters occur next to each other in others. -/
def occursIn (part : List Char) : List Char → Bool
  | [] => part.isEmpty
  | c :: cs => part.isPrefixOf (c :: cs) || occursIn part cs

def contains (whole part : String) : Bool :=
  occursIn part.toList whole.toList

end FlowLint.Text

/-! # Escapes

Texts in which some characters are written as several, so that nothing else takes them for its own.
-/

namespace FlowLint.Text

/-- A text with each character as it is written. -/
def escapeBy (written : Char → List Char) (text : String) : String :=
  String.ofList (text.toList.flatMap written)

@[simp] theorem toList_escapeBy (written : Char → List Char) (text : String) :
    (escapeBy written text).toList = text.toList.flatMap written :=
  String.toList_ofList

end FlowLint.Text

/-! # Text as bytes -/

namespace FlowLint.Text

def toBytes (s : String) : List UInt8 :=
  s.toUTF8.toList

/-- The text that bytes stand for, if they stand for one. -/
def ofBytes? (bytes : List UInt8) : Option String :=
  String.fromUTF8? ⟨bytes.toArray⟩

end FlowLint.Text

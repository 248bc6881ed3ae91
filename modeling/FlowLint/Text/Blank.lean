/-! # Blank characters and trimming

The characters with the Unicode property `White_Space`, and texts stripped of them at both ends.
Markup has a smaller notion of space of its own (`Markup.isSpace`); this one is used wherever a
value is read from a document.
-/

namespace FlowLint.Text

/-- The property `White_Space`: 25 characters, none of them outside the basic plane. -/
def isBlank (c : Char) : Bool :=
  let n := c.toNat
  (9 ≤ n && n ≤ 13) || n == 0x20 || n == 0x85 || n == 0xA0 || n == 0x1680 ||
    (0x2000 ≤ n && n ≤ 0x200A) || n == 0x2028 || n == 0x2029 || n == 0x202F || n == 0x205F ||
    n == 0x3000

def dropBlanks (cs : List Char) : List Char :=
  cs.dropWhile isBlank

/-- The list without blanks at either end. -/
def trimChars (cs : List Char) : List Char :=
  (dropBlanks (dropBlanks cs).reverse).reverse

def trim (s : String) : String :=
  String.ofList (trimChars s.toList)

/-- A text of blanks only, the empty text among them. -/
def isBlankText (s : String) : Bool :=
  s.toList.all isBlank

/-- Dropping leading blanks leaves nothing blank in front. -/
theorem head?_dropBlanks (cs : List Char) : ∀ c ∈ (dropBlanks cs).head?, isBlank c = false := by
  intro c hc
  have h := List.head?_dropWhile_not isBlank cs
  rw [dropBlanks] at hc
  rw [Option.mem_def] at hc
  rw [hc] at h
  simpa using h

/-- Trimming leaves no blank at the end. -/
theorem getLast?_trimChars (cs : List Char) : ∀ c ∈ (trimChars cs).getLast?, isBlank c = false := by
  intro c hc
  rw [trimChars, List.getLast?_reverse] at hc
  exact head?_dropBlanks _ c hc

end FlowLint.Text

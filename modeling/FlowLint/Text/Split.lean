/-! # Splitting and joining

A text cut at every occurrence of one character, and the pieces put together again with it.
-/

namespace FlowLint.Text

/-- The pieces before, between and after the separators; there is always at least one. -/
def splitAt (separator : Char) : List Char → List (List Char)
  | [] => [[]]
  | c :: cs =>
    if c = separator then [] :: splitAt separator cs
    else
      match splitAt separator cs with
      | [] => [[c]]
      | piece :: rest => (c :: piece) :: rest

/-- The pieces with the separator between them. -/
def joinWith (separator : Char) : List (List Char) → List Char
  | [] => []
  | [piece] => piece
  | piece :: rest => piece ++ separator :: joinWith separator rest

theorem splitAt_ne_nil (separator : Char) (cs : List Char) : splitAt separator cs ≠ [] := by
  cases cs with
  | nil => simp [splitAt]
  | cons c cs =>
    simp only [splitAt]
    split
    · simp
    · split <;> simp

/-- Nothing is lost by splitting. -/
@[simp] theorem joinWith_splitAt (separator : Char) (cs : List Char) :
    joinWith separator (splitAt separator cs) = cs := by
  induction cs with
  | nil => rfl
  | cons c cs ih =>
    have hne := splitAt_ne_nil separator cs
    simp only [splitAt]
    cases hs : splitAt separator cs with
    | nil => exact absurd hs hne
    | cons piece rest =>
      rw [hs] at ih
      split
      · next h => subst h; simp [joinWith, ih]
      · cases rest with
        | nil => simpa [joinWith] using ih
        | cons _ _ => simpa [joinWith] using ih

end FlowLint.Text

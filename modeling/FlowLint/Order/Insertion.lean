/-! # Sorted lists without repeats

A finite set of values with a linear order has one written form: its values in order, each once.
`insert` adds a value to such a list and `ofList` brings any list into this form, so two lists with
the same values have the same form.
-/

namespace FlowLint.Order

variable {α : Type} [LT α] [DecidableLT α] [DecidableEq α]

/-- Adds a value to a sorted list, unless it is there already. -/
def insert (x : α) : List α → List α
  | [] => [x]
  | y :: rest => if x < y then x :: y :: rest else if x = y then y :: rest else y :: insert x rest

/-- The values of a list, sorted and each once. -/
def ofList (xs : List α) : List α :=
  xs.foldr insert []

/-- A sorted list with the values of another added. -/
def union (sorted more : List α) : List α :=
  more.foldr insert sorted

@[simp] theorem mem_insert (x y : α) (xs : List α) : y ∈ insert x xs ↔ y = x ∨ y ∈ xs := by
  induction xs with
  | nil => simp [insert]
  | cons z rest ih =>
    simp only [insert]
    split
    · simp
    · split
      · next h => subst h; simp
      · simp only [List.mem_cons, ih]
        grind

@[simp] theorem mem_ofList (y : α) (xs : List α) : y ∈ ofList xs ↔ y ∈ xs := by
  induction xs with
  | nil => simp [ofList]
  | cons x rest ih =>
    have h : ofList (x :: rest) = insert x (ofList rest) := rfl
    simp [h, ih]

end FlowLint.Order

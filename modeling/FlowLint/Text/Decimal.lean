/-! # Decimal numbers

A run of decimal digits and the number it writes.
-/

namespace FlowLint.Text

def digitsValue (ds : List Char) : Nat :=
  Nat.ofDigitChars 10 ds 0

@[simp] theorem digitsValue_toDigits (n : Nat) : digitsValue (Nat.toDigits 10 n) = n :=
  Nat.ofDigitChars_ten_toDigits

theorem digitsValue_concat (ds : List Char) (d : Char) :
    digitsValue (ds ++ [d]) = 10 * digitsValue ds + (d.toNat - 48) := by
  rw [digitsValue, Nat.ofDigitChars_append]
  rfl

end FlowLint.Text

/-! # Hexadecimal text

Digits of numbers and bytes in base sixteen, upper or lower case as the caller asks.
-/

namespace FlowLint.Text

/-- The lower-case digit of a value below sixteen. -/
def lowerHexDigit (n : Nat) : Char :=
  if n < 10 then Char.ofNat (48 + n) else Char.ofNat (87 + n)

/-- The upper-case digit of a value below sixteen. -/
def upperHexDigit (n : Nat) : Char :=
  if n < 10 then Char.ofNat (48 + n) else Char.ofNat (55 + n)

/-- A byte as two lower-case digits. -/
def byteHex (b : UInt8) : List Char :=
  [lowerHexDigit (b.toNat / 16), lowerHexDigit (b.toNat % 16)]

/-- Bytes as lower-case digits, two for each. -/
def bytesHex (bs : List UInt8) : String :=
  String.ofList (bs.flatMap byteHex)

/-- A byte in upper-case digits, without a leading zero. -/
def shortByteHex (b : UInt8) : List Char :=
  if b < 16 then [upperHexDigit b.toNat]
  else [upperHexDigit (b.toNat / 16), upperHexDigit (b.toNat % 16)]

/-- The value of a digit of the given base, which is at most sixteen. -/
def digitValue? (base : Nat) (c : Char) : Option Nat :=
  let n := c.toNat
  let value? :=
    if 48 ≤ n ∧ n ≤ 57 then some (n - 48)
    else if 97 ≤ n ∧ n ≤ 102 then some (n - 87)
    else if 65 ≤ n ∧ n ≤ 70 then some (n - 55)
    else none
  value?.filter (· < base)

end FlowLint.Text

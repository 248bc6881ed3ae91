import FlowLint.Json.Value
import FlowLint.Text.Decimal

/-! # Reading JSON numbers

A numeral without point and exponent that fits 64 bits is a whole number. Any other becomes a
floating-point number in two steps, each rounded: its leading digits, as many as fit 64 bits, become
a magnitude, which is then multiplied or divided by a power of ten. The two roundings are part of
the rule; for numerals of up to fifteen digits and exponents up to 22 the result is the nearest
number.
-/

namespace FlowLint.Json

open FlowLint.Numeric

/-- A significand under construction and the power of ten that it is scaled by. -/
structure Significand where
  value : Nat
  exponent : Int
  /-- Whether a digit has been left out already. -/
  full : Bool

/-- One more digit, if it still fits 64 bits. -/
def Significand.push? (s : Significand) (d : Nat) : Option Nat :=
  let v := s.value * 10 + d
  if v < UInt64.size then some v else none

/-- Digits before the point: once one does not fit, it and all later ones only scale. -/
def Significand.integral (s : Significand) : List Nat → Significand
  | [] => s
  | d :: ds =>
    match s.full, s.push? d with
    | false, some v => Significand.integral { s with value := v } ds
    | _, _ => Significand.integral { s with exponent := s.exponent + 1, full := true } ds

/-- Digits after the point: once one does not fit, it and all later ones are dropped. -/
def Significand.fractional (s : Significand) : List Nat → Significand
  | [] => s
  | d :: ds =>
    match s.push? d with
    | some v => Significand.fractional { s with value := v, exponent := s.exponent - 1 } ds
    | none => s

/-- A magnitude scaled by a power of ten, by at most `steps` divisions by the largest power. Three
steps leave nothing of 64 bits. -/
def scaleByTen (x : Magnitude) : Nat → Int → Option Magnitude
  | 0, _ => some x
  | steps + 1, exponent =>
    if exponent.natAbs ≤ 308 then
      if 0 ≤ exponent then x.mul (Magnitude.powerOfTen exponent.toNat)
      else some (x.div (Magnitude.powerOfTen exponent.natAbs))
    else if x.units = 0 then some x
    else if 0 ≤ exponent then none
    else scaleByTen (x.div (Magnitude.powerOfTen 308)) steps (exponent + 308)

/-- The number that a significand and a further exponent stand for, unless it is too large. -/
def Significand.toNumber? (negative : Bool) (s : Significand) (exponent : Int) : Option Number := do
  let x ← Magnitude.ofQuotient s.value 1
  let y ← scaleByTen x 4 (s.exponent + exponent)
  return .real ⟨negative, y⟩

/-- The values of characters that are all digits. -/
def digitValues (cs : List Char) : List Nat :=
  cs.map fun c => c.toNat - 48

/-- The parts of a numeral as written. -/
structure Numeral where
  negative : Bool
  integral : List Char
  fractional : Option (List Char)
  exponent : Option (Bool × List Char)
deriving Repr, DecidableEq

/-- Digits in front, then the rest. -/
def spanDigits (cs : List Char) : List Char × List Char :=
  (cs.takeWhile Char.isDigit, cs.dropWhile Char.isDigit)

/-- The exponent part of a numeral, which ends it. -/
def readExponent? : List Char → Option (Option (Bool × List Char))
  | [] => some none
  | c :: cs =>
    if c = 'e' ∨ c = 'E' then
      let (minus, digits) :=
        match cs with
        | '+' :: ds => (false, ds)
        | '-' :: ds => (true, ds)
        | ds => (false, ds)
      if digits ≠ [] ∧ digits.all Char.isDigit then some (some (minus, digits)) else none
    else none

/-- Splits a numeral into its parts: no leading zero, at least one digit after a point and after an
exponent sign. -/
def Numeral.ofChars? (cs : List Char) : Option Numeral := do
  let (negative, body) :=
    match cs with
    | '-' :: rest => (true, rest)
    | rest => (false, rest)
  let (integral, rest) := spanDigits body
  if integral = [] ∨ (integral.head? = some '0' ∧ integral.length > 1) then none
  match rest with
  | '.' :: more =>
    let (fractional, rest) := spanDigits more
    if fractional = [] then none
    let exponent ← readExponent? rest
    return ⟨negative, integral, some fractional, exponent⟩
  | rest =>
    let exponent ← readExponent? rest
    return ⟨negative, integral, none, exponent⟩

/-- The number of a numeral, unless it is too large. A whole number below zero that does not fit 64
bits, and minus zero, are floating-point numbers too. -/
def Numeral.toNumber? (n : Numeral) : Option Number :=
  let whole := Significand.integral ⟨0, 0, false⟩ (digitValues n.integral)
  match n.fractional, n.exponent with
  | none, none =>
    if whole.full then whole.toNumber? n.negative 0
    else if !n.negative then some (.int whole.value)
    else if whole.value = 0 ∨ whole.value > UInt64.size / 2 then whole.toNumber? true 0
    else some (.int (-(whole.value : Int)))
  | fractional, exponent =>
    let s := whole.fractional (digitValues (fractional.getD []))
    let e : Int :=
      match exponent with
      | none => 0
      | some (minus, digits) =>
        if minus then -(Text.digitsValue digits : Int) else Text.digitsValue digits
    s.toNumber? n.negative e

def Number.ofChars? (cs : List Char) : Option Number :=
  Numeral.ofChars? cs >>= Numeral.toNumber?

end FlowLint.Json

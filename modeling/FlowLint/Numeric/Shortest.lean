import FlowLint.Numeric.Binary64

/-! # The shortest decimal text of a number

A magnitude is written with the fewest decimal digits that still lie within its rounding interval,
the reals that round to it; of two candidates with equally many digits the nearer is taken, and an
exact tie goes to the even one. Where the digits go and when an exponent is written is a separate
record, so that the choice of digits can be reasoned about alone.
-/

namespace FlowLint.Numeric

/-- Digits and a power of ten: the value is `digits` times ten to the power of `exponent`. -/
structure Decimal where
  digits : Nat
  exponent : Int
deriving Repr, DecidableEq, Inhabited

/-- The reals that round to a magnitude, as numerators over a common denominator. -/
structure Interval where
  low : Nat
  middle : Nat
  high : Nat
  den : Nat
  closed : Bool
deriving Repr, DecidableEq

namespace Magnitude

/-- Half a unit to either side, a quarter below a power of two that has smaller units under it. The
ends round to the magnitude when its number of units is even. -/
def interval (x : Magnitude) : Interval :=
  let below := if x.units = unitsStart ∧ leastExponent < x.exponent then 1 else 2
  let (factor, den) : Nat × Nat :=
    if 2 ≤ x.exponent then (Nat.pow 2 (x.exponent - 2).toNat, 1)
    else (1, Nat.pow 2 (2 - x.exponent).toNat)
  ⟨(4 * x.units - below) * factor, 4 * x.units * factor, (4 * x.units + 2) * factor, den,
    x.units % 2 = 0⟩

end Magnitude

/-- The number of decimal digits; none for zero. -/
def digitCount (n : Nat) : Nat :=
  if n = 0 then 0 else (Nat.toDigits 10 n).length

namespace Interval

/-- The least power of ten above the middle. -/
def decimalExponent (i : Interval) : Int :=
  if i.den ≤ i.middle then (digitCount (i.middle / i.den) : Int)
  else 1 - (digitCount ((i.den - 1) / i.middle) : Int)

/-- A numerator and a denominator scaled by ten to the power of `-exponent`. -/
def scaled (num den : Nat) (exponent : Int) : Nat × Nat :=
  if 0 ≤ exponent then (num, den * Nat.pow 10 exponent.toNat)
  else (num * Nat.pow 10 (-exponent).toNat, den)

def contains (i : Interval) (d : Decimal) : Bool :=
  let (low, den) := scaled i.low i.den d.exponent
  let (high, _) := scaled i.high i.den d.exponent
  let value := d.digits * den
  if i.closed then low ≤ value && value ≤ high else low < value && value < high

/-- The better of the two neighbours of the middle among the multiples of a power of ten, if one of
them lies in the interval. -/
def onGrid? (i : Interval) (exponent : Int) : Option Decimal :=
  let (num, den) := scaled i.middle i.den exponent
  let floor : Decimal := ⟨num / den, exponent⟩
  let ceil : Decimal := ⟨num / den + 1, exponent⟩
  match i.contains floor, i.contains ceil with
  | true, false => some floor
  | false, true => some ceil
  | false, false => none
  | true, true =>
    let twice := 2 * (num % den)
    if twice < den ∨ (twice = den ∧ floor.digits % 2 = 0) then some floor else some ceil

/-- The first grid with a hit, from `exponent` downwards. -/
def firstHit (i : Interval) : Nat → Int → Option Decimal
  | 0, _ => none
  | grids + 1, exponent =>
    match i.onGrid? exponent with
    | some d => some d
    | none => firstHit i grids (exponent - 1)

end Interval

/-- The decimal without trailing zeros; at most `fuel` of them are looked for. -/
def Decimal.stripZeros : Nat → Decimal → Decimal
  | 0, d => d
  | fuel + 1, d =>
    if d.digits ≠ 0 ∧ d.digits % 10 = 0 then stripZeros fuel ⟨d.digits / 10, d.exponent + 1⟩ else d

/-- The shortest decimal of a magnitude: seventeen digits always suffice. -/
def Magnitude.shortest (x : Magnitude) : Decimal :=
  if x.units = 0 then ⟨0, 0⟩
  else
    let i := x.interval
    ((i.firstHit 17 (i.decimalExponent - 1)).getD ⟨x.units, 0⟩).stripZeros 20

/-- How the digits of a number are laid out. -/
structure Layout where
  /-- The leading digit may stand up to this many places before the point. -/
  placesBefore : Int
  /-- The point may stand up to this many zeros before the first digit. -/
  zerosAfter : Int

/-- Digits with a point among them, or with zeros between the point and them, or with an exponent
that has neither a plus sign nor leading zeros. Whole numbers end in `.0`. -/
def Layout.write (l : Layout) (d : Decimal) : String :=
  if d.digits = 0 then "0.0"
  else
    let digits := Nat.toDigits 10 d.digits
    let point : Int := (digits.length : Int) + d.exponent
    let zeros (n : Int) : List Char := List.replicate n.toNat '0'
    if 0 ≤ d.exponent ∧ point ≤ l.placesBefore then
      String.ofList (digits ++ zeros d.exponent ++ ['.', '0'])
    else if 0 < point ∧ point ≤ l.placesBefore then
      String.ofList (digits.take point.toNat ++ '.' :: digits.drop point.toNat)
    else if -l.zerosAfter ≤ point ∧ point ≤ 0 then
      String.ofList ('0' :: '.' :: zeros (-point) ++ digits)
    else
      let fraction := if digits.length = 1 then [] else '.' :: digits.drop 1
      String.ofList (digits.take 1 ++ fraction) ++ "e" ++ toString (point - 1)

def Binary64.write (l : Layout) (x : Binary64) : String :=
  (if x.negative then "-" else "") ++ l.write x.magnitude.shortest

end FlowLint.Numeric

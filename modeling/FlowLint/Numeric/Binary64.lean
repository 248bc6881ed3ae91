/-! # Floating-point numbers of 64 bits

A finite magnitude of the format is a whole number of units, below 2^53 of them, where the unit is a
power of two not below 2^-1074. Arithmetic is on exact quotients, rounded once to the nearest
magnitude with ties to an even number of units. Infinities and not-a-numbers are left out: what is
too large has no magnitude.
-/

namespace FlowLint.Numeric

/-- `units` times two to the power of `exponent`. -/
structure Magnitude where
  units : Nat
  exponent : Int
deriving Repr, DecidableEq, Inhabited

/-- A finite number with its sign, which zero has too. -/
structure Binary64 where
  negative : Bool
  magnitude : Magnitude
deriving Repr, DecidableEq, Inhabited

namespace Magnitude

def leastExponent : Int := -1074

def greatestExponent : Int := 971

/-- The number of units that is never reached, two to the power of 53. -/
def unitsEnd : Nat := 9007199254740992

/-- The least number of units of any but the smallest kind, half of the one never reached. -/
def unitsStart : Nat := 4503599627370496

def zero : Magnitude := ⟨0, leastExponent⟩

/-- The magnitudes of the format, each written in one way only: with the smallest unit that keeps
the number of units below 2^53. -/
structure Canonical (x : Magnitude) : Prop where
  units_lt : x.units < unitsEnd
  least_le : leastExponent ≤ x.exponent
  le_greatest : x.exponent ≤ greatestExponent
  full : unitsStart ≤ x.units ∨ x.exponent = leastExponent

/-- The quotient `num / den` in units of two to the power of `exponent`, as a quotient again. -/
def inUnits (num den : Nat) (exponent : Int) : Nat × Nat :=
  if 0 ≤ exponent then (num, den * Nat.pow 2 exponent.toNat)
  else (num * Nat.pow 2 (-exponent).toNat, den)

/-- The whole number nearest to a quotient, the even one of two. -/
def roundEven (num den : Nat) : Nat :=
  let q := num / den
  let twice := 2 * (num % den)
  if twice > den ∨ (twice = den ∧ q % 2 = 1) then q + 1 else q

/-- The exponent of the unit in which a positive quotient is written. -/
def unitOf (num den : Nat) : Int :=
  let guess : Int := (num.log2 : Int) - (den.log2 : Int) - 52
  let (n, d) := inUnits num den guess
  max leastExponent (if n / d < unitsStart then guess - 1 else guess)

/-- The magnitude nearest to the quotient `num / den`, unless that is too large. -/
def ofQuotient (num den : Nat) : Option Magnitude :=
  if num = 0 then some zero
  else
    let e := unitOf num den
    let (n, d) := inUnits num den e
    let units := roundEven n d
    let rounded : Magnitude := if units = unitsEnd then ⟨unitsStart, e + 1⟩ else ⟨units, e⟩
    if rounded.exponent ≤ greatestExponent then some rounded else none

/-- The magnitude as an exact quotient. -/
def toQuotient (x : Magnitude) : Nat × Nat :=
  if 0 ≤ x.exponent then (x.units * Nat.pow 2 x.exponent.toNat, 1)
  else (x.units, Nat.pow 2 (-x.exponent).toNat)

def mul (x y : Magnitude) : Option Magnitude :=
  let (n, d) := x.toQuotient
  let (n', d') := y.toQuotient
  ofQuotient (n * n') (d * d')

/-- The rounded quotient by something positive; it is never too large here because the divisor is
at least one. -/
def div (x y : Magnitude) : Magnitude :=
  let (n, d) := x.toQuotient
  let (n', d') := y.toQuotient
  (ofQuotient (n * d') (d * n')).getD zero

/-- The magnitude nearest to a power of ten, of which the largest is that of 308. -/
def powerOfTen (k : Nat) : Magnitude :=
  (ofQuotient (Nat.pow 10 k) 1).getD zero

end Magnitude

end FlowLint.Numeric

import FlowLint.Text.Decimal

/-! # Moments

A moment is a date and a time of day at an offset from universal time, as reports write it: a date of
the real calendar, `T`, the time with as many decimals as it needs, and the offset, which is `Z` if it
is zero. Reading is more lenient than writing: any one character may stand between date and time,
decimals past nine are dropped, and a leap second is read as the last moment before it.
-/

namespace FlowLint

def isLeapYear (year : Nat) : Bool :=
  year % 4 = 0 && (year % 100 ≠ 0 || year % 400 = 0)

/-- The number of days of a month; none if there is no such month. -/
def daysIn (year month : Nat) : Nat :=
  if month = 2 then if isLeapYear year then 29 else 28
  else if month ∈ [4, 6, 9, 11] then 30
  else if 1 ≤ month ∧ month ≤ 12 then 31
  else 0

/-- A date and a time of day; the offset is in minutes, east of universal time if positive. -/
structure Moment where
  year : Nat
  month : Nat
  day : Nat
  hour : Nat
  minute : Nat
  second : Nat
  nanosecond : Nat
  offset : Int
  valid : year ≤ 9999 ∧ 1 ≤ day ∧ day ≤ daysIn year month ∧ hour ≤ 23 ∧ minute ≤ 59 ∧ second ≤ 59 ∧
    nanosecond < 1000000000 ∧ offset.natAbs < 1440
deriving Repr, DecidableEq

namespace Moment

/-- The beginning of the year 1970. -/
def epoch : Moment :=
  ⟨1970, 1, 1, 0, 0, 0, 0, 0, by decide⟩

instance : Inhabited Moment :=
  ⟨epoch⟩

/-- The moment with the given parts, if there is one. -/
def make? (year month day hour minute second nanosecond : Nat) (offset : Int) : Option Moment :=
  if valid : year ≤ 9999 ∧ 1 ≤ day ∧ day ≤ daysIn year month ∧ hour ≤ 23 ∧ minute ≤ 59 ∧
      second ≤ 59 ∧ nanosecond < 1000000000 ∧ offset.natAbs < 1440 then
    some { year, month, day, hour, minute, second, nanosecond, offset, valid }
  else none

/-- Whether it is the last minute of a month in universal time. The day there is the same, the one
before or the one after. -/
def endsMonth (m : Moment) : Bool :=
  let minutes : Int := m.hour * 60 + m.minute - m.offset
  let day : Int := m.day + minutes.fdiv 1440
  minutes.fmod 1440 = 1439 && (day = 0 || day = daysIn m.year m.month)

/-- A number of exactly `n` digits, then the rest. -/
def digits? (n : Nat) (cs : List Char) : Option (Nat × List Char) :=
  let ds := cs.take n
  if ds.length = n ∧ ds.all Char.isDigit then some (Text.digitsValue ds, cs.drop n) else none

/-- One character of a kind, then the rest. -/
def skip? (kind : Char → Bool) : List Char → Option (List Char)
  | c :: cs => if kind c then some cs else none
  | [] => none

/-- Digits after the point as nanoseconds. -/
def nanoseconds (ds : List Char) : Nat :=
  Text.digitsValue ((ds ++ List.replicate 9 '0').take 9)

/-- Decimals of the second in nanoseconds, none being nought, then the rest. -/
def fraction? : List Char → Option (Nat × List Char)
  | '.' :: cs =>
    let ds := cs.takeWhile Char.isDigit
    if ds.isEmpty then none else some (nanoseconds ds, cs.dropWhile Char.isDigit)
  | cs => some (0, cs)

def sign? (c : Char) : Option Int :=
  if c = '+' then some 1 else if c = '-' then some (-1) else none

/-- The offset that ends a moment, in minutes. -/
def offset? : List Char → Option Int
  | [] => none
  | c :: cs =>
    if c = 'Z' ∨ c = 'z' then if cs.isEmpty then some 0 else none
    else do
      let sign ← sign? c
      let (hours, cs) ← digits? 2 cs
      let cs ← skip? (· == ':') cs
      let (minutes, cs) ← digits? 2 cs
      if hours ≤ 23 ∧ minutes ≤ 59 ∧ cs = [] then some (sign * (hours * 60 + minutes : Nat)) else none

def parse? (text : String) : Option Moment := do
  let (year, cs) ← digits? 4 text.toList
  let cs ← skip? (· == '-') cs
  let (month, cs) ← digits? 2 cs
  let cs ← skip? (· == '-') cs
  let (day, cs) ← digits? 2 cs
  let cs ← skip? (·.toNat < 128) cs
  let (hour, cs) ← digits? 2 cs
  let cs ← skip? (· == ':') cs
  let (minute, cs) ← digits? 2 cs
  let cs ← skip? (· == ':') cs
  let (second, cs) ← digits? 2 cs
  let (nanosecond, cs) ← fraction? cs
  let offset ← offset? cs
  if second = 60 then
    (make? year month day hour minute 59 999999999 offset).filter endsMonth
  else make? year month day hour minute second nanosecond offset

/-- The last `n` digits of a number. -/
def padded : Nat → Nat → List Char
  | 0, _ => []
  | n + 1, value => padded n (value / 10) ++ [Char.ofNat (48 + value % 10)]

/-- Nanoseconds as decimals, without noughts at the end. -/
def decimals (nanosecond : Nat) : List Char :=
  ((padded 9 nanosecond).reverse.dropWhile (· == '0')).reverse

def offsetText (offset : Int) : List Char :=
  if offset = 0 then ['Z']
  else
    (if offset < 0 then '-' else '+') :: padded 2 (offset.natAbs / 60) ++
      ':' :: padded 2 (offset.natAbs % 60)

def text (m : Moment) : String :=
  String.ofList (padded 4 m.year ++ '-' :: padded 2 m.month ++ '-' :: padded 2 m.day ++
    'T' :: padded 2 m.hour ++ ':' :: padded 2 m.minute ++ ':' :: padded 2 m.second ++
    (if m.nanosecond = 0 then [] else '.' :: decimals m.nanosecond) ++ offsetText m.offset)

end Moment

end FlowLint

import FlowLint.Time.Moment
import Mathlib.Data.List.TakeWhile

/-!
# Moments are read back

A number that is written with a fixed count of digits is read back if it has no more, decimals
are read back without the noughts that are not written, and so is a moment from its text. Which
texts are read besides those that are written is not said here.
-/

namespace FlowLint.Moment

variable {n v : Nat} {rest : List Char} {offset : Int}

/-! ## Digits -/

@[simp] theorem toNat_digit (v : Nat) : (Char.ofNat (48 + v % 10)).toNat - 48 = v % 10 := by
  have hdigits : ∀ d < 10, (Char.ofNat (48 + d)).toNat - 48 = d := by decide
  exact hdigits (v % 10) (Nat.mod_lt v (by decide))

@[simp] theorem isDigit_digit (v : Nat) : (Char.ofNat (48 + v % 10)).isDigit = true := by
  have hdigits : ∀ d < 10, (Char.ofNat (48 + d)).isDigit = true := by decide
  exact hdigits (v % 10) (Nat.mod_lt v (by decide))

@[simp] theorem length_padded (n v : Nat) : (padded n v).length = n := by
  induction n generalizing v with
  | zero => rfl
  | succ n ih => rw [padded, List.length_append, ih, List.length_singleton]

@[simp] theorem all_isDigit_padded (n v : Nat) : (padded n v).all Char.isDigit = true := by
  induction n generalizing v with
  | zero => rfl
  | succ n ih =>
    rw [padded, List.all_append, ih, Bool.true_and, List.all_cons, isDigit_digit]
    rfl

theorem digitsValue_padded (h : v < Nat.pow 10 n) : Text.digitsValue (padded n v) = v := by
  induction n generalizing v with
  | zero => exact (Nat.lt_one_iff.mp h).symm
  | succ n ih =>
    have hquotient : v / 10 < Nat.pow 10 n := Nat.div_lt_of_lt_mul (by rw [Nat.mul_comm]; exact h)
    rw [padded, Text.digitsValue_concat, ih hquotient, toNat_digit]
    omega

theorem digits?_padded (h : v < Nat.pow 10 n) : digits? n (padded n v ++ rest) = some (v, rest) := by
  have hlength := length_padded n v
  have htake : (padded n v ++ rest).take n = padded n v := List.take_left' hlength
  have hdrop : (padded n v ++ rest).drop n = rest := List.drop_left' hlength
  simp [digits?, htake, hdrop, hlength, digitsValue_padded h]

theorem digits?_two (h : v < 100) : digits? 2 (padded 2 v ++ rest) = some (v, rest) :=
  digits?_padded h

/-! ## Decimals -/

/-- What decimals leave out of nine digits are noughts. -/
theorem padded_eq_decimals (v : Nat) :
    ∃ k, padded 9 v = decimals v ++ List.replicate k '0' := by
  let noughts := (padded 9 v).reverse.takeWhile (· == '0')
  have hnoughts : noughts = List.replicate noughts.length '0' :=
    List.eq_replicate_of_mem fun c hc => by simpa using List.mem_takeWhile_imp hc
  refine ⟨noughts.length, ?_⟩
  calc padded 9 v
      = (noughts ++ (padded 9 v).reverse.dropWhile (· == '0')).reverse := by
        rw [List.takeWhile_append_dropWhile, List.reverse_reverse]
    _ = decimals v ++ noughts.reverse := List.reverse_append
    _ = decimals v ++ List.replicate noughts.length '0' := by
        rw [hnoughts, List.reverse_replicate, List.length_replicate]

/-- Decimals are read back with the noughts dropped from their end. -/
theorem nanoseconds_decimals (h : v < 1000000000) : nanoseconds (decimals v) = v := by
  obtain ⟨k, hk⟩ := padded_eq_decimals v
  have hlength := congrArg List.length hk
  rw [length_padded, List.length_append, List.length_replicate] at hlength
  have hnoughts : List.replicate 9 '0' = List.replicate k '0' ++ List.replicate (9 - k) '0' := by
    rw [List.replicate_append_replicate]
    congr 1
    omega
  rw [nanoseconds, hnoughts, ← List.append_assoc, ← hk, List.take_left' (length_padded 9 v)]
  exact digitsValue_padded h

theorem isDigit_of_mem_decimals {c : Char} (h : c ∈ decimals v) : c.isDigit = true := by
  obtain ⟨k, hk⟩ := padded_eq_decimals v
  have hdigits : (padded 9 v).all Char.isDigit = true := all_isDigit_padded 9 v
  refine List.all_eq_true.mp hdigits c ?_
  rw [hk]
  exact List.mem_append_left _ h

theorem decimals_ne_nil (h : v < 1000000000) (hv : v ≠ 0) : decimals v ≠ [] := by
  intro hnil
  refine hv ?_
  rw [← nanoseconds_decimals h, hnil]
  rfl

/-- Decimals end where something else follows. -/
theorem fraction?_decimals (h : v < 1000000000) {c : Char} {cs : List Char}
    (hdigit : c.isDigit = false) (hpoint : c ≠ '.') :
    fraction? ((if v = 0 then [] else '.' :: decimals v) ++ c :: cs) = some (v, c :: cs) := by
  by_cases hv : v = 0
  · rw [if_pos hv, hv, List.nil_append, fraction?.eq_def]
    split
    · next heq => exact absurd (List.cons.inj heq).1 hpoint
    · rfl
  · have hall : ∀ c ∈ decimals v, c.isDigit = true := fun c hc => isDigit_of_mem_decimals hc
    rw [if_neg hv, List.cons_append]
    simp only [fraction?, List.takeWhile_append_of_pos hall, List.dropWhile_append_of_pos hall,
      List.takeWhile_cons_of_neg (by simp [hdigit] : ¬ c.isDigit = true),
      List.dropWhile_cons_of_neg (by simp [hdigit] : ¬ c.isDigit = true), List.append_nil,
      List.isEmpty_eq_false_iff.mpr (decimals_ne_nil h hv), nanoseconds_decimals h]
    rfl

/-! ## Offsets -/

theorem exists_offsetText (offset : Int) :
    ∃ c cs, offsetText offset = c :: cs ∧ c.isDigit = false ∧ c ≠ '.' := by
  unfold offsetText
  split
  · exact ⟨'Z', [], rfl, rfl, by decide⟩
  · split
    · exact ⟨'-', _, rfl, rfl, by decide⟩
    · exact ⟨'+', _, rfl, rfl, by decide⟩

/-- An offset is read back, its sign included. -/
theorem offset?_offsetText (h : offset.natAbs < 1440) :
    offset? (offsetText offset) = some offset := by
  by_cases hzero : offset = 0
  · rw [hzero]
    rfl
  have hhours : offset.natAbs / 60 < 100 := by omega
  have hminutes : offset.natAbs % 60 < 100 := by omega
  have htail : ∀ c sign, sign? c = some sign → c ≠ 'Z' → c ≠ 'z' →
      sign * (offset.natAbs : Int) = offset →
      offset? (c :: padded 2 (offset.natAbs / 60) ++ ':' :: padded 2 (offset.natAbs % 60)) =
        some offset := by
    intro c sign hsign hupper hlower hvalue
    have hlast : digits? 2 (padded 2 (offset.natAbs % 60)) = some (offset.natAbs % 60, []) := by
      rw [← List.append_nil (padded 2 _)]
      exact digits?_two hminutes
    rw [List.cons_append, offset?, if_neg (not_or.mpr ⟨hupper, hlower⟩)]
    simp only [hsign, digits?_two hhours, skip?, hlast, Option.bind_eq_bind, Option.bind_some,
      beq_self_eq_true, if_true, and_true]
    rw [if_pos (by omega), ← hvalue]
    congr 2
    omega
  rw [offsetText, if_neg hzero]
  by_cases hneg : offset < 0
  · rw [if_pos hneg]
    exact htail '-' (-1) rfl (by decide) (by decide) (by omega)
  · rw [if_neg hneg]
    exact htail '+' 1 rfl (by decide) (by decide) (by omega)

/-! ## Moments -/

theorem daysIn_le (year month : Nat) : daysIn year month ≤ 31 := by
  unfold daysIn
  repeat' split
  all_goals decide

theorem month_le {year month : Nat} (h : 1 ≤ daysIn year month) : month ≤ 12 := by
  by_contra hmonth
  have hfour : month ∉ [4, 6, 9, 11] := by
    simp only [List.mem_cons, List.not_mem_nil, or_false]
    omega
  rw [daysIn, if_neg (by omega), if_neg hfour, if_neg (by omega)] at h
  omega

/-- A moment is read back from its text. -/
@[simp] theorem parse?_text (m : Moment) : parse? m.text = some m := by
  obtain ⟨hyear, hfirst, hday, hhour, hminute, hsecond, hnanosecond, hoffset⟩ := m.valid
  have hmonth := month_le (hfirst.trans hday)
  have hdays := daysIn_le m.year m.month
  obtain ⟨c, cs, htext, hdigit, hpoint⟩ := exists_offsetText m.offset
  have hfraction : fraction? ((if m.nanosecond = 0 then [] else '.' :: decimals m.nanosecond) ++
      offsetText m.offset) = some (m.nanosecond, offsetText m.offset) := by
    rw [htext]
    exact fraction?_decimals hnanosecond hdigit hpoint
  have hfour : ∀ rest, digits? 4 (padded 4 m.year ++ rest) = some (m.year, rest) := fun _ =>
    digits?_padded (Nat.lt_succ_of_le hyear)
  have hmonth' : m.month < 100 := by omega
  have hday' : m.day < 100 := by omega
  have hhour' : m.hour < 100 := by omega
  have hminute' : m.minute < 100 := by omega
  have hsecond' : m.second < 100 := by omega
  have hmake : make? m.year m.month m.day m.hour m.minute m.second m.nanosecond m.offset = some m :=
    dif_pos m.valid
  have hbetween : ∀ cs, skip? (·.toNat < 128) ('T' :: cs) = some cs := fun _ => rfl
  have hskip : ∀ c cs, skip? (· == c) (c :: cs) = some cs := fun c cs => if_pos (beq_self_eq_true c)
  rw [parse?, text, String.toList_ofList]
  simp only [List.append_assoc, List.cons_append, hfour, digits?_two hmonth', digits?_two hday',
    digits?_two hhour', digits?_two hminute', digits?_two hsecond', hskip, hbetween,
    Option.bind_eq_bind, Option.bind_some, hfraction, offset?_offsetText hoffset]
  rw [if_neg (by omega), hmake]

end FlowLint.Moment

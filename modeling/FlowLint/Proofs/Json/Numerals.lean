import FlowLint.Json.Number
import FlowLint.Json.Printer
import Mathlib.Data.List.TakeWhile

/-!
# Whole numbers are read back

A whole number of 64 bits, with or without sign, is read back from its digits, and what is read as
a number at all holds only digits, signs, the point and the letter of an exponent. Nothing is said
here of floating-point numbers, whose two roundings need not lead back to the number written.
-/

namespace FlowLint.Json

variable {n v : Nat} {cs rest : List Char} {ds : List Nat}

/-! ## Digits -/

theorem foldl_digitValues (cs : List Char) :
    (digitValues cs).foldl (fun n d => n * 10 + d) 0 = Text.digitsValue cs := by
  simp only [Text.digitsValue, digitValues, List.foldl_map, Nat.ofDigitChars_eq_foldl, Nat.mul_comm]
  rfl

theorem le_foldl_digits (ds : List Nat) (v : Nat) : v ≤ ds.foldl (fun n d => n * 10 + d) v := by
  induction ds generalizing v with
  | nil => exact le_rfl
  | cons d ds ih => exact le_trans (by omega) (ih (v * 10 + d))

/-- Digits that fit 64 bits are all taken. -/
theorem Significand.integral_of_lt
    (h : ds.foldl (fun n d => n * 10 + d) v < UInt64.size) :
    Significand.integral ⟨v, 0, false⟩ ds = ⟨ds.foldl (fun n d => n * 10 + d) v, 0, false⟩ := by
  induction ds generalizing v with
  | nil => rfl
  | cons d ds ih =>
    have hfits : v * 10 + d < UInt64.size := lt_of_le_of_lt (le_foldl_digits ds _) h
    have hpush : Significand.push? ⟨v, 0, false⟩ d = some (v * 10 + d) := if_pos hfits
    rw [integral, hpush]
    exact ih h

theorem isDigit_toDigits {c : Char} (h : c ∈ Nat.toDigits 10 n) : c.isDigit = true :=
  Nat.isDigit_of_mem_toDigits (by decide) (by decide) h

theorem head?_toDigits (h : 0 < n) : (Nat.toDigits 10 n).head? ≠ some '0' := by
  induction n using Nat.strongRecOn with
  | ind n ih =>
    rw [Nat.toDigits_eq_if (by decide)]
    split
    · simp only [List.head?_cons, ne_eq, Option.some.injEq, Nat.digitChar_eq_zero]
      exact h.ne'
    · rw [List.head?_append, List.head?_eq_some_head Nat.toDigits_ne_nil, Option.some_or,
        ← List.head?_eq_some_head]
      exact ih (n / 10) (by omega) (by omega)

/-- Only nought begins with a nought. -/
theorem toDigits_leading (n : Nat) :
    ¬((Nat.toDigits 10 n).head? = some '0' ∧ (Nat.toDigits 10 n).length > 1) := by
  rintro ⟨hhead, hlength⟩
  rcases Nat.eq_zero_or_pos n with rfl | hpos
  · simp at hlength
  · exact head?_toDigits hpos hhead

@[simp] theorem spanDigits_toDigits (n : Nat) :
    spanDigits (Nat.toDigits 10 n) = (Nat.toDigits 10 n, []) := by
  have htakeWhile : (Nat.toDigits 10 n).takeWhile Char.isDigit = Nat.toDigits 10 n :=
    List.takeWhile_eq_self_iff.mpr fun _ => isDigit_toDigits
  have hnil : (Nat.toDigits 10 n).dropWhile Char.isDigit = [] :=
    List.dropWhile_eq_nil_iff.mpr fun _ => isDigit_toDigits
  exact Prod.ext htakeWhile hnil

/-! ## Whole numbers -/

/-- Digits are a numeral without point and exponent, with a sign in front as well. -/
theorem Numeral.ofChars?_toDigits (n : Nat) :
    Numeral.ofChars? (Nat.toDigits 10 n) = some ⟨false, Nat.toDigits 10 n, none, none⟩ ∧
      Numeral.ofChars? ('-' :: Nat.toDigits 10 n) = some ⟨true, Nat.toDigits 10 n, none, none⟩ := by
  have hplain : ¬(Nat.toDigits 10 n = [] ∨
      ((Nat.toDigits 10 n).head? = some '0' ∧ (Nat.toDigits 10 n).length > 1)) :=
    not_or.mpr ⟨Nat.toDigits_ne_nil, toDigits_leading n⟩
  constructor
  · rw [ofChars?, spanDigits_toDigits]
    · simp only [if_neg hplain]
      rfl
    · intro rest heq
      have hminus : '-' ∈ Nat.toDigits 10 n := by rw [heq]; exact List.mem_cons_self
      exact absurd (isDigit_toDigits hminus) (by decide)
  · rw [ofChars?, spanDigits_toDigits]
    simp only [if_neg hplain]
    rfl

/-- A whole number of 64 bits is read back. -/
theorem Number.ofChars?_write_int {n : Int} (h : -(UInt64.size / 2 : Nat) ≤ n ∧ n < UInt64.size) :
    Number.ofChars? (Number.int n).write.toList = some (.int n) := by
  have hwhole : ∀ {m : Nat}, m < UInt64.size →
      Significand.integral ⟨0, 0, false⟩ (digitValues (Nat.toDigits 10 m)) = ⟨m, 0, false⟩ := by
    intro m hm
    have hvalue : (digitValues (Nat.toDigits 10 m)).foldl (fun n d => n * 10 + d) 0 = m := by
      rw [foldl_digitValues, Text.digitsValue_toDigits]
    rw [Significand.integral_of_lt (hvalue.symm ▸ hm), hvalue]
  have hsize : UInt64.size = 18446744073709551616 := rfl
  cases n with
  | ofNat m =>
    have hm : m < UInt64.size := Int.ofNat_lt.mp h.2
    have htext : (Number.int (.ofNat m)).write.toList = Nat.toDigits 10 m := Nat.toList_repr
    rw [htext, Number.ofChars?, (Numeral.ofChars?_toDigits m).1, Option.bind_eq_bind,
      Option.bind_some]
    simp only [Numeral.toNumber?, hwhole hm]
    rfl
  | negSucc m =>
    have hm : m + 1 ≤ UInt64.size / 2 := by omega
    have htext : (Number.int (.negSucc m)).write.toList = '-' :: Nat.toDigits 10 (m + 1) := by
      change ("-" ++ (m + 1).repr).toList = _
      rw [String.toList_append, Nat.toList_repr]
      rfl
    rw [htext, Number.ofChars?, (Numeral.ofChars?_toDigits (m + 1)).2, Option.bind_eq_bind,
      Option.bind_some]
    simp only [Numeral.toNumber?, hwhole (by omega : m + 1 < UInt64.size)]
    have hsmall : ¬(m + 1 = 0 ∨ m + 1 > UInt64.size / 2) := by omega
    rw [if_neg (by decide : ¬(!true) = true), if_neg hsmall]
    rfl

/-! ## The characters of numbers -/

/-- Whether a character can stand in a number. -/
def isNumeralChar (c : Char) : Bool :=
  c.isDigit || ['-', '+', '.', 'e', 'E'].contains c

theorem isNumeralChar_of_isDigit {c : Char} (h : c.isDigit = true) : isNumeralChar c = true := by
  rw [isNumeralChar, h, Bool.true_or]

theorem all_isNumeralChar_of_isDigit (h : cs.all Char.isDigit = true) :
    cs.all isNumeralChar = true :=
  List.all_eq_true.mpr fun c hc => isNumeralChar_of_isDigit (List.all_eq_true.mp h c hc)

/-- Every part of a numeral consists of characters of numerals. -/
theorem all_of_readExponent? {e : Option (Bool × List Char)} (h : readExponent? cs = some e) :
    cs.all isNumeralChar = true := by
  cases cs with
  | nil => rfl
  | cons c cs =>
    simp only [readExponent?] at h
    split at h
    · next hc =>
      have hletter : isNumeralChar c = true := by rcases hc with rfl | rfl <;> decide
      have hdigits : ∀ {minus : Bool} {ds : List Char},
          (if ds ≠ [] ∧ ds.all Char.isDigit = true then some (some (minus, ds)) else none) = some e →
            ds.all isNumeralChar = true := fun h =>
        all_isNumeralChar_of_isDigit (Option.ite_none_right_eq_some.mp h).1.2
      rw [List.all_cons, hletter, Bool.true_and]
      split at h
      · rw [List.all_cons, Bool.and_eq_true]
        exact ⟨by decide, hdigits h⟩
      · rw [List.all_cons, Bool.and_eq_true]
        exact ⟨by decide, hdigits h⟩
      · exact hdigits h
    · cases h

theorem all_of_all_dropWhile (h : (cs.dropWhile Char.isDigit).all isNumeralChar = true) :
    cs.all isNumeralChar = true := by
  rw [← List.takeWhile_append_dropWhile (p := Char.isDigit) (l := cs), List.all_append,
    Bool.and_eq_true]
  have hnumerals : (cs.takeWhile Char.isDigit).all isNumeralChar = true :=
    all_isNumeralChar_of_isDigit (List.all_eq_true.mpr fun _ => List.mem_takeWhile_imp)
  exact ⟨hnumerals, h⟩

/-- What is read as a number has only the characters of numbers. -/
theorem Numeral.all_of_ofChars? {m : Numeral} (h : Numeral.ofChars? cs = some m) :
    cs.all isNumeralChar = true := by
  unfold ofChars? at h
  simp only [spanDigits, Option.bind_eq_bind, Option.bind_none] at h
  split at h
  case' h_1 body =>
    rw [List.all_cons, Bool.and_eq_true]
    refine ⟨by decide, all_of_all_dropWhile ?_⟩
  case' h_2 => refine all_of_all_dropWhile ?_
  all_goals
    replace h := (Option.ite_none_left_eq_some.mp h).2
    split at h
    · next more hpoint =>
      obtain ⟨e, he, -⟩ := Option.bind_eq_some_iff.mp (Option.ite_none_left_eq_some.mp h).2
      rw [hpoint, List.all_cons, Bool.and_eq_true]
      exact ⟨by decide, all_of_all_dropWhile (all_of_readExponent? he)⟩
    · obtain ⟨e, he, -⟩ := Option.bind_eq_some_iff.mp h
      exact all_of_readExponent? he

/-- What is read as a number holds nothing that would end it. -/
theorem Number.all_of_ofChars? {n : Number} (h : Number.ofChars? cs = some n) :
    cs.all isNumeralChar = true := by
  obtain ⟨m, hm, -⟩ := Option.bind_eq_some_iff.mp h
  exact Numeral.all_of_ofChars? hm

end FlowLint.Json

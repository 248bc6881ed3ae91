import FlowLint.Text.Blank
import Mathlib.Data.List.DropRight
import Mathlib.Data.List.TakeWhile

/-!
# What trimming leaves

Trimming drops blanks from both ends. Nothing is left exactly of texts that are blank throughout;
blanks between other characters stay. What is left begins and ends with other characters, and
blanks in front that are dropped before make no difference.
-/

namespace FlowLint.Text

variable {cs : List Char}

@[simp] theorem dropBlanks_eq_nil_iff : dropBlanks cs = [] ↔ ∀ c ∈ cs, isBlank c = true := by
  rw [dropBlanks, List.dropWhile_eq_nil_iff]

@[simp] theorem trimChars_eq_nil_iff : trimChars cs = [] ↔ ∀ c ∈ cs, isBlank c = true := by
  rw [trimChars, List.reverse_eq_nil_iff, dropBlanks_eq_nil_iff]
  constructor
  · intro hblank
    apply dropBlanks_eq_nil_iff.mp
    -- A character in front of what the first pass leaves would not be blank.
    cases hleft : dropBlanks cs with
    | nil => rfl
    | cons c rest =>
      have hfront : isBlank c = false := head?_dropBlanks cs c (by rw [hleft]; rfl)
      have hback : isBlank c = true := hblank c (by rw [hleft]; simp)
      rw [hfront] at hback
      cases hback
  · intro hall
    rw [dropBlanks_eq_nil_iff.mpr hall]
    intro c hc
    cases hc

/-- Nothing is left exactly if there was nothing but blanks. -/
@[simp] theorem trim_eq_empty_iff {s : String} : trim s = "" ↔ isBlankText s = true := by
  simp [trim, isBlankText]

/-! ## The ends -/

@[simp]
theorem dropBlanks_dropBlanks (cs : List Char) : dropBlanks (dropBlanks cs) = dropBlanks cs :=
  List.dropWhile_idempotent isBlank cs

theorem dropBlanks_append (cs ds : List Char) :
    dropBlanks (dropBlanks cs ++ ds) = dropBlanks (cs ++ ds) := by
  induction cs with
  | nil => rfl
  | cons c rest ih =>
    by_cases hc : isBlank c = true
    · have hcons : ∀ more, dropBlanks (c :: more) = dropBlanks more := fun _ =>
        List.dropWhile_cons_of_pos hc
      rw [hcons, ih, List.cons_append, hcons]
    · have hcons : dropBlanks (c :: rest) = c :: rest := List.dropWhile_cons_of_neg hc
      rw [hcons]

@[simp]
theorem trimChars_dropBlanks (cs : List Char) : trimChars (dropBlanks cs) = trimChars cs := by
  simp [trimChars]

/-- Blanks in front can be dropped before or after a text is cut off at a character that is not
blank. -/
theorem takeWhile_dropBlanks {p : Char → Bool} (h : ∀ c, isBlank c = true → p c = true)
    (cs : List Char) : (dropBlanks cs).takeWhile p = dropBlanks (cs.takeWhile p) := by
  rw [dropBlanks, dropBlanks]
  induction cs with
  | nil => rfl
  | cons c rest ih =>
    by_cases hc : isBlank c = true
    · rw [List.dropWhile_cons_of_pos hc, ih, List.takeWhile_cons_of_pos (h c hc),
        List.dropWhile_cons_of_pos hc]
    · rw [List.dropWhile_cons_of_neg hc]
      by_cases hp : p c = true
      · rw [List.takeWhile_cons_of_pos hp, List.dropWhile_cons_of_neg hc]
      · rw [List.takeWhile_cons_of_neg hp, List.dropWhile_nil]

/-- What is left of a text after dropping blanks behind is the front of it. -/
theorem isPrefix_trimChars (cs : List Char) : trimChars cs <+: dropBlanks cs :=
  List.rdropWhile_prefix isBlank (dropBlanks cs)

theorem mem_of_mem_trimChars {c : Char} (h : c ∈ trimChars cs) : c ∈ cs := by
  have hmem : c ∈ dropBlanks cs := (isPrefix_trimChars cs).mem h
  exact (List.dropWhile_suffix isBlank).mem hmem

theorem head?_trimChars (cs : List Char) : ∀ c ∈ (trimChars cs).head?, isBlank c = false := by
  intro c hc
  obtain ⟨behind, hbehind⟩ := isPrefix_trimChars cs
  refine head?_dropBlanks cs c ?_
  rw [← hbehind, List.head?_append, Option.mem_def.mp hc]
  rfl

/-- A text that can be compared as it stands: there is something in it, and no blank at its ends. -/
structure Trimmed (s : String) : Prop where
  ne_empty : s ≠ ""
  front : ∀ c ∈ s.toList.head?, isBlank c = false
  back : ∀ c ∈ s.toList.getLast?, isBlank c = false

/-- What is left after trimming is trimmed. -/
theorem trimmed_ofList (h : trimChars cs ≠ []) : Trimmed (String.ofList (trimChars cs)) where
  ne_empty := by rwa [ne_eq, String.ofList_eq_empty_iff]
  front := by
    rw [String.toList_ofList]
    exact head?_trimChars cs
  back := by
    rw [String.toList_ofList]
    exact getLast?_trimChars cs

end FlowLint.Text

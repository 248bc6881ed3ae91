import Mathlib.Data.List.Basic

/-!
# Interleavings

Several lists are interleaved by taking, over and over, the first value left of one of
them, until none is left of any. A list of labelled values is an interleaving of the lists
that its labels pick out, in whatever order the labels come.
-/

namespace FlowLint.Order

variable {α : Type}

/-- The second list takes the values of the first ones in turns, each of them in its order. -/
inductive Interleaving : List (List α) → List α → Prop
  | nil {lists : List (List α)} (exhausted : ∀ xs ∈ lists, xs = []) : Interleaving lists []
  | cons {lists : List (List α)} {place : Nat} {x : α} {rest xs : List α}
      (first : lists[place]? = some (x :: rest))
      (remaining : Interleaving (lists.set place rest) xs) : Interleaving lists (x :: xs)

/-- An interleaving holds the values of the lists and no others, each as often. -/
theorem Interleaving.perm {lists : List (List α)} {xs : List α} (h : Interleaving lists xs) :
    xs.Perm lists.flatten := by
  induction h with
  | nil exhausted => rw [List.flatten_eq_nil_iff.mpr exhausted]
  | @cons lists place x rest xs first _ ih =>
    obtain ⟨hplace, hfirst⟩ := List.getElem?_eq_some_iff.mp first
    have hlists : lists = lists.take place ++ (x :: rest) :: lists.drop (place + 1) := by
      rw [← hfirst, ← List.drop_eq_getElem_cons hplace, List.take_append_drop]
    rw [List.set_eq_take_append_cons_drop, if_pos hplace] at ih
    rw [hlists]
    simp only [List.flatten_append, List.flatten_cons] at ih ⊢
    exact (ih.cons x).trans List.perm_middle.symm

/-! ## Labels -/

/-- The values with a label. -/
def labelled (label : Nat) (xs : List (Nat × α)) : List α :=
  (xs.filter (·.1 = label)).map (·.2)

@[simp] theorem labelled_append (label : Nat) (xs ys : List (Nat × α)) :
    labelled label (xs ++ ys) = labelled label xs ++ labelled label ys := by
  rw [labelled, List.filter_append, List.map_append]
  rfl

@[simp] theorem labelled_cons_self (label : Nat) (x : α) (rest : List (Nat × α)) :
    labelled label ((label, x) :: rest) = x :: labelled label rest := by
  simp [labelled]

theorem labelled_cons_ne {label other : Nat} (h : other ≠ label) (x : α)
    (rest : List (Nat × α)) : labelled label ((other, x) :: rest) = labelled label rest := by
  simp [labelled, h]

@[simp] theorem map_snd_map_label (label : Nat) (xs : List α) :
    (xs.map (label, ·)).map Prod.snd = xs := by
  rw [List.map_map]
  exact List.map_id xs

@[simp] theorem labelled_map_self (label : Nat) (xs : List α) :
    labelled label (xs.map (label, ·)) = xs := by
  induction xs with
  | nil => rfl
  | cons x rest ih => rw [List.map_cons, labelled_cons_self, ih]

theorem labelled_map_ne {label other : Nat} (h : other ≠ label) (xs : List α) :
    labelled label (xs.map (other, ·)) = [] := by
  induction xs with
  | nil => rfl
  | cons x rest ih => rw [List.map_cons, labelled_cons_ne h, ih]

theorem labelled_eq_map_snd {label : Nat} {xs : List (Nat × α)} (h : ∀ x ∈ xs, x.1 = label) :
    labelled label xs = xs.map Prod.snd := by
  rw [labelled, List.filter_eq_self.mpr fun x hx => decide_eq_true (h x hx)]

/-- Without their labels, values are an interleaving of those with each label. -/
theorem interleaving_labelled (count : Nat) (xs : List (Nat × α)) (h : ∀ x ∈ xs, x.1 < count) :
    Interleaving ((List.range count).map (labelled · xs)) (xs.map Prod.snd) := by
  induction xs with
  | nil =>
    refine .nil fun ys hys => ?_
    obtain ⟨label, -, rfl⟩ := List.mem_map.mp hys
    rfl
  | cons x rest ih =>
    obtain ⟨label, value⟩ := x
    have hlabel : label < count := h (label, value) List.mem_cons_self
    have hplace : ((List.range count).map (labelled · ((label, value) :: rest)))[label]? =
        some (value :: labelled label rest) := by
      rw [List.getElem?_map, List.getElem?_range hlabel, Option.map_some, labelled_cons_self]
    -- Taking the value leaves what the rest has of its label, and all of the other labels.
    have hset : ((List.range count).map (labelled · ((label, value) :: rest))).set label
        (labelled label rest) = (List.range count).map (labelled · rest) := by
      apply List.ext_getElem?
      intro place
      rw [List.getElem?_set]
      by_cases hother : label = place
      · subst hother
        simp [hlabel]
      · rw [if_neg hother, List.getElem?_map, List.getElem?_map]
        cases hrange : (List.range count)[place]? with
        | none => rfl
        | some other =>
          obtain ⟨hlt, rfl⟩ := List.getElem?_eq_some_iff.mp hrange
          rw [List.getElem_range, Option.map_some, Option.map_some, labelled_cons_ne hother]
    refine .cons hplace ?_
    rw [hset]
    exact ih fun x hx => h x (List.mem_cons_of_mem _ hx)

end FlowLint.Order

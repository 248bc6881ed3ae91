import FlowLint.Proofs.RulesFile.Grammar
import Mathlib.Logic.Relation
import Mathlib.Data.List.Basic

/-!
# The graph of imports

A file imports the files that its references resolve to. The unfolding of a file walks
every path of imports to its end, as if no file were ever shared; it exists exactly where
no chain of imports goes on for ever. Keeping the first occurrence of each file turns it
into an order in which every file comes once and after all it imports. Neither notion
speaks of the files that loading has seen or is busy with.
-/

namespace FlowLint.RulesFile

open Relation (ReflTransGen TransGen)

/-- The files that a file imports, in the order in which it declares them. References that
lead nowhere are left out, and a file that cannot be read imports nothing. -/
def targets (s : Source) (p : Path) : List Path :=
  match document s p with
  | .error _ => []
  | .ok root => (declarations root .imports).filterMap fun e => (s.locate (reference p e)).toOption

def Imports (s : Source) (p q : Path) : Prop := q ∈ targets s p

/-- One file leads to another through any number of imports, possibly none. -/
def Reaches (s : Source) : Path → Path → Prop := ReflTransGen (Imports s)

/-- A file leads back to itself through one import or more. -/
def OnCycle (s : Source) (p : Path) : Prop := TransGen (Imports s) p p

/-- Every chain of imports from the file comes to an end. -/
def Grounded (s : Source) (p : Path) : Prop := Acc (fun q p => Imports s p q) p

/-- All paths of imports from a file, each walked to its end: what each import unfolds to,
in the order of declaration, and then the file itself. -/
inductive Unfolding (s : Source) : Path → List Path → Prop
  | intro {p : Path} (below : Path → List Path)
      (h : ∀ q ∈ targets s p, Unfolding s q (below q)) :
      Unfolding s p ((targets s p).flatMap below ++ [p])

variable {s : Source} {p q c : Path} {l : List Path}

/-! ## Chains of imports -/

/-- Where imports come to an end there is no cycle. -/
theorem Grounded.not_onCycle (h : Grounded s p) : ¬ OnCycle s p := by
  induction h with
  | intro p _ ih =>
    intro hcycle
    obtain ⟨q, hpq, hqp⟩ := TransGen.head'_iff.mp hcycle
    exact ih q hpq (TransGen.tail' hqp hpq)

theorem Grounded.of_reaches (h : Grounded s p) (hr : Reaches s p c) : Grounded s c := by
  induction hr with
  | refl => exact h
  | tail _ hbc ih => exact ih.inv hbc

/-- A file of a cycle is not below a file whose chains of imports all end. -/
theorem not_onCycle_of_reaches (h : Grounded s p) (hr : Reaches s p c) : ¬ OnCycle s c :=
  (h.of_reaches hr).not_onCycle

theorem located_of_imports (h : Imports s p q) : ∃ r, s.locate r = .ok q := by
  unfold Imports targets at h
  split at h
  · exact absurd h List.not_mem_nil
  · obtain ⟨e, -, he⟩ := List.mem_filterMap.mp h
    refine ⟨reference p e, ?_⟩
    cases hl : s.locate (reference p e) with
    | error _ => simp [hl, Except.toOption] at he
    | ok q' =>
      rw [hl] at he
      have heq : q' = q := Option.some.inj he
      rw [heq]

/-! ## Unfoldings -/

/-- Where imports come to an end they can be written out. -/
theorem Grounded.exists_unfolding (h : Grounded s p) : ∃ l, Unfolding s p l := by
  induction h with
  | intro p _ ih =>
    choose! below hbelow using ih
    exact ⟨_, .intro below hbelow⟩

theorem Unfolding.of_targets {ts : List Path} (below : Path → List Path) (ht : targets s p = ts)
    (h : ∀ q ∈ ts, Unfolding s q (below q)) : Unfolding s p (ts.flatMap below ++ [p]) := by
  subst ht
  exact .intro below h

theorem Unfolding.leaf (ht : targets s p = []) : Unfolding s p [p] := by
  have h : Unfolding s p ([].flatMap (fun _ => []) ++ [p]) :=
    .of_targets (fun _ => []) ht fun q hq => absurd hq List.not_mem_nil
  exact h

theorem Unfolding.grounded (h : Unfolding s p l) : Grounded s p := by
  induction h with
  | intro below _ ih => exact .intro _ ih

theorem Unfolding.self_mem (h : Unfolding s p l) : p ∈ l := by
  cases h
  simp

theorem Unfolding.reaches_of_mem (h : Unfolding s p l) (hq : q ∈ l) : Reaches s p q := by
  induction h generalizing q with
  | intro below _ ih =>
    rcases List.mem_append.mp hq with hq | hq
    · obtain ⟨t, ht, hq⟩ := List.mem_flatMap.mp hq
      exact (ih t ht hq).head ht
    · rw [List.mem_singleton.mp hq]
      exact .refl

/-- What is imported by a file that is written out is written out as well. -/
theorem Unfolding.mem_of_imports (h : Unfolding s p l) (hq : q ∈ l) (hi : Imports s q c) :
    c ∈ l := by
  induction h generalizing q with
  | intro below hbelow ih =>
    rcases List.mem_append.mp hq with hq | hq
    · obtain ⟨t, ht, hq⟩ := List.mem_flatMap.mp hq
      exact List.mem_append_left _ (List.mem_flatMap.mpr ⟨t, ht, ih t ht hq hi⟩)
    · rw [List.mem_singleton.mp hq] at hi
      exact List.mem_append_left _ (List.mem_flatMap.mpr ⟨c, hi, (hbelow c hi).self_mem⟩)

/-- The unfolding holds the files that are reached and no others. -/
theorem Unfolding.mem_iff (h : Unfolding s p l) : q ∈ l ↔ Reaches s p q := by
  constructor
  · exact h.reaches_of_mem
  · intro hr
    induction hr with
    | refl => exact h.self_mem
    | tail _ hbc ih => exact h.mem_of_imports ih hbc

/-- What lies below a file does not lead back to it. -/
theorem Unfolding.not_mem_below {below : Path → List Path}
    (h : ∀ q ∈ targets s p, Unfolding s q (below q)) : p ∉ (targets s p).flatMap below := by
  intro hp
  obtain ⟨t, ht, hp⟩ := List.mem_flatMap.mp hp
  have hground : Grounded s p := (Unfolding.intro below h).grounded
  have htransGen : TransGen (Imports s) p p := TransGen.head' ht ((h t ht).reaches_of_mem hp)
  exact hground.not_onCycle htransGen

/-! ## First occurrences -/

theorem exists_split_of_flatMap {ts : List Path} {f : Path → List Path} {a : Path}
    {before after : List Path} (h : ts.flatMap f = before ++ a :: after) :
    ∃ t ∈ ts, ∃ x y, f t = x ++ a :: y ∧ x ⊆ before := by
  induction ts generalizing before with
  | nil => simp at h
  | cons t rest ih =>
    rw [List.flatMap_cons] at h
    rcases List.append_eq_append_iff.mp h with ⟨m, hb, hr⟩ | ⟨m, ht, hr⟩
    · obtain ⟨t', ht', x, y, hxy, hx⟩ := ih hr
      refine ⟨t', List.mem_cons_of_mem _ ht', x, y, hxy, fun z hz => ?_⟩
      rw [hb]
      exact List.mem_append_right _ (hx hz)
    · cases m with
      | nil =>
        have hr : rest.flatMap f = [] ++ a :: after := by simpa using hr.symm
        obtain ⟨t', ht', x, y, hxy, hx⟩ := ih hr
        exact ⟨t', List.mem_cons_of_mem _ ht', x, y, hxy, fun z hz => absurd (hx hz) List.not_mem_nil⟩
      | cons b m =>
        obtain ⟨rfl, -⟩ := List.cons.inj (hr : a :: after = b :: (m ++ _))
        exact ⟨t, List.mem_cons_self, before, m, ht, fun z hz => hz⟩

/-- Wherever a file stands in an unfolding, all it imports stands further to the front. -/
theorem Unfolding.imports_before (h : Unfolding s p l) {before after : List Path}
    (hl : l = before ++ q :: after) (hi : Imports s q c) : c ∈ before := by
  induction h generalizing before after with
  | @intro p below hbelow ih =>
    rcases List.eq_nil_or_concat after with rfl | ⟨after, last, rfl⟩
    · obtain ⟨hb, hp⟩ := List.append_inj' hl rfl
      obtain rfl := (List.cons.inj hp).1
      rw [← hb]
      exact List.mem_flatMap.mpr ⟨c, hi, (hbelow c hi).self_mem⟩
    · rw [List.concat_eq_append, ← List.cons_append, ← List.append_assoc] at hl
      obtain ⟨t, ht, x, y, hxy, hx⟩ := exists_split_of_flatMap (List.append_inj' hl rfl).1
      exact hx (ih t ht hxy)

/-- Values that stand before the first occurrence of another keep that place when repeats
are dropped. -/
theorem pair_sublist_eraseDups {a b : Path} (ha : a ∈ l)
    (hb : ∀ before after, l = before ++ a :: after → b ∈ before) : [b, a].Sublist l.eraseDups := by
  obtain ⟨before, after, hl, hfirst⟩ := List.eq_append_cons_of_mem ha
  have hmem : b ∈ before.eraseDups := List.mem_eraseDups.mpr (hb before after hl)
  have hkeep : (a :: after).removeAll before = a :: after.removeAll before := by
    simp [List.cons_removeAll, hfirst]
  rw [hl, List.eraseDups_append, hkeep, List.eraseDups_cons]
  exact (List.singleton_sublist.mpr hmem).append (List.singleton_sublist.mpr List.mem_cons_self)

theorem nodup_eraseDups (l : List Path) : l.eraseDups.Nodup := by
  induction h : l.length using Nat.strongRecOn generalizing l with
  | _ n ih =>
    cases l with
    | nil => exact List.nodup_nil
    | cons a rest =>
      rw [List.eraseDups_cons]
      refine List.nodup_cons.mpr ⟨by simp, ih _ ?_ _ rfl⟩
      have hle := List.length_filter_le (fun b => !b == a) rest
      rw [List.length_cons] at h
      omega

/-- The files of a list that are not among those seen, each at its first occurrence. -/
def fresh (seen l : List Path) : List Path :=
  (l.filter (!seen.contains ·)).eraseDups

@[simp] theorem fresh_nil_left : fresh [] l = l.eraseDups := by
  simp [fresh]

theorem fresh_eq_nil {seen : List Path} (h : ∀ x ∈ l, x ∈ seen) : fresh seen l = [] := by
  have hnone : l.filter (!seen.contains ·) = [] := by simpa using h
  rw [fresh, hnone, List.eraseDups_nil]

/-- Files count as seen if they were so before or stand further to the front. -/
theorem fresh_append {seen seen' m : List Path} (h : ∀ x, x ∈ seen' ↔ x ∈ seen ∨ x ∈ l) :
    fresh seen (l ++ m) = fresh seen l ++ fresh seen' m := by
  rw [fresh, List.filter_append, List.eraseDups_append, fresh, fresh]
  congr 2
  rw [List.removeAll, List.filter_filter]
  refine List.filter_congr fun x hx => ?_
  by_cases hs : x ∈ seen <;> by_cases hl : x ∈ l <;> simp [h, hs, hl]

theorem fresh_concat {seen : List Path} (hs : p ∉ seen) (hl : p ∉ l) :
    fresh seen (l ++ [p]) = fresh (p :: seen) l ++ [p] := by
  have hp : p ∉ seen ++ l := by simp [hs, hl]
  have hseen : fresh (p :: seen) l = fresh seen l := by
    rw [fresh, fresh]
    congr 1
    refine List.filter_congr fun x hx => ?_
    have hne : x ≠ p := fun h => hl (h ▸ hx)
    simp [hne]
  have hmem : ∀ x, x ∈ seen ++ l ↔ x ∈ seen ∨ x ∈ l := fun x => List.mem_append
  rw [hseen, fresh_append hmem]
  congr 1
  simp only [fresh, List.filter_singleton, List.contains_iff_mem.not.mpr hp]
  rfl

end FlowLint.RulesFile

import FlowLint.Pattern.Matcher
import Mathlib.Data.List.Basic

/-!
# What patterns match

A pattern matches a stretch of a text or does not. Looks ask about the characters next to the
stretch, so these belong to the question: the last one before it and the first one after it. The
search by derivatives finds a match if and only if some stretch matches. For this no repetition
may ask for more at least than at most, since such a repetition matches nothing but has
derivatives all the same; the reader of patterns lets none through.
-/

namespace FlowLint.Pattern

/-- Which stretches match, given the characters before and after them. -/
abbrev Matching := Option Char → List Char → Option Char → Prop

namespace Matching

/-- A stretch of one kind and then one of another. -/
def andThen (p q : Matching) : Matching := fun before w after =>
  ∃ u v, w = u ++ v ∧ p before u (v.head?.or after) ∧ q (u.getLast?.or before) v after

/-- So many stretches of one kind, one after the other. -/
inductive Times (p : Matching) : Nat → Matching
  | zero {before after : Option Char} : Times p 0 before [] after
  | succ {n : Nat} {before after : Option Char} {u v : List Char}
      (first : p before u (v.head?.or after)) (others : Times p n (u.getLast?.or before) v after) :
      Times p (n + 1) before (u ++ v) after

variable {p q r : Matching} {before after : Option Char} {c : Char} {w : List Char} {n : Nat}

theorem head?_append_or (u v : List Char) (after : Option Char) :
    (u ++ v).head?.or after = u.head?.or (v.head?.or after) := by
  cases u <;> simp

@[simp] theorem getLast?_append_or (u v : List Char) (before : Option Char) :
    (u ++ v).getLast?.or before = v.getLast?.or (u.getLast?.or before) := by
  rw [List.getLast?_append, Option.or_assoc]

theorem getLast?_cons_or (c : Char) (u : List Char) (before : Option Char) :
    (c :: u).getLast?.or before = u.getLast?.or (some c) := by
  have h := getLast?_append_or [c] u before
  exact h

theorem andThen_assoc :
    (p.andThen q).andThen r before w after ↔ p.andThen (q.andThen r) before w after := by
  constructor
  · rintro ⟨_, v, rfl, ⟨s, t, rfl, hp, hq⟩, hr⟩
    rw [getLast?_append_or] at hr
    rw [← head?_append_or] at hp
    exact ⟨s, t ++ v, List.append_assoc s t v, hp, t, v, rfl, hq, hr⟩
  · rintro ⟨s, _, rfl, hp, t, v, rfl, hq, hr⟩
    rw [head?_append_or] at hp
    rw [← getLast?_append_or] at hr
    exact ⟨s ++ t, v, (List.append_assoc s t v).symm, ⟨s, t, rfl, hp, hq⟩, hr⟩

/-- The first of two stretches is empty, or the first character is its own. -/
theorem andThen_cons : p.andThen q before (c :: w) after ↔
    (p before [] (some c) ∧ q before (c :: w) after) ∨
      ∃ u v, w = u ++ v ∧ p before (c :: u) (v.head?.or after) ∧
        q (u.getLast?.or (some c)) v after := by
  constructor
  · rintro ⟨u, v, hw, hp, hq⟩
    cases u with
    | nil =>
      rw [List.nil_append] at hw
      subst hw
      exact .inl ⟨hp, hq⟩
    | cons d u =>
      obtain ⟨rfl, rfl⟩ := List.cons.inj hw
      rw [getLast?_cons_or] at hq
      exact .inr ⟨u, v, rfl, hp, hq⟩
  · rintro (⟨hp, hq⟩ | ⟨u, v, rfl, hp, hq⟩)
    · exact ⟨[], c :: w, rfl, hp, hq⟩
    · rw [← getLast?_cons_or c u before] at hq
      exact ⟨c :: u, v, rfl, hp, hq⟩

theorem times_nil : Times p n before [] after ↔ n = 0 ∨ p before [] after := by
  constructor
  · intro h
    generalize hw : ([] : List Char) = w at h
    cases h with
    | zero => exact .inl rfl
    | succ first _ =>
      obtain ⟨rfl, rfl⟩ := List.append_eq_nil_iff.mp hw.symm
      exact .inr first
  · rintro (rfl | hp)
    · exact .zero
    · induction n with
      | zero => exact .zero
      | succ n ih =>
        have h : Times p (n + 1) before ([] ++ []) after := .succ hp ih
        exact h

/-- Of several stretches that are not all empty, some may be empty at first; all of these are at
the same place. -/
theorem times_cons : Times p n before (c :: w) after ↔
    ∃ skipped k u v, n = skipped + 1 + k ∧ (0 < skipped → p before [] (some c)) ∧
      w = u ++ v ∧ p before (c :: u) (v.head?.or after) ∧
      Times p k (u.getLast?.or (some c)) v after := by
  constructor
  · intro h
    generalize hw : c :: w = w' at h
    induction h with
    | zero => cases hw
    | @succ n before after u v first others ih =>
      cases u with
      | nil =>
        rw [List.nil_append] at hw
        subst hw
        obtain ⟨skipped, k, u, v, rfl, hskip, rfl, hp, hk⟩ := ih rfl
        exact ⟨skipped + 1, k, u, v, by omega, fun _ => first, rfl, hp, hk⟩
      | cons d u =>
        obtain ⟨rfl, rfl⟩ := List.cons.inj hw
        rw [getLast?_cons_or] at others
        exact ⟨0, n, u, v, by omega, fun h => absurd h (by omega), rfl, first, others⟩
  · rintro ⟨skipped, k, u, v, rfl, hskip, rfl, hp, hk⟩
    induction skipped with
    | zero =>
      rw [← getLast?_cons_or c u before] at hk
      have h : Times p (k + 1) before ((c :: u) ++ v) after := .succ hp hk
      rwa [show 0 + 1 + k = k + 1 by omega]
    | succ skipped ih =>
      have hfirst : p before [] ((c :: (u ++ v)).head?.or after) := hskip (by omega)
      have hothers := ih fun _ => hfirst
      have h : Times p (skipped + 1 + k + 1) before ([] ++ c :: (u ++ v)) after :=
        .succ hfirst hothers
      rwa [show skipped + 1 + 1 + k = skipped + 1 + k + 1 by omega]

end Matching

namespace Regex

open Matching

/-- Whether a pattern matches a stretch. -/
def Matches : Regex → Matching
  | empty => fun _ w _ => w = []
  | set s => fun _ w _ => ∃ c, s.mem c = true ∧ w = [c]
  | look l => fun before w after => w = [] ∧ l.holds ⟨before, after⟩ = true
  | seq a b => a.Matches.andThen b.Matches
  | alt a b => fun before w after => a.Matches before w after ∨ b.Matches before w after
  | rep a least greatest => fun before w after =>
    ∃ n, least ≤ n ∧ (∀ most ∈ greatest, n ≤ most) ∧ Times a.Matches n before w after

/-- No repetition in the pattern asks for more at least than at most. -/
def Orderly : Regex → Prop
  | empty | set _ | look _ => True
  | seq a b | alt a b => a.Orderly ∧ b.Orderly
  | rep a least greatest => a.Orderly ∧ ∀ most ∈ greatest, least ≤ most

variable {r a b : Regex} {before after : Option Char} {c : Char} {w : List Char}

/-- The test for the empty text is right at every place. -/
theorem nullable_iff (h : r.Orderly) :
    r.nullable ⟨before, after⟩ = true ↔ r.Matches before [] after := by
  induction r with
  | empty => simp [nullable, Matches]
  | set s => simp [nullable, Matches]
  | look l => simp [nullable, Matches]
  | seq a b iha ihb =>
    simp only [nullable, Bool.and_eq_true, iha h.1, ihb h.2]
    constructor
    · rintro ⟨ha, hb⟩
      exact ⟨[], [], rfl, ha, hb⟩
    · rintro ⟨u, v, hw, ha, hb⟩
      obtain ⟨rfl, rfl⟩ := List.append_eq_nil_iff.mp hw.symm
      exact ⟨ha, hb⟩
  | alt a b iha ihb => simp [nullable, Matches, iha h.1, ihb h.2]
  | rep a least greatest ih =>
    simp only [nullable, Bool.or_eq_true, beq_iff_eq, ih h.1, Matches, times_nil]
    constructor
    · rintro (rfl | ha)
      · exact ⟨0, Nat.le_refl 0, fun most _ => Nat.zero_le most, .inl rfl⟩
      · exact ⟨least, Nat.le_refl least, h.2, .inr ha⟩
    · rintro ⟨n, hleast, -, rfl | ha⟩
      · exact .inl (by omega)
      · exact .inr ha

/-! ## Derivatives -/

/-- Two expressions one after the other match what they match in turn. -/
theorem followedBy_matches :
    (a.followedBy b).Matches before w after ↔ a.Matches.andThen b.Matches before w after := by
  fun_induction followedBy a b generalizing before w after with
  | case1 b =>
    constructor
    · intro h
      exact ⟨[], w, rfl, rfl, h⟩
    · rintro ⟨u, v, rfl, rfl, h⟩
      exact h
  | case2 first others b ih =>
    have hih : (others.followedBy b).Matches = others.Matches.andThen b.Matches := by
      funext before w after
      exact propext ih
    rw [Matches, Matches, hih]
    exact andThen_assoc.symm
  | case3 a =>
    constructor
    · intro h
      exact ⟨w, [], (List.append_nil w).symm, h, rfl⟩
    · rintro ⟨u, v, rfl, h, rfl⟩
      rwa [List.append_nil]
  | case4 => rfl

theorem oneLess_matches {least : Nat} {greatest : Option Nat} {skipped : Bool}
    (hcounts : ∀ most ∈ greatest, least ≤ most) (hsome : greatest ≠ some 0) :
    (oneLess a least greatest skipped).Matches before w after ↔
      ∃ n, (skipped = false → least ≤ n + 1) ∧ (∀ most ∈ greatest, n + 1 ≤ most) ∧
        Times a.Matches n before w after := by
  match greatest with
  | none =>
    simp only [oneLess, Matches]
    refine exists_congr fun n => and_congr ?_ (by simp)
    cases skipped <;> simp
  | some 0 => exact absurd rfl hsome
  | some 1 =>
    have hleast : least ≤ 1 := hcounts 1 rfl
    simp only [oneLess, Matches]
    constructor
    · rintro rfl
      exact ⟨0, fun _ => by omega, fun most hmost => by simp at hmost; omega, .zero⟩
    · rintro ⟨n, -, hmost, hn⟩
      have hzero : n = 0 := by have := hmost 1 rfl; omega
      subst hzero
      cases hn with
      | zero => rfl
  | some (most + 2) =>
    simp only [oneLess, Matches]
    refine exists_congr fun n => and_congr ?_ (and_congr ?_ Iff.rfl)
    · cases skipped <;> simp
    · simp only [Option.mem_some_iff, forall_eq']
      omega

/-- After a first character a pattern matches as one of its derivatives does. -/
def DerivedBy (r : Regex) (c : Char) : Prop :=
  ∀ before w after,
    r.Matches before (c :: w) after ↔
      ∃ d ∈ r.derivatives ⟨before, some c⟩ c, d.Matches (some c) w after

theorem DerivedBy.seq (horderly : a.Orderly) (ha : a.DerivedBy c) (hb : b.DerivedBy c) :
    (Regex.seq a b).DerivedBy c := by
  intro before w after
  rw [Matches, andThen_cons]
  have hfirst : (∃ u v, w = u ++ v ∧ a.Matches before (c :: u) (v.head?.or after) ∧
      b.Matches (u.getLast?.or (some c)) v after) ↔
      ∃ d ∈ a.derivatives ⟨before, some c⟩ c, (d.followedBy b).Matches (some c) w after := by
    simp only [followedBy_matches, ha _ _ _]
    constructor
    · rintro ⟨u, v, hw, ⟨d, hd, hu⟩, hv⟩
      exact ⟨d, hd, u, v, hw, hu, hv⟩
    · rintro ⟨d, hd, u, v, hw, hu, hv⟩
      exact ⟨u, v, hw, ⟨d, hd, hu⟩, hv⟩
  rw [hfirst, hb _ _ _, ← nullable_iff horderly]
  by_cases hnull : a.nullable ⟨before, some c⟩ = true
  · simp only [derivatives, List.mem_append, List.mem_map, hnull, true_and]
    constructor
    · rintro (⟨d, hd, hw⟩ | ⟨d, hd, hw⟩)
      · exact ⟨d, .inr hd, hw⟩
      · exact ⟨_, .inl ⟨d, hd, rfl⟩, hw⟩
    · rintro ⟨_, ⟨d, hd, rfl⟩ | hd, hw⟩
      · exact .inr ⟨d, hd, hw⟩
      · exact .inl ⟨_, hd, hw⟩
  · simp [derivatives, hnull]

theorem DerivedBy.rep {least : Nat} {greatest : Option Nat}
    (h : (Regex.rep a least greatest).Orderly) (ha : a.DerivedBy c) :
    (Regex.rep a least greatest).DerivedBy c := by
  intro before w after
  by_cases hzero : greatest = some 0
  · subst hzero
    simp only [Matches, derivatives, if_pos, List.not_mem_nil, false_and, exists_false, iff_false]
    rintro ⟨n, -, hmost, hn⟩
    have hn0 : n = 0 := by have := hmost 0 rfl; omega
    subst hn0
    cases hn
  simp only [derivatives, if_neg hzero, List.mem_map, exists_exists_and_eq_and, followedBy_matches]
  constructor
  · rintro ⟨n, hleast, hmost, hn⟩
    obtain ⟨skipped, k, u, v, rfl, hskip, rfl, hu, hv⟩ := times_cons.mp hn
    obtain ⟨d, hd, hu⟩ := (ha _ _ _).mp hu
    refine ⟨d, hd, u, v, rfl, hu, (oneLess_matches h.2 hzero).mpr ⟨k, fun hnull => ?_, ?_, hv⟩⟩
    · -- Nothing empty can have come first, so all of the least count is still to be had.
      have hnone : ¬ 0 < skipped := fun hpos => by
        have := (nullable_iff h.1).mpr (hskip hpos)
        rw [this] at hnull
        cases hnull
      omega
    · intro most hm
      have := hmost most hm
      omega
  · rintro ⟨d, hd, u, v, rfl, hu, hv⟩
    obtain ⟨k, hleast, hmost, hk⟩ := (oneLess_matches h.2 hzero).mp hv
    have hu : a.Matches before (c :: u) (v.head?.or after) := (ha _ _ _).mpr ⟨d, hd, hu⟩
    cases hnull : a.nullable ⟨before, some c⟩ with
    | true =>
      -- As many empty stretches first as the least count asks for.
      have htimes : a.Matches.Times (least - (k + 1) + 1 + k) before (c :: (u ++ v)) after :=
        times_cons.mpr ⟨_, k, u, v, rfl, fun _ => (nullable_iff h.1).mp hnull, rfl, hu, hk⟩
      refine ⟨(least - (k + 1)) + 1 + k, by omega, fun most hm => ?_, htimes⟩
      have h1 := hmost most hm
      have h2 := h.2 most hm
      omega
    | false =>
      have h1 := hleast hnull
      refine ⟨0 + 1 + k, by omega, fun most hm => ?_, times_cons.mpr
        ⟨0, k, u, v, rfl, fun hpos => absurd hpos (by omega), rfl, hu, hk⟩⟩
      have h2 := hmost most hm
      omega

/-- An expression matches a text that begins with a character exactly if one of its derivatives
matches the rest. -/
theorem derivatives_matches (h : r.Orderly) (c : Char) : r.DerivedBy c := by
  induction r with
  | empty => simp [DerivedBy, Matches, derivatives]
  | set s =>
    intro before w after
    by_cases hc : s.mem c = true
    · simp [Matches, derivatives, hc]
    · simp only [Matches, derivatives, if_neg hc, List.not_mem_nil, false_and, exists_false,
        iff_false]
      rintro ⟨d, hd, hw⟩
      obtain ⟨rfl, -⟩ := List.cons.inj hw
      exact hc hd
  | look l => simp [DerivedBy, Matches, derivatives]
  | seq a b iha ihb => exact DerivedBy.seq h.1 (iha h.1) (ihb h.2)
  | alt a b iha ihb =>
    intro before w after
    simp only [Matches, derivatives, List.mem_append, iha h.1 _ _ _, ihb h.2 _ _ _,
      or_and_right, exists_or]
  | rep a least greatest ih => exact DerivedBy.rep h (ih h.1)

theorem followedBy_orderly (ha : a.Orderly) (hb : b.Orderly) : (a.followedBy b).Orderly := by
  fun_induction followedBy a b with
  | case1 => exact hb
  | case2 first others b ih => exact ⟨ha.1, ih ha.2 hb⟩
  | case3 => exact ha
  | case4 => exact ⟨ha, hb⟩

theorem oneLess_orderly {least : Nat} {greatest : Option Nat} {skipped : Bool}
    (h : (rep a least greatest).Orderly) : (oneLess a least greatest skipped).Orderly := by
  match greatest with
  | none => exact ⟨h.1, by simp⟩
  | some 0 => trivial
  | some 1 => trivial
  | some (most + 2) =>
    refine ⟨h.1, ?_⟩
    have hleast : least ≤ most + 2 := h.2 _ rfl
    simp only [Option.mem_def, Option.some.injEq, forall_eq']
    split <;> omega

/-- Derivatives of orderly expressions are orderly. -/
theorem derivatives_orderly (h : r.Orderly) {p : Place} {d : Regex}
    (hd : d ∈ r.derivatives p c) : d.Orderly := by
  induction r generalizing d with
  | empty => cases hd
  | set s =>
    simp only [derivatives] at hd
    split at hd
    · rw [List.mem_singleton.mp hd]
      trivial
    · cases hd
  | look l => cases hd
  | seq a b iha ihb =>
    rcases List.mem_append.mp hd with hd | hd
    · obtain ⟨e, he, rfl⟩ := List.mem_map.mp hd
      exact followedBy_orderly (iha h.1 he) h.2
    · split at hd
      · exact ihb h.2 hd
      · cases hd
  | alt a b iha ihb =>
    rcases List.mem_append.mp hd with hd | hd
    · exact iha h.1 hd
    · exact ihb h.2 hd
  | rep a least greatest ih =>
    simp only [derivatives] at hd
    split at hd
    · cases hd
    · obtain ⟨e, he, rfl⟩ := List.mem_map.mp hd
      have horderly : (a.oneLess least greatest (nullable p a)).Orderly := oneLess_orderly h
      exact followedBy_orderly (ih h.1 he) horderly

/-! ## Searching -/

/-- The pattern matches at the beginning of a text. -/
def MatchesFirst (r : Regex) (before : Option Char) (text : List Char) : Prop :=
  ∃ w rest, text = w ++ rest ∧ r.Matches before w rest.head?

/-- The pattern matches somewhere in a text. -/
def MatchesIn (r : Regex) (before : Option Char) (text : List Char) : Prop :=
  ∃ lead rest, text = lead ++ rest ∧ r.MatchesFirst (lead.getLast?.or before) rest

theorem matchesFirst_nil (h : r.Orderly) :
    r.MatchesFirst before [] ↔ r.nullable ⟨before, none⟩ = true := by
  rw [nullable_iff h]
  constructor
  · rintro ⟨w, rest, hw, hr⟩
    obtain ⟨rfl, rfl⟩ := List.append_eq_nil_iff.mp hw.symm
    exact hr
  · intro hr
    exact ⟨[], [], rfl, hr⟩

/-- A match from the first character on is empty or goes on with a derivative. -/
theorem matchesFirst_cons (h : r.Orderly) :
    r.MatchesFirst before (c :: w) ↔ r.nullable ⟨before, some c⟩ = true ∨
      ∃ d ∈ r.derivatives ⟨before, some c⟩ c, d.MatchesFirst (some c) w := by
  rw [nullable_iff h]
  constructor
  · rintro ⟨u, rest, hw, hr⟩
    cases u with
    | nil =>
      rw [List.nil_append] at hw
      subst hw
      exact .inl hr
    | cons d u =>
      obtain ⟨rfl, rfl⟩ := List.cons.inj hw
      obtain ⟨d, hd, hu⟩ := (derivatives_matches h c _ _ _).mp hr
      exact .inr ⟨d, hd, u, rest, rfl, hu⟩
  · rintro (hr | ⟨d, hd, u, rest, rfl, hu⟩)
    · exact ⟨[], c :: w, rfl, hr⟩
    · have hmatches : r.Matches before (c :: u) rest.head? :=
        (derivatives_matches h c _ _ _).mpr ⟨d, hd, hu⟩
      exact ⟨c :: u, rest, rfl, hmatches⟩

theorem matchesIn_nil : r.MatchesIn before [] ↔ r.MatchesFirst before [] := by
  constructor
  · rintro ⟨lead, rest, hw, hr⟩
    obtain ⟨rfl, rfl⟩ := List.append_eq_nil_iff.mp hw.symm
    exact hr
  · intro hr
    exact ⟨[], [], rfl, hr⟩

theorem matchesIn_cons : r.MatchesIn before (c :: w) ↔
    r.MatchesFirst before (c :: w) ∨ r.MatchesIn (some c) w := by
  constructor
  · rintro ⟨lead, rest, hw, hr⟩
    cases lead with
    | nil =>
      rw [List.nil_append] at hw
      subst hw
      exact .inl hr
    | cons d lead =>
      obtain ⟨rfl, rfl⟩ := List.cons.inj hw
      rw [getLast?_cons_or] at hr
      exact .inr ⟨lead, rest, rfl, hr⟩
  · rintro (hr | ⟨lead, rest, rfl, hr⟩)
    · exact ⟨[], c :: w, rfl, hr⟩
    · rw [← getLast?_cons_or c lead before] at hr
      exact ⟨c :: lead, rest, rfl, hr⟩

@[simp] theorem mem_withoutRepeats {kept rs : List Regex} :
    r ∈ withoutRepeats kept rs ↔ r ∈ kept ∨ r ∈ rs := by
  induction rs generalizing kept with
  | nil => simp [withoutRepeats]
  | cons first rest ih =>
    rw [withoutRepeats, ih, List.mem_cons, ← or_assoc]
    refine or_congr ?_ Iff.rfl
    by_cases hfirst : kept.contains first = true
    · rw [if_pos hfirst, iff_self_or]
      rintro rfl
      exact List.contains_iff_mem.mp hfirst
    · rw [if_neg hfirst, List.mem_cons, or_comm]

/-- The search succeeds exactly if something pending or something later matches. -/
theorem searchFrom_iff (hr : r.Orderly) {pending : List Regex} {text : List Char}
    (hpending : ∀ d ∈ pending, d.Orderly) :
    searchFrom r pending before text = true ↔
      (∃ d ∈ pending, d.MatchesFirst before text) ∨ r.MatchesIn before text := by
  induction text generalizing pending before with
  | nil =>
    rw [matchesIn_nil, matchesFirst_nil hr, searchFrom, List.any_cons, Bool.or_eq_true,
      List.any_eq_true, or_comm]
    refine or_congr (exists_congr fun d => and_congr_right fun hd => ?_) Iff.rfl
    exact (matchesFirst_nil (hpending d hd)).symm
  | cons c w ih =>
    -- One start more is tried here, so what is pending and what is new are taken together.
    have hstarted : ∀ d ∈ r :: pending, d.Orderly := List.forall_mem_cons.mpr ⟨hr, hpending⟩
    have hnext : ∀ d ∈ withoutRepeats [] ((r :: pending).flatMap
        (derivatives ⟨before, some c⟩ c)), d.Orderly := by
      intro d hd
      rcases mem_withoutRepeats.mp hd with hd | hd
      · cases hd
      · obtain ⟨s, hs, hd⟩ := List.mem_flatMap.mp hd
        exact derivatives_orderly (hstarted s hs) hd
    have hfirst : (∃ d ∈ pending, d.MatchesFirst before (c :: w)) ∨
        r.MatchesFirst before (c :: w) ↔ ∃ d ∈ r :: pending, d.MatchesFirst before (c :: w) := by
      rw [List.exists_mem_cons_iff, or_comm]
    rw [matchesIn_cons, ← or_assoc, hfirst, searchFrom, Bool.or_eq_true, ih hnext, ← or_assoc]
    refine or_congr ?_ Iff.rfl
    rw [List.any_eq_true]
    constructor
    · rintro (⟨d, hd, hnull⟩ | ⟨d, hd, hw⟩)
      · exact ⟨d, hd, (matchesFirst_cons (hstarted d hd)).mpr (.inl hnull)⟩
      · rcases mem_withoutRepeats.mp hd with hd | hd
        · cases hd
        · obtain ⟨s, hs, hd⟩ := List.mem_flatMap.mp hd
          exact ⟨s, hs, (matchesFirst_cons (hstarted s hs)).mpr (.inr ⟨d, hd, hw⟩)⟩
    · rintro ⟨s, hs, hw⟩
      rcases (matchesFirst_cons (hstarted s hs)).mp hw with hnull | ⟨d, hd, hw⟩
      · exact .inl ⟨s, hs, hnull⟩
      · have hmem : d ∈
            withoutRepeats [] ((r :: pending).flatMap (derivatives ⟨before, some c⟩ c)) :=
          mem_withoutRepeats.mpr (.inr (List.mem_flatMap.mpr ⟨s, hs, hd⟩))
        exact .inr ⟨d, hmem, hw⟩

/-- A search finds a match if and only if there is one. -/
theorem search_iff (h : r.Orderly) (text : String) :
    r.search text = true ↔ r.MatchesIn none text.toList := by
  rw [search, searchFrom_iff h (by simp)]
  simp

end Regex

end FlowLint.Pattern

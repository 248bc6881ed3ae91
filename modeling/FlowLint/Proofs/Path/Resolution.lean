import FlowLint.Path.Normal
import FlowLint.Proofs.Files.Places
import Mathlib.Data.List.Induction
import Mathlib.Logic.Relation

/-!
# Paths resolved by their text

Two spellings name one place if rewriting leads from one to the other: a `.` is dropped, a name
is taken back by the `..` right after it, and a `..` at the root is dropped. The resolved path is
the one spelling of its place that has nothing to rewrite: the root, or some `..`, and then names.
Joining a path to one of two spellings of a place or to the other leads to one place, and so does
going up from a name.

No directory is looked at. Where a name stands for a link to elsewhere, going up from it by `..`
may in truth lead to another place.
-/

namespace FlowLint.Path

open Relation (EqvGen)

variable {p q : Path} {cs ds : List Component} {c : Component} {separator : Char}

/-! ## Rewriting components -/

/-- One component or two neighbours are dropped that say nothing where they stand. -/
inductive Reduces : List Component → List Component → Prop
  | current (before after : List Component) :
      Reduces (before ++ .current :: after) (before ++ after)
  | parent (before after : List Component) (name : String) :
      Reduces (before ++ .normal name :: .parent :: after) (before ++ after)
  | top (before after : List Component) :
      Reduces (before ++ .root :: .parent :: after) (before ++ .root :: after)

/-- Rewriting leads from the components of one path to those of the other. -/
def SamePlace (p q : Path) : Prop :=
  EqvGen Reduces p.components q.components

theorem resolve_append (cs ds : List Component) :
    resolve (cs ++ ds) = (ds.foldl resolveStep (resolve cs).reverse).reverse := by
  rw [resolve, resolve, List.foldl_append, List.reverse_reverse]

theorem resolve_concat (cs : List Component) (c : Component) :
    resolve (cs ++ [c]) = (resolveStep (resolve cs).reverse c).reverse :=
  resolve_append cs [c]

/-- One reduction changes nothing in what is resolved. -/
theorem Reduces.resolve_eq (h : Reduces cs ds) : resolve cs = resolve ds := by
  cases h <;> simp only [resolve_append, List.foldl_cons, resolveStep]

/-- Components resolved so far, with those that are still to come, are reached by rewriting. -/
theorem eqvGen_foldl (resolved cs : List Component) :
    EqvGen Reduces (resolved.reverse ++ cs) (cs.foldl resolveStep resolved).reverse := by
  induction cs generalizing resolved with
  | nil =>
    rw [List.append_nil]
    exact .refl _
  | cons c cs ih =>
    have hstep : EqvGen Reduces (resolved.reverse ++ c :: cs)
        ((resolveStep resolved c).reverse ++ cs) := by
      have hkept : resolved.reverse ++ c :: cs = (c :: resolved).reverse ++ cs := by
        rw [List.reverse_cons, List.append_assoc, List.singleton_append]
      cases c with
      | root | normal => exact hkept ▸ .refl _
      | current => exact .rel _ _ (.current _ _)
      | parent =>
        match resolved with
        | [] | .current :: _ | .parent :: _ => exact hkept ▸ .refl _
        | .root :: rest =>
          simp only [resolveStep, List.reverse_cons, List.append_assoc, List.singleton_append]
          exact .rel _ _ (.top _ _)
        | .normal name :: rest =>
          simp only [resolveStep, List.reverse_cons, List.append_assoc, List.singleton_append]
          exact .rel _ _ (.parent _ _ name)
    exact hstep.trans _ _ _ (ih _)

/-- Resolving is a chain of reductions. -/
theorem eqvGen_resolve (cs : List Component) : EqvGen Reduces cs (resolve cs) :=
  eqvGen_foldl [] cs

/-- Lists are resolved to the same exactly if reductions lead from one to the other. -/
theorem resolve_eq_iff : resolve cs = resolve ds ↔ EqvGen Reduces cs ds := by
  constructor
  · intro h
    have hback : EqvGen Reduces (resolve ds) ds := (eqvGen_resolve ds).symm _ _
    exact (h ▸ eqvGen_resolve cs).trans _ _ _ hback
  · intro h
    induction h with
    | rel _ _ h => exact h.resolve_eq
    | refl _ => rfl
    | symm _ _ _ ih => exact ih.symm
    | trans _ _ _ _ _ ih₁ ih₂ => exact ih₁.trans ih₂

@[simp] theorem resolve_resolve (cs : List Component) : resolve (resolve cs) = resolve cs :=
  (resolve_eq_iff.mpr (eqvGen_resolve cs)).symm

/-- What comes after some components is resolved alike after their resolved form. -/
theorem resolve_append_congr (h : resolve cs = resolve ds) (after : List Component) :
    resolve (cs ++ after) = resolve (ds ++ after) := by
  rw [resolve_append, resolve_append, h]

/-! ## The form of resolved components -/

/-- Resolved components: names after the root, or after some `..` of a relative path. -/
inductive Resolved : Bool → List Component → Prop
  | absolute (names : List String) : Resolved true (.root :: names.map .normal)
  | relative (ups : Nat) (names : List String) :
      Resolved false (List.replicate ups .parent ++ names.map .normal)

/-- One more component that is not the root leaves resolved components resolved. -/
theorem Resolved.step {absolute : Bool} (h : Resolved absolute cs) (hc : c ≠ .root) :
    Resolved absolute (resolveStep cs.reverse c).reverse := by
  cases c with
  | root => exact absurd rfl hc
  | current => simpa only [resolveStep, List.reverse_reverse] using h
  | normal name =>
    simp only [resolveStep, List.reverse_cons, List.reverse_reverse]
    cases h with
    | absolute names => simpa using Resolved.absolute (names ++ [name])
    | relative ups names => simpa using Resolved.relative ups (names ++ [name])
  | parent =>
    -- What is taken back is the last name, if there is one.
    cases h with
    | absolute names =>
      rcases List.eq_nil_or_concat names with rfl | ⟨front, last, rfl⟩
      · exact .absolute []
      · simpa [resolveStep] using Resolved.absolute front
    | relative ups names =>
      rcases List.eq_nil_or_concat names with rfl | ⟨front, last, rfl⟩
      · cases ups with
        | zero => exact .relative 1 []
        | succ n =>
          have hups : resolveStep (List.replicate (n + 1) .parent) .parent =
              List.replicate (n + 2) .parent := rfl
          rw [List.map_nil, List.append_nil, List.reverse_replicate, hups, List.reverse_replicate]
          simpa using Resolved.relative (n + 2) []
      · simpa [resolveStep] using Resolved.relative ups front

theorem Resolved.append {absolute : Bool} (h : Resolved absolute (resolve cs))
    (hds : .root ∉ ds) : Resolved absolute (resolve (cs ++ ds)) := by
  induction ds using List.reverseRecOn with
  | nil => rwa [List.append_nil]
  | append_singleton ds d ih =>
    rw [List.mem_append, List.mem_singleton, not_or] at hds
    rw [← List.append_assoc, resolve_concat]
    exact (ih hds.1).step (Ne.symm hds.2)

theorem mem_of_mem_resolve (h : c ∈ resolve cs) : c ∈ cs := by
  induction cs using List.reverseRecOn generalizing c with
  | nil => exact absurd h List.not_mem_nil
  | append_singleton cs d ih =>
    rw [resolve_concat, List.mem_reverse] at h
    have hstep : c = d ∨ c ∈ (resolve cs).reverse := by
      revert h
      cases d <;> cases (resolve cs).reverse with
      | nil => simp [resolveStep]
      | cons last rest => cases last <;> simp +contextual [resolveStep]
    rcases hstep with rfl | hmem
    · exact List.mem_append_right _ (List.mem_singleton_self _)
    · exact List.mem_append_left _ (ih (List.mem_reverse.mp hmem))

/-! ## Pieces of a path -/

theorem notMem_of_mem_splitAt {piece cs : List Char} (h : piece ∈ Text.splitAt separator cs) :
    separator ∉ piece := by
  induction cs generalizing piece with
  | nil =>
    rw [List.mem_singleton.mp h]
    exact List.not_mem_nil
  | cons c cs ih =>
    rw [Text.splitAt] at h
    split at h
    · rcases List.mem_cons.mp h with rfl | h
      · exact List.not_mem_nil
      · exact ih h
    · next hc =>
      split at h
      · next hnil => exact absurd hnil (Text.splitAt_ne_nil _ _)
      · next first rest hsplit =>
        rw [hsplit] at ih
        rcases List.mem_cons.mp h with rfl | h
        · have hnotSeparator : ¬(separator = c ∨ separator ∈ first) :=
            not_or.mpr ⟨Ne.symm hc, ih List.mem_cons_self⟩
          exact mt List.mem_cons.mp hnotSeparator
        · exact ih (List.mem_cons_of_mem _ h)

/-- Pieces without the separator are split where they were joined. -/
theorem splitAt_joinWith {first : List Char} {others : List (List Char)}
    (h : ∀ piece ∈ first :: others, separator ∉ piece) :
    Text.splitAt separator (Text.joinWith separator (first :: others)) = first :: others := by
  induction others generalizing first with
  | nil => exact Files.splitAt_of_notMem (h first List.mem_cons_self)
  | cons second rest ih =>
    obtain ⟨hfirst, hrest⟩ := List.forall_mem_cons.mp h
    rw [Text.joinWith, Files.splitAt_append_separator, Files.splitAt_of_notMem hfirst, ih hrest]
    · rfl
    · exact List.cons_ne_nil _ _

/-- What pieces stand for, the first of them at the start of a path. -/
def fromPieces (absolute : Bool) : List (List Char) → List Component
  | [] => []
  | first :: others => (leading? absolute first).toList ++ others.filterMap component?

theorem fromPieces_append {absolute : Bool} {pieces : List (List Char)} (h : pieces ≠ [])
    (more : List (List Char)) : fromPieces absolute (pieces ++ more) =
      fromPieces absolute pieces ++ more.filterMap component? := by
  cases pieces with
  | nil => exact absurd rfl h
  | cons first others =>
    rw [List.cons_append, fromPieces, fromPieces, List.filterMap_append, List.append_assoc]

theorem components_eq (p : Path) :
    p.components = fromPieces p.isAbsolute (Text.splitAt '/' p.text.toList) := by
  rw [components, pieces]
  cases hsplit : Text.splitAt '/' p.text.toList with
  | nil =>
    have hne : Text.splitAt '/' p.text.toList ≠ [] := Text.splitAt_ne_nil _ _
    exact absurd hsplit hne
  | cons first others => rfl

/-- Only an absolute path and the empty one have an empty first piece. -/
theorem first_of_splitAt {first : List Char} {others : List (List Char)}
    (h : Text.splitAt '/' p.text.toList = first :: others) :
    if p.isAbsolute then first = [] else first = [] → others = [] := by
  rw [isAbsolute]
  cases htext : p.text.toList with
  | nil =>
    rw [htext] at h
    simp [(List.cons.inj h).2.symm]
  | cons d ds =>
    rw [htext, Text.splitAt] at h
    by_cases hd : d = '/'
    · rw [if_pos hd] at h
      simp [hd, (List.cons.inj h).1.symm]
    · rw [if_neg hd] at h
      have hfirst : first ≠ [] := by
        split at h <;> exact (List.cons.inj h).1 ▸ List.cons_ne_nil _ _
      simp [hd, hfirst]

/-- The components that a path goes through, apart from where it starts. -/
def course (p : Path) : List Component :=
  (Text.splitAt '/' p.text.toList).filterMap component?

theorem components_cases (p : Path) :
    (p.isAbsolute = true ∧ p.components = .root :: p.course) ∨
      (p.isAbsolute = false ∧
        (p.components = p.course ∨ p.components = .current :: p.course)) := by
  rw [components_eq, course]
  cases hsplit : Text.splitAt '/' p.text.toList with
  | nil =>
    have hne : Text.splitAt '/' p.text.toList ≠ [] := Text.splitAt_ne_nil _ _
    exact absurd hsplit hne
  | cons first others =>
    have hfirst := first_of_splitAt hsplit
    cases habsolute : p.isAbsolute with
    | true =>
      rw [habsolute, if_pos rfl] at hfirst
      rw [hfirst]
      exact .inl ⟨rfl, rfl⟩
    | false =>
      refine .inr ⟨rfl, ?_⟩
      rw [List.filterMap_cons, fromPieces]
      by_cases hdot : first = ['.']
      · rw [hdot]
        exact .inr rfl
      · simp only [leading?, if_neg hdot, Bool.false_eq_true, ↓reduceIte]
        cases component? first <;> exact .inl rfl

/-- A relative path joined to another adds its course to the components. -/
theorem components_join (hp : p.text ≠ "") (hq : q.isAbsolute = false) :
    (p.join q).components = p.components ++ q.course := by
  have habsolute : (p.join q).isAbsolute = p.isAbsolute := by
    have hne : p.text.toList ≠ [] := mt String.toList_eq_nil_iff.mp hp
    obtain ⟨c, cs, hcs⟩ := List.exists_cons_of_ne_nil hne
    rw [isAbsolute, isAbsolute, Files.Tree.text_join hp hq, hcs]
    split <;> rfl
  rw [components_eq, components_eq p, habsolute, Files.Tree.text_join hp hq, course]
  split
  · next hlast =>
    -- The last, empty piece of `p` stands for nothing.
    obtain ⟨front, hfront⟩ := List.getLast?_eq_some_iff.mp hlast
    have hopen : Text.splitAt '/' (front ++ ['/']) = Text.splitAt '/' front ++ [[]] :=
      Files.splitAt_append_separator _ _ _
    rw [hfront, hopen, List.append_assoc, List.singleton_append, Files.splitAt_append_separator,
      fromPieces_append (Text.splitAt_ne_nil _ _), fromPieces_append (Text.splitAt_ne_nil _ _)]
    simp [component?]
  · have hne : Text.splitAt '/' p.text.toList ≠ [] := Text.splitAt_ne_nil _ _
    rw [Files.splitAt_append_separator, fromPieces_append hne]

/-- Joined to the empty path a relative path stays as it is, a `.` at its start included. -/
theorem components_join_cases (hq : q.isAbsolute = false) :
    (p.join q).components = p.components ++ q.course ∨
      p.components = [] ∧ (p.join q).components = .current :: q.course := by
  by_cases hp : p.text = ""
  · have hjoin : p.join q = q := by
      rw [join, if_neg (by simp [hq]), if_pos (.inl hp), hp, String.empty_append]
    have hcomponents : p.components = [] := by
      obtain ⟨text⟩ := p
      obtain rfl : text = "" := hp
      rfl
    rw [hjoin, hcomponents, List.nil_append]
    rcases components_cases q with ⟨habsolute, -⟩ | ⟨-, heq | heq⟩
    · rw [hq] at habsolute
      cases habsolute
    · exact .inl heq
    · exact .inr ⟨rfl, heq⟩
  · exact .inl (components_join hp hq)

/-- A relative path is resolved after the path that it is joined to. -/
theorem resolve_join (hq : q.isAbsolute = false) :
    resolve (p.join q).components = resolve (p.components ++ q.course) := by
  rcases components_join_cases (p := p) hq with heq | ⟨hnil, heq⟩
  · rw [heq]
  · rw [heq, hnil]
    rfl

/-! ## Components as they are written -/

/-- A component that can stand anywhere in a path. -/
def Component.IsPlain : Component → Prop
  | .parent => True
  | .normal name => Files.isName name = true
  | _ => False

theorem isPlain_of_component? {piece : List Char} (hslash : '/' ∉ piece)
    (h : component? piece = some c) : c.IsPlain := by
  unfold component? at h
  split at h
  · cases h
  next hsilent =>
  split at h
  · cases h
    exact trivial
  · next hdots =>
    cases h
    obtain ⟨hempty, hdot⟩ := not_or.mp hsilent
    have hne : ∀ text : String, piece ≠ text.toList → String.ofList piece ≠ text := by
      rintro _ h rfl
      exact h String.toList_ofList.symm
    simpa [Component.IsPlain, Files.isName, hslash] using
      ⟨hempty, hne "." hdot, hne ".." hdots⟩

/-- A plain component is read from its own text. -/
theorem Component.IsPlain.component?_text (h : c.IsPlain) : component? c.text = some c := by
  cases c with
  | root | current => exact h.elim
  | parent => rfl
  | normal name => exact Files.component?_of_isName h

theorem Component.IsPlain.notMem_text (h : c.IsPlain) : '/' ∉ c.text := by
  cases c with
  | root | current => exact h.elim
  | parent => decide
  | normal name =>
    have hname : Files.isName name = true := h
    simp only [Files.isName, Bool.and_eq_true, Bool.not_eq_true', List.contains_eq_mem,
      decide_eq_false_iff_not] at hname
    exact hname.2

theorem isPlain_of_mem_course (h : c ∈ p.course) : c.IsPlain := by
  obtain ⟨piece, hpiece, hc⟩ := List.mem_filterMap.mp h
  exact isPlain_of_component? (notMem_of_mem_splitAt hpiece) hc

/-- Pieces are found again in the path that is made of them. -/
theorem components_ofPieces (absolute : Bool) (first : List Char) {others : List (List Char)}
    (hslash : ∀ piece ∈ first :: others, '/' ∉ piece)
    (hfirst : if absolute then first = [] else first = [] → others = []) :
    (ofPieces absolute first others).isAbsolute = absolute ∧
      (ofPieces absolute first others).components = fromPieces absolute (first :: others) := by
  by_cases hroot : absolute = true ∧ others = []
  · obtain ⟨rfl, rfl⟩ := hroot
    obtain rfl : first = [] := by simpa using hfirst
    exact ⟨rfl, rfl⟩
  have habsolute : (ofPieces absolute first others).isAbsolute = absolute := by
    rw [ofPieces, if_neg hroot, isAbsolute, String.toList_ofList]
    cases absolute with
    | true =>
      obtain rfl : first = [] := by simpa using hfirst
      obtain ⟨second, rest, rfl⟩ := List.exists_cons_of_ne_nil fun h => hroot ⟨rfl, h⟩
      rfl
    | false =>
      cases first with
      | nil =>
        obtain rfl : others = [] := by simpa using hfirst
        rfl
      | cons d ds =>
        have hd : d ≠ '/' := fun h => hslash _ List.mem_cons_self (h ▸ List.mem_cons_self)
        cases others <;> simpa [Text.joinWith] using hd
  refine ⟨habsolute, ?_⟩
  rw [components_eq, habsolute, ofPieces, if_neg hroot, String.toList_ofList,
    splitAt_joinWith hslash]

theorem notMem_texts (h : ∀ c ∈ cs, c.IsPlain) : ∀ piece ∈ cs.map Component.text, '/' ∉ piece := by
  intro piece hpiece
  obtain ⟨c, hc, rfl⟩ := List.mem_map.mp hpiece
  exact (h c hc).notMem_text

theorem filterMap_texts (h : ∀ c ∈ cs, c.IsPlain) :
    (cs.map Component.text).filterMap component? = cs := by
  rw [List.filterMap_map]
  exact (List.filterMap_congr fun c hc => (h c hc).component?_text).trans List.filterMap_some

theorem ofComponents_absolute (h : ∀ c ∈ cs, c.IsPlain) :
    (ofComponents (.root :: cs)).isAbsolute = true ∧
      (ofComponents (.root :: cs)).components = .root :: cs := by
  have hpieces : ofComponents (.root :: cs) = ofPieces true [] (cs.map Component.text) := by
    rw [ofComponents, ofPieces]
    simp [Component.text]
  have htexts : ∀ piece ∈ cs.map Component.text, '/' ∉ piece := notMem_texts h
  obtain ⟨habsolute, hcomponents⟩ := components_ofPieces true []
    (List.forall_mem_cons.mpr ⟨List.not_mem_nil, htexts⟩) (by simp)
  rw [hpieces]
  have hcomponents' : (ofPieces true [] (cs.map Component.text)).components =
      Component.root :: cs :=
    hcomponents.trans (congrArg _ (filterMap_texts h))
  exact ⟨habsolute, hcomponents'⟩

theorem ofComponents_relative (h : ∀ c ∈ cs, c.IsPlain) :
    (ofComponents cs).isAbsolute = false ∧ (ofComponents cs).components = cs := by
  cases cs with
  | nil => exact ⟨rfl, rfl⟩
  | cons c cs =>
    have hc : c.IsPlain := h c List.mem_cons_self
    have hpieces : ofComponents (c :: cs) = ofPieces false c.text (cs.map Component.text) := by
      have hroot : c :: cs ≠ [.root] := by
        rintro hroot
        obtain rfl := (List.cons.inj hroot).1
        exact hc
      rw [ofComponents, if_neg hroot, ofPieces, if_neg (by simp), List.map_cons]
    have hsome := hc.component?_text
    have hne : c.text ≠ [] := by
      intro hempty
      rw [hempty] at hsome
      cases hsome
    have hdot : c.text ≠ ['.'] := by
      intro hdot
      rw [hdot] at hsome
      cases hsome
    obtain ⟨habsolute, hcomponents⟩ := components_ofPieces false c.text
      (notMem_texts h) (by simp [hne])
    rw [hpieces]
    refine ⟨habsolute, hcomponents.trans ?_⟩
    have hothers := filterMap_texts fun d hd => h d (List.mem_cons_of_mem _ hd)
    rw [fromPieces, hothers, leading?, if_neg (by simp), if_neg hdot, hsome]
    rfl

/-- Plain components, after the root if the path is absolute. -/
def rooted (absolute : Bool) (cs : List Component) : List Component :=
  if absolute then .root :: cs else cs

/-- A path written from plain components has these components. -/
theorem ofComponents_rooted {absolute : Bool} (h : ∀ c ∈ cs, c.IsPlain) :
    (ofComponents (rooted absolute cs)).isAbsolute = absolute ∧
      (ofComponents (rooted absolute cs)).components = rooted absolute cs := by
  cases absolute with
  | true => exact ofComponents_absolute h
  | false => exact ofComponents_relative h

theorem Resolved.exists_rooted {absolute : Bool} (h : Resolved absolute cs)
    (hnames : ∀ name, .normal name ∈ cs → Files.isName name = true) :
    ∃ ds, cs = rooted absolute ds ∧ ∀ c ∈ ds, c.IsPlain := by
  cases h with
  | absolute names =>
    refine ⟨names.map .normal, rfl, List.forall_mem_map.mpr fun name hname => ?_⟩
    exact hnames name (List.mem_cons_of_mem _ (List.mem_map_of_mem hname))
  | relative ups names =>
    refine ⟨_, rfl, List.forall_mem_append.mpr ⟨fun c hc => ?_, ?_⟩⟩
    · rw [List.eq_of_mem_replicate hc]
      exact trivial
    · refine List.forall_mem_map.mpr fun name hname => ?_
      exact hnames name (List.mem_append_right _ (List.mem_map_of_mem hname))

/-! ## The resolved path -/

/-- After resolving, steps up stand in front only, and none behind a root. -/
theorem resolved_components (p : Path) : Resolved p.isAbsolute (resolve p.components) := by
  have hroot : .root ∉ p.course := fun h => isPlain_of_mem_course h
  rcases components_cases p with ⟨habsolute, heq⟩ | ⟨hrelative, heq | heq⟩
  · rw [habsolute, heq, ← List.singleton_append]
    exact Resolved.append (.absolute []) hroot
  · rw [hrelative, heq, ← List.nil_append p.course]
    exact Resolved.append (.relative 0 []) hroot
  · rw [hrelative, heq, ← List.singleton_append]
    exact Resolved.append (.relative 0 []) hroot

theorem isName_of_mem_components {name : String} (h : .normal name ∈ p.components) :
    Files.isName name = true := by
  refine isPlain_of_mem_course (p := p) (c := .normal name) ?_
  rcases components_cases p with ⟨-, heq⟩ | ⟨-, heq | heq⟩ <;> simpa [heq] using h

/-- The resolved path has the resolved components, and starts at the root if the path does. -/
theorem components_normalize (p : Path) :
    p.normalize.isAbsolute = p.isAbsolute ∧ p.normalize.components = resolve p.components := by
  have hresolved : Resolved p.isAbsolute (resolve p.components) := resolved_components p
  obtain ⟨cs, hcs, hplain⟩ := hresolved.exists_rooted fun name h =>
    isName_of_mem_components (mem_of_mem_resolve h)
  rw [normalize, hcs]
  exact ofComponents_rooted hplain

/-- The resolved path of a path: it is resolved, it is resolved already, and it names the place
that the path names. -/
structure HasNormalForm (p : Path) : Prop where
  absolute : p.normalize.isAbsolute = p.isAbsolute
  resolved : Resolved p.isAbsolute p.normalize.components
  idempotent : p.normalize.normalize = p.normalize
  samePlace : p.normalize.SamePlace p

/-- The normal form of a path is resolved, written in one way and at the same place. -/
theorem hasNormalForm (p : Path) : p.HasNormalForm := by
  obtain ⟨habsolute, hcomponents⟩ := components_normalize p
  constructor
  · exact habsolute
  · rw [hcomponents]
    exact resolved_components p
  · rw [normalize, hcomponents, resolve_resolve, ← normalize]
  · rw [SamePlace, ← resolve_eq_iff, hcomponents, resolve_resolve]

/-- Two paths have one normal form exactly if they are the same place. -/
theorem normalize_eq_iff : p.normalize = q.normalize ↔ p.SamePlace q := by
  rw [SamePlace, ← resolve_eq_iff]
  constructor
  · intro h
    rw [← (components_normalize p).2, h, (components_normalize q).2]
  · intro h
    rw [normalize, normalize, h]

/-- Whether a path or its normal form is joined to makes no difference. -/
theorem normalize_join_congr (h : p.SamePlace q) (r : Path) :
    (p.join r).normalize = (q.join r).normalize := by
  cases hr : r.isAbsolute with
  | true => rw [join, if_pos hr, join, if_pos hr]
  | false =>
    have hbase : resolve p.components = resolve q.components := resolve_eq_iff.mpr h
    rw [normalize, normalize, resolve_join hr, resolve_join hr, resolve_append_congr hbase]

/-! ## The directory of a file -/

theorem filterMap_dropWhile_isSilent (pieces : List (List Char)) :
    (pieces.dropWhile isSilent).filterMap component? = pieces.filterMap component? := by
  induction pieces with
  | nil => rfl
  | cons piece rest ih =>
    cases hpiece : component? piece with
    | none => rw [List.dropWhile_cons_of_pos (by simp [isSilent, hpiece]), ih,
        List.filterMap_cons_none hpiece]
    | some c => rw [List.dropWhile_cons_of_neg (by simp [isSilent, hpiece])]

theorem filterMap_of_silent {pieces : List (List Char)}
    (h : pieces.reverse.dropWhile isSilent = []) : pieces.filterMap component? = [] := by
  have hreverse := filterMap_dropWhile_isSilent pieces.reverse
  rw [h, List.filterMap_nil, List.filterMap_reverse] at hreverse
  exact List.reverse_eq_nil_iff.mp hreverse.symm

/-- Of the pieces that say something the last is found from the end, the others before it. -/
theorem filterMap_of_dropWhile {pieces before : List (List Char)} {last : List Char}
    (h : pieces.reverse.dropWhile isSilent = last :: before) :
    (∃ c, pieces.filterMap component? =
      (before.dropWhile isSilent).reverse.filterMap component? ++ [c]) ∧
      ∀ piece ∈ (before.dropWhile isSilent).reverse, piece ∈ pieces := by
  constructor
  · have hsilent : isSilent last = false := by
      have hhead := List.head?_dropWhile_not isSilent pieces.reverse
      rw [h] at hhead
      exact hhead
    obtain ⟨c, hc⟩ := Option.isSome_iff_exists.mp (Option.isNone_eq_false_iff.mp hsilent)
    have hreverse := filterMap_dropWhile_isSilent pieces.reverse
    rw [h, List.filterMap_cons_some hc, List.filterMap_reverse] at hreverse
    refine ⟨c, ?_⟩
    rw [List.filterMap_reverse, filterMap_dropWhile_isSilent,
      List.reverse_eq_iff.mp hreverse.symm, List.reverse_cons]
  · intro piece hpiece
    have hbefore : piece ∈ before := (List.dropWhile_subset _) (List.mem_reverse.mp hpiece)
    exact List.mem_reverse.mp ((List.dropWhile_subset _) (h ▸ List.mem_cons_of_mem _ hbefore))

/-- The path of a file without its name has the components before the name. -/
theorem components_of_fileName? {name : String} (h : p.fileName? = some name) :
    p.components = (p.parent?.getD ⟨""⟩).components ++ [.normal name] := by
  have hlast : p.components.getLast? = some (.normal name) := by
    unfold fileName? at h
    split at h
    · next hlast => rw [hlast, Option.some.inj h]
    · cases h
  rw [components_eq] at hlast ⊢
  rw [parent?, pieces]
  cases hsplit : Text.splitAt '/' p.text.toList with
  | nil =>
    have hne : Text.splitAt '/' p.text.toList ≠ [] := Text.splitAt_ne_nil _ _
    exact absurd hsplit hne
  | cons first others =>
    rw [hsplit, fromPieces] at hlast
    rw [fromPieces]
    dsimp only
    cases hnamed : others.reverse.dropWhile isSilent with
    | nil =>
      -- The name is the first piece.
      have hothers := filterMap_of_silent hnamed
      have hparent : (if p.isAbsolute ∨ first = [] then none else some ⟨""⟩).getD ⟨""⟩ =
          (⟨""⟩ : Path) := by
        split <;> rfl
      rw [hothers, List.append_nil] at hlast ⊢
      rw [hparent]
      cases hfirst : leading? p.isAbsolute first with
      | none => simp [hfirst] at hlast
      | some c =>
        obtain rfl : c = .normal name := by simpa [hfirst] using hlast
        rfl
    | cons last before =>
      obtain ⟨⟨c, hothers⟩, hmem⟩ := filterMap_of_dropWhile hnamed
      have hslash : ∀ piece ∈ first :: (before.dropWhile isSilent).reverse, '/' ∉ piece := by
        intro piece hpiece
        have hsplit' : piece ∈ Text.splitAt '/' p.text.toList := by
          rw [hsplit]
          exact List.cons_subset_cons first hmem hpiece
        exact notMem_of_mem_splitAt hsplit'
      have hfirst := first_of_splitAt hsplit
      have hsome : others ≠ [] := by
        rintro rfl
        cases hnamed
      obtain rfl : c = .normal name := by simpa [hothers] using hlast
      rw [Option.getD_some, (components_ofPieces _ _ hslash (by split <;> simp_all)).2, fromPieces,
        hothers, List.append_assoc]

/-- Paths at one place lie in directories at one place. -/
theorem samePlace_parent {name name' : String} (h : p.SamePlace q) (hp : p.fileName? = some name)
    (hq : q.fileName? = some name') :
    (p.parent?.getD ⟨""⟩).SamePlace (q.parent?.getD ⟨""⟩) := by
  have hresolve := resolve_eq_iff.mpr h
  rw [components_of_fileName? hp, components_of_fileName? hq, resolve_concat,
    resolve_concat] at hresolve
  simp only [resolveStep, List.reverse_cons, List.reverse_reverse] at hresolve
  have happendInj : resolve (p.parent?.getD ⟨""⟩).components =
      resolve (q.parent?.getD ⟨""⟩).components :=
    List.append_inj_left' hresolve rfl
  exact resolve_eq_iff.mp happendInj

end FlowLint.Path

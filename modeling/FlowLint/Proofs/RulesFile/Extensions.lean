import FlowLint.Proofs.Rule.Resolution
import FlowLint.Proofs.RulesFile.Cycles

/-!
# Extensions beside the built-in rules

An extension is offered elements in a namespace only, so it has no say about any other: who
claims such an element, what is built of it and which error it leads to are the same with
every list of extensions. A load asks about the entries of the rules sections and about
nothing else, hence extensions do not change what a load comes to over a source without
namespaced rules. Of sources with such rules nothing follows here but what is true of each
single element.
-/

namespace FlowLint.RulesFile

open FlowLint.Markup (Element)

variable {s : Source} {g g' : Registry}

/-! ## Single elements -/

/-- The factories of an offered registry at work, built-in ones first. -/
def Registry.workers {m : Type → Type} [Monad m] (builtIns : Bool)
    (extensions : List ExtensionFactory) : List (Worker m) :=
  (if builtIns then Catalog.registry.factories.map Factory.worker else []) ++
    extensions.map ExtensionFactory.worker

theorem forall₂_workers {m : Type → Type} [Monad m] [LawfulMonad m] (builtIns : Bool)
    (extensions : List ExtensionFactory) :
    List.Forall₂ Worker.Performs (Registry.workers builtIns extensions : List (Worker m))
      (Registry.offered builtIns extensions).factories := by
  have hextensions : List.Forall₂ Worker.Performs
      (extensions.map ExtensionFactory.worker : List (Worker m))
      (extensions.map ExtensionFactory.toFactory) := by
    rw [List.forall₂_map_left_iff, List.forall₂_map_right_iff, List.forall₂_same]
    exact fun x _ => x.performs_worker
  refine List.rel_append ?_ hextensions
  cases builtIns with
  | false => exact .nil
  | true =>
    rw [if_pos rfl, if_pos rfl, List.forall₂_map_left_iff, List.forall₂_same]
    exact fun f _ => f.performs_worker

/-- No extension claims an element without namespace. -/
theorem claimants_withExtensions (g : Registry) (extensions : List ExtensionFactory) {e : Element}
    (he : e.uri = none) : (g.withExtensions extensions).claimants e = g.claimants e := by
  have hnone : ∀ f ∈ extensions.map ExtensionFactory.toFactory,
      ¬ f.claims (.ofElement e) = true := by
    intro f hf
    obtain ⟨x, -, rfl⟩ := List.mem_map.mp hf
    simp [ExtensionFactory.toFactory, ExtensionFactory.claimsName, RuleName.ofElement, he]
  rw [Registry.claimants, Registry.withExtensions, List.filter_append,
    List.filter_eq_nil_iff.mpr hnone, List.append_nil, Registry.claimants]

theorem create_withExtensions (g : Registry) (extensions : List ExtensionFactory) {e : Element}
    (he : e.uri = none) : (g.withExtensions extensions).create e = g.create e := by
  rw [Registry.create, claimants_withExtensions g extensions he, Registry.create]

/-! ## Loads with two registries -/

theorem buildRules_congr {es : List Element} (h : ∀ e ∈ es, g.create e = g'.create e) :
    buildRules g es = buildRules g' es := by
  induction es with
  | nil => rfl
  | cons e rest ih =>
    obtain ⟨he, hrest⟩ := List.forall_mem_cons.mp h
    rw [buildRules, buildRules, buildRule, buildRule, he, ih hrest]

/-- Two registries build the same of every rule element of a source. -/
def BuildAlike (s : Source) (g g' : Registry) : Prop :=
  ∀ p root, document s p = .ok root → ∀ e ∈ declarations root .rules, g.create e = g'.create e

theorem own_of_buildAlike (h : BuildAlike s g g') {p : Path} {root : Element}
    (hroot : document s p = .ok root) : own g root = own g' root := by
  have hrules := h p root hroot
  rw [← ruleElements_eq (check_of_document hroot)] at hrules
  rw [own, own, buildRules_congr hrules]

theorem loadImports_congr {ancestors : List Path}
    (hfile : ∀ visited p hp,
      loadFile s g ancestors visited p hp = loadFile s g' ancestors visited p hp)
    (visited references : List Path) :
    loadImports s g ancestors visited references =
      loadImports s g' ancestors visited references := by
  induction references generalizing visited with
  | nil => rw [loadImports_nil, loadImports_nil]
  | cons reference rest ih =>
    cases hl : s.locate reference with
    | error e => rw [loadImports_unlocated hl, loadImports_unlocated hl]
    | ok q =>
      rw [loadImports_located hl, loadImports_located hl, hfile]
      exact congrArg _ (funext fun first => by rw [ih])

theorem loadFile_congr (h : BuildAlike s g g') (ancestors : List Path) :
    ∀ visited p hp,
      loadFile s g ancestors visited p hp = loadFile s g' ancestors visited p hp := by
  induction ancestors using ancestors_induction s with
  | step ancestors ih =>
    intro visited p hp
    by_cases ha : p ∈ ancestors
    · rw [loadFile_ancestor ha, loadFile_ancestor ha]
    by_cases hv : p ∈ visited
    · rw [loadFile_visited ha hv, loadFile_visited ha hv]
    rw [loadFile_fresh ha hv, loadFile_fresh ha hv]
    cases hroot : document s p with
    | error e => rfl
    | ok root =>
      simp only [bind, Except.bind]
      rw [loadImports_congr (ih p hp ha), own_of_buildAlike h hroot]

/-- Registries that build alike what the files hold load the same. -/
theorem load_congr (h : BuildAlike s g g') (entry : Path) : load s g entry = load s g' entry := by
  cases hl : s.locate entry with
  | error e => rw [load_unlocated hl, load_unlocated hl]
  | ok p => rw [load_located hl, load_located hl, loadFile_congr h]

/-! ## Sources without namespaced rules -/

/-- No rules file of the source has a rule element in a namespace. -/
def Unextended (s : Source) : Prop :=
  ∀ p root, document s p = .ok root → ∀ e ∈ declarations root .rules, e.uri = none

/-- Files in memory are a source without namespaced rules if no text of theirs has any. -/
theorem unextended_ofFiles {files : List (Path × String)}
    (h : ∀ f ∈ files, ∀ root, Markup.parse f.2 = .ok root →
      ∀ e ∈ declarations root .rules, e.uri = none) : Unextended (.ofFiles files) := by
  intro p root hroot
  obtain ⟨text, htext, hparse, -⟩ := document_eq_ok.mp hroot
  obtain ⟨f, hf, rfl⟩ := Option.map_eq_some_iff.mp (text_ofFiles.mp htext)
  exact h f (List.mem_reverse.mp (List.mem_of_find?_eq_some hf)) root hparse

/-- A rule is built by the one factory that claims its element or not at all, and nobody else
is given work. Extensions next to the built-in factories change nothing about a load in which
all rule elements are without namespace. -/
theorem extensions_keepApart (builtIns : Bool) (extensions : List ExtensionFactory) (e : Element)
    (hs : Unextended s) (entry : Path) :
    Resolves (Registry.offered builtIns extensions) e ∧
    (∀ (m : Type → Type) [Monad m] [LawfulMonad m],
      Worker.createAmong (Registry.workers builtIns extensions : List (Worker m)) e =
        pure ((Registry.offered builtIns extensions).create e)) ∧
    load s (Catalog.registry.withExtensions extensions) entry = load s Catalog.registry entry := by
  have hresolves : Resolves (Registry.offered builtIns extensions) e := resolves _ e
  refine ⟨hresolves, fun m _ _ => ?_, load_congr (fun p root hroot e he => ?_) entry⟩
  · exact createAmong_of_performs (forall₂_workers builtIns extensions) e
  · exact create_withExtensions Catalog.registry extensions (hs p root hroot e he)

/-- An extension that claims every name there is. -/
def greedy : ExtensionFactory :=
  { claims := fun _ _ => true
    validate := fun _ => .error ⟨"not mine", none⟩
    create := fun _ => .error ⟨"not mine", none⟩ }

/-- An element that would be a built-in rule without its namespace. -/
def foreign : Element :=
  ⟨some "urn:x", "csrf-protection-required", [], [], ""⟩

theorem unextended_diamond : Unextended (.ofFiles diamond) := by
  refine unextended_ofFiles fun f hf root hroot => ?_
  have hall : ∀ f ∈ diamond, (Markup.parse f.2).toOption.all
      fun root => (declarations root .rules).all (·.uri.isNone) := by
    with_unfolding_all decide
  have hnone := hall f hf
  rw [hroot] at hnone
  simpa [Except.toOption] using hnone

/-- Two extensions that claim everything refuse a namespaced element between them and leave a
load without such elements as it is. -/
theorem extensions_keepApart_greedy :
    Resolves (Registry.offered true [greedy, greedy]) foreign ∧
    (∀ (m : Type → Type) [Monad m] [LawfulMonad m],
      Worker.createAmong (Registry.workers true [greedy, greedy] : List (Worker m)) foreign =
        pure ((Registry.offered true [greedy, greedy]).create foreign)) ∧
    load (.ofFiles diamond) (Catalog.registry.withExtensions [greedy, greedy]) ⟨"./top"⟩ =
      load (.ofFiles diamond) Catalog.registry ⟨"./top"⟩ :=
  extensions_keepApart true [greedy, greedy] _ unextended_diamond ⟨"./top"⟩

end FlowLint.RulesFile

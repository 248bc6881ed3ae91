import FlowLint.Catalog.Factory
import FlowLint.Proofs.RulesFile.Loading

/-!
# Where errors of configuration come from

A load fails at one file or at one element of it, at an import that leads back, or at the whole
of what has been loaded. Which of these an error is can be told from the error itself: reading,
checking and building a file fail in the first way only. This needs that no factory answers with
an error of another kind, which the built-in ones and extensions never do.
-/

namespace FlowLint.RulesFile

variable {s : Source} {g : Registry} {α β : Type}

/-- The step fails with errors of one kind only, if it fails. -/
def FailsWith (kind : ConfigurationError → Prop) (x : Except ConfigurationError α) : Prop :=
  ∀ e, x = .error e → kind e

/-- An error about one file or one element of it. -/
def IsLocal : ConfigurationError → Prop
  | .circularImport _ | .duplicateIds _ | .noRules => False
  | _ => True

/-! ## Steps in general -/

/-- Of two steps, the first fails or it is left to the second. -/
theorem bind_eq_error {ε α β : Type} {x : Except ε α} {f : α → Except ε β} {e : ε}
    (h : (x >>= f) = .error e) : x = .error e ∨ ∃ a, x = .ok a ∧ f a = .error e := by
  cases x with
  | error e' => exact .inl (congrArg _ (Except.error.inj h))
  | ok a => exact .inr ⟨a, rfl, h⟩

section Steps

variable {kind : ConfigurationError → Prop}

theorem failsWith_ok (a : α) : FailsWith kind (.ok a) := by
  intro e h
  cases h

theorem failsWith_error {e : ConfigurationError} (h : kind e) :
    FailsWith kind (.error e : Except ConfigurationError α) := by
  intro e' h'
  rwa [← Except.error.inj h']

/-- What may go wrong in a row is what may go wrong in each part. -/
theorem FailsWith.bind {x : Except ConfigurationError α} {f : α → Except ConfigurationError β}
    (hx : FailsWith kind x) (hf : ∀ a, FailsWith kind (f a)) : FailsWith kind (x >>= f) := by
  intro e h
  rcases bind_eq_error h with h | ⟨a, -, h⟩
  · exact hx e h
  · exact hf a e h

theorem FailsWith.map {x : Except ConfigurationError α} (hx : FailsWith kind x) (f : α → β) :
    FailsWith kind (x.map f) := by
  intro e h
  cases x with
  | error e' => exact hx e (congrArg _ (Except.error.inj h))
  | ok a => cases h

/-- An error that is wrapped is of the kind of its wrapper. -/
theorem failsWith_mapError {ε : Type} {x : Except ε α} {f : ε → ConfigurationError}
    (hf : ∀ e, kind (f e)) : FailsWith kind (x.mapError f) := by
  intro e h
  cases x with
  | error e' => exact Except.error.inj h ▸ hf e'
  | ok a => cases h

end Steps

/-! ## Reading files -/

theorem failsLocally_locate (reference : Path) : FailsWith IsLocal (s.locate reference) :=
  failsWith_mapError fun _ => trivial

theorem failsLocally_document (p : Path) : FailsWith IsLocal (document s p) := by
  have hfailsWith : FailsWith IsLocal
      (Except.mapError (ConfigurationError.unreadable p) (s.read p)) :=
    failsWith_mapError fun _ => trivial
  refine hfailsWith.bind fun text => ?_
  have hmapped : FailsWith IsLocal
      (Except.mapError (ConfigurationError.markup p) (Markup.parse text)) :=
    failsWith_mapError fun _ => trivial
  refine hmapped.bind fun root => ?_
  have hfailsWith' : FailsWith IsLocal
      (Except.mapError (ConfigurationError.schema p) (check root)) :=
    failsWith_mapError fun _ => trivial
  exact hfailsWith'.bind fun _ => failsWith_ok root

/-! ## Building rules -/

section Building

variable {kind : ConfigurationError → Prop}
  (hassigned : ∀ existing requested, kind (.idAlreadyAssigned existing requested))
  (hcreate : ∀ e, FailsWith kind (g.create e))
include hassigned hcreate

theorem failsWith_buildRule (e : Markup.Element) : FailsWith kind (buildRule g e) := by
  refine (hcreate e).bind fun rule => ?_
  split
  · exact failsWith_ok rule
  · unfold Rule.assignId
    split
    · exact failsWith_error (hassigned _ _)
    · exact failsWith_ok _

theorem failsWith_own (root : Markup.Element) : FailsWith kind (own g root) := by
  refine FailsWith.map ?_ _
  induction ruleElements root with
  | nil => exact failsWith_ok []
  | cons e rest ih =>
    have hfailsWith : FailsWith kind (buildRule g e) := failsWith_buildRule hassigned hcreate e
    exact hfailsWith.bind fun rule =>
      ih.bind fun others => failsWith_ok _

end Building

/-! ## Factories -/

theorem failsLocally_readNaming (e : Markup.Element) :
    FailsWith IsLocal (Catalog.NamingConvention.read e) := by
  have hreading : ∀ {α : Type} {x : Except Misconfiguration α},
      FailsWith IsLocal (Catalog.ofReading e x) := fun {_ _} => failsWith_mapError fun _ => trivial
  refine hreading.bind fun _ => hreading.bind fun scheme => ?_
  refine FailsWith.bind ?_ fun _ => hreading.bind fun _ => hreading.bind fun _ => failsWith_ok _
  unfold Catalog.NamingConvention.readScheme
  split
  · exact failsWith_mapError fun _ => trivial
  · exact failsWith_error trivial

theorem failsLocally_readKind (e : Markup.Element) (kind : Catalog.RuleKind) :
    FailsWith IsLocal (kind.read e) := by
  have hreading : ∀ {α β : Type} {x : Except Misconfiguration α} {f : α → β},
      FailsWith IsLocal ((Catalog.ofReading e x).map f) :=
    fun {_ _ _ _} => FailsWith.map (failsWith_mapError fun _ => trivial) _
  cases kind with
  | naming =>
    have hfailsWith : FailsWith IsLocal (Catalog.NamingConvention.read e) :=
      failsLocally_readNaming e
    exact hfailsWith.map _
  | _ => exact hreading

theorem failsLocally_create (hg : ∀ f ∈ g.factories, ∀ e, FailsWith IsLocal (f.build e))
    (e : Markup.Element) : FailsWith IsLocal (g.create e) := by
  unfold Registry.create
  split
  · next one h =>
    have hone : one ∈ g.claimants e := h ▸ List.mem_singleton_self one
    exact hg one (List.mem_filter.mp hone).1 e
  · exact failsWith_error trivial
  · exact failsWith_error trivial

/-- The registries there are. A registry starts empty or with the built-in factories, and all
it takes in later are extensions. -/
def Registry.offered (builtIns : Bool) (extensions : List ExtensionFactory) : Registry :=
  (if builtIns then Catalog.registry else {}).withExtensions extensions

/-- A registry of built-in rules and extensions reports faults of the element only. -/
theorem failsLocally_offered (builtIns : Bool) (extensions : List ExtensionFactory)
    (e : Markup.Element) :
    FailsWith IsLocal ((Registry.offered builtIns extensions).create e) := by
  refine failsLocally_create (fun f hf e => ?_) e
  rcases List.mem_append.mp hf with hf | hf
  · cases builtIns with
    | false => exact absurd hf List.not_mem_nil
    | true =>
      obtain ⟨kinds, -, rfl⟩ := List.mem_map.mp hf
      dsimp only [Catalog.factoryOf]
      split
      · exact (failsLocally_readKind e _).map _
      · exact failsWith_error trivial
  · obtain ⟨x, -, rfl⟩ := List.mem_map.mp hf
    exact failsWith_mapError fun _ => trivial

end FlowLint.RulesFile

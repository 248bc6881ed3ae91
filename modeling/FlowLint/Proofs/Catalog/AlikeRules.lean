import FlowLint.Catalog.Factory
import FlowLint.Proofs.Naming.Grammar
import FlowLint.Proofs.Query.AlikeElements

/-!
# Rules of alike elements

A rule is configured by the texts, names and namespaces of the elements below its own and by a few
attributes that are looked up by name. Elements that differ in the order of attributes therefore
configure the same rule or are refused for the same reason, provided no element has two attributes
of one local name. Of extensions, which may read elements as they like, this has to be asked.
-/

namespace FlowLint.Markup

/-- No element of the tree has two attributes of one local name. -/
def Distinct (e : Element) : Prop :=
  e.Everywhere fun d => (d.attributes.map (·.name)).Nodup

/-- Elements that cannot be told apart by looking attributes up by name. -/
structure ReadAlike (e e' : Element) : Prop where
  alike : Alike True e e'
  distinct : Distinct e

namespace ReadAlike

variable {e e' : Element}

theorem uri (h : ReadAlike e e') : e.uri = e'.uri :=
  h.alike.uri trivial

theorem name (h : ReadAlike e e') : e.name = e'.name :=
  h.alike.name

theorem attr? (h : ReadAlike e e') (name : String) : e.attr? name = e'.attr? name := by
  have hsingle : e.IsSingle name :=
    e.isSingle_of_nodup (Element.everywhere_iff.mp h.distinct).1 name
  exact h.alike.attr?_eq hsingle

theorem text (h : ReadAlike e e') : e.text = e'.text :=
  h.alike.text_eq

theorem children (h : ReadAlike e e') : List.Forall₂ ReadAlike e.children e'.children := by
  have hboth := (List.forall₂_and_left e.children e'.children).mpr
    ⟨(Element.everywhere_iff.mp h.distinct).2, h.alike.children⟩
  exact hboth.imp fun _ _ hc => ⟨hc.2, hc.1⟩

theorem childrenNamed (h : ReadAlike e e') (name : String) :
    List.Forall₂ ReadAlike (e.childrenNamed name) (e'.childrenNamed name) :=
  filter_rel h.children fun hc => by rw [hc.name]

theorem child? (h : ReadAlike e e') (name : String) :
    Option.Rel ReadAlike (e.child? name) (e'.child? name) :=
  find?_rel h.children fun hc => by rw [hc.name]

/-- A function that reads alike elements alike gives the same list on them. -/
theorem map_eq {α : Type} {f : Element → α} {es es' : List Element}
    (h : List.Forall₂ ReadAlike es es') (hf : ∀ {d d'}, ReadAlike d d' → f d = f d') :
    es.map f = es'.map f := by
  induction h with
  | nil => rfl
  | cons hd _ ih => rw [List.map_cons, List.map_cons, hf hd, ih]

end ReadAlike

end FlowLint.Markup

namespace FlowLint.Naming.Scheme

open FlowLint.Markup (Element ReadAlike)

variable {e e' : Element} {es es' : List Element}

theorem ofElements_congr (h : List.Forall₂ (fun c c' => ofElement c = ofElement c') es es') :
    ofElements es = ofElements es' := by
  induction h with
  | nil => rfl
  | cons hc _ ih => rw [ofElements, ofElements, hc, ih]

theorem ofOnly_congr (h : List.Forall₂ (fun c c' => ofElement c = ofElement c') es es') :
    ofOnly es = ofOnly es' := by
  cases h with
  | nil => rfl
  | cons hc hrest =>
    cases hrest with
    | nil => rw [ofOnly, ofOnly, hc]
    | cons hd hmore =>
      have hlength := hmore.length_eq
      simp only [ofOnly, List.length_cons, hlength]

theorem ofKind_alike (h : ReadAlike e e')
    (hchildren : List.Forall₂ (fun c c' => ofElement c = ofElement c') e.children e'.children)
    (k : NodeKind) : ofKind e k = ofKind e' k := by
  cases k with
  | startsWith | endsWith | regex => rw [ofKind, ofKind, h.text]
  | equals => rw [ofKind, ofKind, ofEquals, ofEquals, h.attr?, h.text]
  | not => exact ofOnly_congr hchildren
  | and | or => rw [ofKind, ofKind, ofElements_congr hchildren]

/-- A naming scheme is read alike, or refused alike with the same error. -/
theorem ofElement_alike (h : ReadAlike e e') : ofElement e = ofElement e' := by
  induction e using Element.induction generalizing e' with
  | step e ih =>
    have hchildren :
        List.Forall₂ (fun c c' => ofElement c = ofElement c') e.children e'.children := by
      have hboth := (List.forall₂_and_left e.children e'.children).mpr
        ⟨fun c hc (c' : Element) => @ih c hc c', h.children⟩
      exact hboth.imp fun _ c' hc => hc.1 c' hc.2
    cases huri : e.uri with
    | some uri =>
      rw [ofElement_namespaced huri, ofElement_namespaced (h.uri.symm.trans huri), h.name]
    | none =>
      have huri' : e'.uri = none := h.uri.symm.trans huri
      by_cases hkind : ∃ k : NodeKind, e.name = k.name
      · obtain ⟨k, hk⟩ := hkind
        rw [ofElement_kind huri hk, ofElement_kind huri' (h.name.symm.trans hk)]
        exact ofKind_alike h hchildren k
      · have hunknown := not_exists.mp hkind
        have hunknown' : ∀ k : NodeKind, e'.name ≠ k.name := fun k => h.name ▸ hunknown k
        rw [ofElement_unknown huri hunknown, ofElement_unknown huri' hunknown', h.name]

end FlowLint.Naming.Scheme

namespace FlowLint.Catalog

open FlowLint.Markup (Element ReadAlike)

variable {e e' : Element}

/-! ## Configurations -/

theorem onlyChildren_alike (h : ReadAlike e e') (names : List String) :
    onlyChildren e names = onlyChildren e' names := by
  have hallowed : ∀ {c c' : Element}, ReadAlike c c' →
      (!isAllowedChild names c) = !isAllowedChild names c' := by
    intro c c' hc
    rw [isAllowedChild, isAllowedChild, hc.uri, hc.name]
  have hfound := Markup.find?_rel h.children hallowed
  unfold onlyChildren
  generalize e.children.find? (!isAllowedChild names ·) = found at hfound ⊢
  generalize e'.children.find? (!isAllowedChild names ·) = found' at hfound ⊢
  cases hfound with
  | none => rfl
  | some hc =>
    dsimp only
    rw [hc.name]

/-- The one child with a name is found in both, or both fail in the same way. -/
theorem singleChild_alike (h : ReadAlike e e') (name : String) :
    (∃ c c', singleChild e name = .ok c ∧ singleChild e' name = .ok c' ∧ ReadAlike c c') ∨
      ∃ err, singleChild e name = .error err ∧ singleChild e' name = .error err := by
  have hnamed := h.childrenNamed name
  unfold singleChild
  generalize e.childrenNamed name = named at hnamed ⊢
  generalize e'.childrenNamed name = named' at hnamed ⊢
  cases hnamed with
  | nil => exact .inr ⟨_, rfl, rfl⟩
  | cons hc hrest =>
    cases hrest with
    | nil => exact .inl ⟨_, _, rfl, rfl, hc⟩
    | cons => exact .inr ⟨_, rfl, rfl⟩

theorem childTexts_alike (h : ReadAlike e e') (name : String) :
    childTexts e name = childTexts e' name := by
  have hnamed : List.Forall₂ ReadAlike (e.childrenNamed name) (e'.childrenNamed name) :=
    h.childrenNamed name
  rw [childTexts, childTexts, ReadAlike.map_eq hnamed ReadAlike.text]

theorem ofReading_alike {α : Type} (h : ReadAlike e e') (reading : Except Misconfiguration α) :
    ofReading e reading = ofReading e' reading := by
  rw [ofReading, ofReading, h.name]

theorem listRule_alike (h : ReadAlike e e') (facet : Facet) (allow : Bool) :
    ListRule.read facet allow e = ListRule.read facet allow e' := by
  rw [ListRule.read, ListRule.read, onlyChildren_alike h, childTexts_alike h]

theorem readCategories_alike (h : ReadAlike e e') : readCategories e = readCategories e' := by
  rw [readCategories, readCategories, onlyChildren_alike h, childTexts_alike h]

theorem readScheme_alike (h : ReadAlike e e') :
    NamingConvention.readScheme e = NamingConvention.readScheme e' := by
  have hchildren := h.children
  unfold NamingConvention.readScheme
  generalize e.children = es at hchildren ⊢
  generalize e'.children = es' at hchildren ⊢
  cases hchildren with
  | nil => rfl
  | cons hc hrest =>
    cases hrest with
    | nil =>
      dsimp only
      rw [Naming.Scheme.ofElement_alike hc]
    | cons _ hmore => simp only [List.length_cons, hmore.length_eq]

theorem readMessage_alike (h : ReadAlike e e') :
    NamingConvention.readMessage e = NamingConvention.readMessage e' := by
  rw [NamingConvention.readMessage, NamingConvention.readMessage]
  rcases singleChild_alike h "message" with ⟨c, c', hc, hc', halike⟩ | ⟨err, herr, herr'⟩
  · rw [hc, hc']
    simp only [bind, Except.bind, halike.text]
  · rw [herr, herr']

theorem readSubjects_alike (h : ReadAlike e e') :
    NamingConvention.readSubjects e = NamingConvention.readSubjects e' := by
  rw [NamingConvention.readSubjects, NamingConvention.readSubjects, childTexts_alike h]

theorem namingConvention_alike (h : ReadAlike e e') :
    NamingConvention.read e = NamingConvention.read e' := by
  simp only [NamingConvention.read, onlyChildren_alike h, readMessage_alike h,
    readSubjects_alike h, ofReading_alike h]
  rcases singleChild_alike h "scheme" with ⟨c, c', hc, hc', halike⟩ | ⟨err, herr, herr'⟩
  · have hread : ∀ child : Element, ofReading e' (.ok child) = .ok child := fun _ => rfl
    rw [hc, hc', hread, hread]
    simp only [bind, Except.bind, readScheme_alike halike]
  · rw [herr, herr']

theorem plain_alike (h : ReadAlike e e') (rule : BuiltIn) :
    RuleKind.plain e rule = RuleKind.plain e' rule := by
  rw [RuleKind.plain, RuleKind.plain, onlyChildren_alike h, ofReading_alike h]

/-- Every kind of rule reads alike elements alike. -/
theorem ruleKind_alike (h : ReadAlike e e') (kind : RuleKind) : kind.read e = kind.read e' := by
  cases kind with
  | list facet allow => rw [RuleKind.read, RuleKind.read, listRule_alike h, ofReading_alike h]
  | naming => rw [RuleKind.read, RuleKind.read, namingConvention_alike h]
  | duplicates => rw [RuleKind.read, RuleKind.read, readCategories_alike h, ofReading_alike h]
  | description | endpoints | passwords | protection | directCalls => exact plain_alike h _

end FlowLint.Catalog

namespace FlowLint

open FlowLint.Markup (Element ReadAlike)

/-! ## Registries -/

/-- The factory builds the same of elements that differ in the order of attributes. -/
def Factory.IgnoresOrder (f : Factory) : Prop :=
  ∀ {e e' : Element}, ReadAlike e e' → f.build e = f.build e'

/-- The extension makes the same of elements that differ in the order of attributes. -/
structure ExtensionFactory.IgnoresOrder (x : ExtensionFactory) : Prop where
  validate : ∀ {e e' : Element}, ReadAlike e e' → x.validate e = x.validate e'
  create : ∀ {e e' : Element}, ReadAlike e e' → x.create e = x.create e'

variable {e e' : Element}

theorem ruleName_alike (h : ReadAlike e e') : RuleName.ofElement e = RuleName.ofElement e' := by
  rw [RuleName.ofElement, RuleName.ofElement, h.name, h.uri]

theorem ExtensionFactory.IgnoresOrder.toFactory {x : ExtensionFactory} (hx : x.IgnoresOrder) :
    x.toFactory.IgnoresOrder := by
  intro e e' h
  have hobjection : objection e = objection e' := by
    funext err
    rw [objection, objection, h.name, h.uri]
  simp only [ExtensionFactory.toFactory, hx.validate h, hx.create h, hobjection]

/-- The factories that are built in look at nothing but what alike elements share. -/
theorem factoryOf_ignoresOrder (kinds : List Catalog.RuleKind) :
    (Catalog.factoryOf kinds).IgnoresOrder := by
  intro e e' h
  simp only [Catalog.factoryOf, h.name, Catalog.ruleKind_alike h, ruleName_alike h]

/-- A registry whose factories ignore the order creates one rule from alike elements. -/
theorem create_alike {g : Registry} (hg : ∀ f ∈ g.factories, f.IgnoresOrder) (h : ReadAlike e e') :
    g.create e = g.create e' := by
  have hclaimants : g.claimants e = g.claimants e' := by
    rw [Registry.claimants, Registry.claimants, ruleName_alike h]
  unfold Registry.create
  rw [← hclaimants, ruleName_alike h]
  split
  · rename_i one hone
    exact hg one (List.mem_of_mem_filter (hone ▸ List.mem_singleton_self one)) h
  · rfl
  · rfl

theorem withExtensions_ignoresOrder {extensions : List ExtensionFactory}
    (h : ∀ x ∈ extensions, x.IgnoresOrder) :
    ∀ f ∈ (Catalog.registry.withExtensions extensions).factories, f.IgnoresOrder := by
  intro f hf
  rcases List.mem_append.mp hf with hf | hf
  · obtain ⟨kinds, -, rfl⟩ := List.mem_map.mp hf
    exact factoryOf_ignoresOrder kinds
  · obtain ⟨x, hx, rfl⟩ := List.mem_map.mp hf
    exact (h x hx).toFactory

end FlowLint

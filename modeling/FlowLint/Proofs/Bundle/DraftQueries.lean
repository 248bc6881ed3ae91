import FlowLint.Proofs.Bundle.DraftDocument
import FlowLint.Proofs.Query.DocumentOrder
import FlowLint.Proofs.Text.Trimming
import FlowLint.Query.Description

/-!
# What queries find in the document of a draft

Writing the document of a draft and asking for its channels, steps and description gives back what
the draft says. Ids and names come back as they are. Keys and values of properties and the
description come back trimmed, and of properties with one key only the first is found.
-/

namespace FlowLint.Markup.Element

theorem filter_map_eq_self {α : Type} {p : Element → Bool} {tree : α → Element}
    (h : ∀ item, p (tree item) = true) (items : List α) :
    (items.map tree).filter p = items.map tree := by
  rw [List.filter_eq_self, List.forall_mem_map]
  exact fun item _ => h item

theorem filter_map_eq_nil {α : Type} {p : Element → Bool} {tree : α → Element}
    (h : ∀ item, p (tree item) = false) (items : List α) : (items.map tree).filter p = [] := by
  rw [List.filter_eq_nil_iff, List.forall_mem_map]
  intro item _
  rw [h item]
  exact Bool.false_ne_true

end FlowLint.Markup.Element

namespace FlowLint.Bundle

open FlowLint.Flow (Artifact)
open FlowLint.Markup (Element)
open FlowLint.Query (Channel ProcessStep ChannelFilter StepFilter)

/-! ## Properties -/

/-- The value of the first property with a key, both without blanks around them. -/
def firstValue? (ps : List Property) (key : String) : Option String :=
  (ps.find? fun p => Text.trim p.key = key).map fun p => Text.trim p.value

/-- The first of the properties with a key, once blanks around keys are dropped, is the one
found. -/
theorem property?_itemTree (name id shown : String) (ps : List Property) (key : String) :
    Query.property? (itemTree name id shown ps) key = firstValue? ps key := by
  have hproperties : (((itemTree name id shown ps).childrenNamed "extensionElements").flatMap
      (·.childrenNamed "property")) = ps.map Property.tree := by
    have hall : (propertiesTree ps).childrenNamed "property" = ps.map Property.tree :=
      Element.filter_map_eq_self (fun _ => rfl) ps
    have hone : (itemTree name id shown ps).childrenNamed "extensionElements" =
        [propertiesTree ps] := rfl
    rw [hone, List.flatMap_singleton, hall]
  rw [Query.property?, hproperties, List.find?_map, firstValue?]
  have hkey : ((fun p : Element => decide ((p.child? "key").map Element.text = some key)) ∘
      Property.tree) = fun p => decide (Text.trim p.key = key) := by
    funext p
    have hchild : (p.tree.child? "key").map Element.text = some (Text.trim p.key) := rfl
    simp only [Function.comp_apply, hchild, Option.some.injEq]
  rw [hkey]
  cases ps.find? fun p => decide (Text.trim p.key = key) with
  | none => rfl
  | some p => rfl

/-! ## Elements of the document -/

/-- The names of elements inside a channel or a step. -/
def propertyNames : List String :=
  ["extensionElements", "property", "key", "value"]

theorem name_of_mem_beneath {name id shown : String} {ps : List Property} {e : Element}
    (h : e ∈ (itemTree name id shown ps).beneath) : e.name ∈ propertyNames := by
  rw [Element.beneath_eq, Element.mem_forest] at h
  obtain ⟨outer, houter, h⟩ := h
  obtain rfl := List.mem_singleton.mp houter
  rw [List.mem_cons, Element.descendants_eq_beneath] at h
  rcases h with rfl | h
  · exact List.mem_cons_self
  rw [Element.beneath_eq, Element.mem_forest] at h
  obtain ⟨property, hproperty, h⟩ := h
  obtain ⟨p, -, rfl⟩ := List.mem_map.mp hproperty
  rw [List.mem_cons, Element.descendants_eq_beneath] at h
  rcases h with rfl | h
  · exact List.mem_cons_of_mem _ List.mem_cons_self
  have hinside : p.tree.beneath = p.tree.children := rfl
  rw [hinside] at h
  have hnames : p.tree.children.map (·.name) = ["key", "value"] := rfl
  have hname : e.name ∈ ["key", "value"] := hnames ▸ List.mem_map_of_mem h
  exact List.mem_append_right ["extensionElements", "property"] hname

namespace Draft

variable (d : Draft)

/-- Elements that are not parts of properties are found in the order of the draft. -/
theorem filter_descendants {p : Element → Bool}
    (hplain : ∀ e : Element, e.name ∈ propertyNames → p e = false) :
    d.tree.descendants.filter p =
      [d.collaborationTree].filter p ++ ((d.description.toList.map documentationTree).filter p ++
        ((d.channels.map DraftChannel.tree).filter p ++
          ([d.processTree].filter p ++ (d.mappingSteps.map DraftStep.tree).filter p))) := by
  have hdescriptions : (Element.forest (d.description.toList.map documentationTree)).filter p =
      (d.description.toList.map documentationTree).filter p :=
    Element.filter_forest_map (fun _ _ hinner => absurd hinner List.not_mem_nil) _
  have hchannels : (Element.forest (d.channels.map DraftChannel.tree)).filter p =
      (d.channels.map DraftChannel.tree).filter p :=
    Element.filter_forest_map (fun _ inner hinner => hplain inner (name_of_mem_beneath hinner)) _
  have hsteps : (Element.forest (d.mappingSteps.map DraftStep.tree)).filter p =
      (d.mappingSteps.map DraftStep.tree).filter p :=
    Element.filter_forest_map (fun _ inner hinner => hplain inner (name_of_mem_beneath hinner)) _
  have hdescendants : d.tree.descendants =
      [d.collaborationTree] ++ (Element.forest (d.description.toList.map documentationTree) ++
        (Element.forest (d.channels.map DraftChannel.tree) ++
          ([d.processTree] ++ Element.forest (d.mappingSteps.map DraftStep.tree)))) := by
    have hcollaboration : d.collaborationTree.beneath =
        Element.forest (d.description.toList.map documentationTree) ++
          Element.forest (d.channels.map DraftChannel.tree) := by
      rw [Element.beneath_eq, ← Element.forest_append]
      rfl
    have hprocess : d.processTree.beneath =
        Element.forest (d.mappingSteps.map DraftStep.tree) := Element.beneath_eq _
    rw [Element.descendants_eq_beneath, Element.beneath_eq]
    simp only [tree, Element.forest, hcollaboration, hprocess, List.cons_append, List.nil_append,
      List.append_nil, List.append_assoc]
  rw [hdescendants]
  simp only [List.filter_append, hdescriptions, hchannels, hsteps]

/-! ## Channels and steps -/

/-- The channels of a draft's document are those of the draft, in order. -/
theorem channels_tree : Query.channels d.tree {} = d.channels.map fun c => Channel.mk c.tree := by
  have haccepts : ChannelFilter.accepts {} = fun e => ["messageFlow"].contains e.name := by
    funext e
    exact Bool.and_true _
  have hplain : ∀ e : Element, e.name ∈ propertyNames →
      ["messageFlow"].contains e.name = false := by
    have hnames : ∀ name ∈ propertyNames, ["messageFlow"].contains name = false := by decide
    exact fun e he => hnames e.name he
  rw [Query.channels_eq, haccepts, d.filter_descendants hplain,
    Element.filter_map_eq_nil (fun _ => rfl), Element.filter_map_eq_self (fun _ => rfl),
    Element.filter_map_eq_nil (fun _ => rfl)]
  simp [collaborationTree, processTree]

/-- Every step of a draft is one that maps messages. -/
theorem mappings_holds (s : DraftStep) :
    (StepFilter.conditions .mappings).all (Query.Condition.holds s.tree) = true := by
  have hactivity : Query.property? s.tree "activityType" = some "Mapping" := by
    rw [DraftStep.tree, property?_itemTree, DraftStep.properties, firstValue?,
      List.find?_cons_of_pos (by decide)]
    decide
  have hconditions : StepFilter.conditions .mappings = [.oneOf "activityType" ["Mapping"]] := rfl
  rw [hconditions, List.all_cons, List.all_nil, Bool.and_true, Query.Condition.holds, hactivity]
  decide

/-- A filter that holds of every mapping step of the draft finds them all, in order. -/
theorem processSteps_tree {f : StepFilter}
    (hf : ∀ s : DraftStep, f.conditions.all (Query.Condition.holds s.tree) = true) :
    Query.processSteps d.tree f = d.mappingSteps.map fun s => ProcessStep.mk s.tree := by
  have hnone : ∀ e : Element, ["callActivity", "serviceTask"].contains e.name = false →
      f.accepts e = false := by
    intro e he
    rw [StepFilter.accepts, he, Bool.false_and]
  have hplain : ∀ e : Element, e.name ∈ propertyNames → f.accepts e = false := by
    have hnames : ∀ name ∈ propertyNames, ["callActivity", "serviceTask"].contains name = false := by
      decide
    exact fun e he => hnone e (hnames e.name he)
  have hstep : ∀ s : DraftStep, f.accepts s.tree = true := by
    intro s
    rw [StepFilter.accepts, hf s, Bool.and_true]
    rfl
  rw [Query.processSteps_eq, d.filter_descendants hplain,
    Element.filter_map_eq_nil (fun _ => hnone _ rfl),
    Element.filter_map_eq_nil (fun _ => hnone _ rfl), Element.filter_map_eq_self hstep]
  simp [hnone d.collaborationTree rfl, hnone d.processTree rfl]

/-! ## The description -/

theorem collaboration_tree {a : Artifact} (h : a.document = d.tree) :
    Query.collaboration a = .ok d.collaborationTree := by
  have hplain : ∀ e : Element, e.name ∈ propertyNames →
      Query.Step.accepts ⟨.descendant, ["collaboration"], []⟩ e = false := by
    have hnames : ∀ name ∈ propertyNames, ["collaboration"].contains name = false := by decide
    intro e he
    rw [Query.Step.accepts, hnames e.name he, Bool.false_and]
  have hselect := Query.select_descendant ["collaboration"] [] d.tree
  dsimp only at hselect
  rw [d.filter_descendants hplain, Element.filter_map_eq_nil (fun _ => rfl),
    Element.filter_map_eq_nil (fun _ => rfl), Element.filter_map_eq_nil (fun _ => rfl)] at hselect
  have hone : [d.collaborationTree].filter
      (Query.Step.accepts ⟨.descendant, ["collaboration"], []⟩) = [d.collaborationTree] := rfl
  have hother : [d.processTree].filter
      (Query.Step.accepts ⟨.descendant, ["collaboration"], []⟩) = [] := rfl
  rw [hone, hother] at hselect
  obtain ⟨n, hn, helement⟩ := List.map_eq_singleton_iff.mp hselect
  have hquery : Query.Structural.descendant {} "collaboration" =
      ⟨[⟨.descendant, ["collaboration"], []⟩]⟩ := rfl
  rw [Query.collaboration, h, hquery, hn]
  rw [← helement]

theorem childrenNamed_collaborationTree :
    d.collaborationTree.childrenNamed "documentation" =
      d.description.toList.map documentationTree := by
  rw [Element.childrenNamed, collaborationTree, List.filter_append,
    Element.filter_map_eq_self (fun _ => rfl), Element.filter_map_eq_nil (fun _ => rfl),
    List.append_nil]

/-- The description as it is shown, if there is one to show. -/
def shownDescription : Option String :=
  (d.description.filter fun text => !Text.isBlankText text).map Text.trim

theorem description_tree {a : Artifact} (h : a.document = d.tree) :
    Query.description a = .ok d.shownDescription := by
  have hselect := Query.select_child "documentation" d.collaborationTree
  rw [childrenNamed_collaborationTree] at hselect
  rw [Query.description, d.collaboration_tree h, shownDescription]
  dsimp only
  cases hdescription : d.description with
  | none =>
    rw [hdescription] at hselect
    rw [List.map_eq_nil_iff.mp hselect]
    rfl
  | some text =>
    rw [hdescription] at hselect
    obtain ⟨n, hn, helement⟩ := List.map_eq_singleton_iff.mp hselect
    have htext : n.element.text = Text.trim text := by
      rw [helement, documentationTree, Element.text]
    rw [hn]
    dsimp only
    rw [htext]
    by_cases hblank : Text.isBlankText text = true
    · simp [Option.filter, hblank, Text.trim_eq_empty_iff.mpr hblank]
    · simp [Option.filter, hblank, mt Text.trim_eq_empty_iff.mp hblank]

end Draft

/-! ## What is read back -/

/-- A channel that has been read is the one that was written. -/
structure IsChannelOf (read : Channel) (written : DraftChannel) : Prop where
  id : read.element.attr? "id" = some written.id
  name : read.element.attr? "name" = some written.name
  properties : ∀ key, read.property? key = firstValue? written.allProperties key

/-- A step that has been read is the one that was written. -/
structure IsStepOf (read : ProcessStep) (written : DraftStep) : Prop where
  id : read.element.attr? "id" = some written.id
  name : read.element.attr? "name" = some written.id

/-- The document of every draft is read, and queries find in it the channels, the steps and the
description of the draft, whatever texts these have. -/
theorem Draft.document_readBack (d : Draft) :
    ∃ root, Markup.parse d.document = .ok root ∧
      List.Forall₂ IsChannelOf (Query.channels root {}) d.channels ∧
      List.Forall₂ IsStepOf (Query.processSteps root {}) d.mappingSteps ∧
      List.Forall₂ IsStepOf (Query.processSteps root .mappings) d.mappingSteps ∧
      ∀ tag resources, Query.description ⟨tag, root, resources⟩ = .ok d.shownDescription := by
  have hchannel : ∀ c : DraftChannel, IsChannelOf ⟨c.tree⟩ c := fun c =>
    { id := rfl, name := rfl, properties := property?_itemTree _ _ _ _ }
  have hstep : ∀ s : DraftStep, IsStepOf ⟨s.tree⟩ s := fun s => { id := rfl, name := rfl }
  have hchannels : List.Forall₂ IsChannelOf (Query.channels d.tree {}) d.channels := by
    rw [d.channels_tree, List.forall₂_map_left_iff, List.forall₂_same]
    exact fun c _ => hchannel c
  have hsteps : ∀ f : StepFilter,
      (∀ s : DraftStep, f.conditions.all (Query.Condition.holds s.tree) = true) →
      List.Forall₂ IsStepOf (Query.processSteps d.tree f) d.mappingSteps := by
    intro f hf
    rw [d.processSteps_tree hf, List.forall₂_map_left_iff, List.forall₂_same]
    exact fun s _ => hstep s
  have hforall : List.Forall₂ IsStepOf (Query.processSteps d.tree { }) d.mappingSteps :=
    hsteps {} fun _ => rfl
  refine ⟨d.tree, d.parse_document, hchannels, hforall, ?_, ?_⟩
  · exact hsteps .mappings mappings_holds
  · intro tag resources
    exact d.description_tree rfl

end FlowLint.Bundle

import FlowLint.Proofs.Query.Selection

/-!
# Conditions on the words of a document

A condition names values by the words that documents use, and a channel or a step reads the same
words back as values. A condition holds exactly if the value that is read back is one of those
named. That every value is what its own word is read back as is all that is used of the words.
-/

namespace FlowLint.Query

open FlowLint.Markup (Element)
open FlowLint.Flow (Direction Adapter MappingType)

/-! ## Words -/

section Words

variable {α : Type} {known values : List α} {word : α → String} {w : String}

/-- Every value is what its own word is read back as. -/
def Spells (known : List α) (word : α → String) : Prop :=
  ∀ a, known.find? (word · = word a) = some a

/-- A word is among those of some values exactly if the value it is read back as is among them. -/
theorem Spells.mem_map_iff (h : Spells known word) :
    w ∈ values.map word ↔ known.find? (word · = w) ∈ values.map some := by
  constructor
  · intro hw
    obtain ⟨a, ha, rfl⟩ := List.mem_map.mp hw
    rw [h a]
    exact List.mem_map_of_mem ha
  · intro hread
    obtain ⟨a, ha, hfound⟩ := List.mem_map.mp hread
    have hword : decide (word a = w) = true :=
      List.find?_some (p := fun b => decide (word b = w)) hfound.symm
    rw [← of_decide_eq_true hword]
    exact List.mem_map_of_mem ha

theorem spells_direction : Spells [Direction.sender, .receiver] Direction.word := fun d => by
  cases d <;> decide

theorem spells_adapter : Spells Adapter.all Adapter.componentType :=
  Adapter.ofComponentType?_componentType

theorem spells_mappingType : Spells MappingType.all MappingType.subActivityType := fun t => by
  cases t <;> decide

/-- A condition on the words of values is one on the values that are read back. -/
theorem Spells.holds_iff (h : Spells known word) {e : Element} {key : String} :
    Condition.holds e (.oneOf key (values.map word)) = true ↔
      (property? e key >>= fun w => known.find? (word · = w)) ∈ values.map some := by
  cases hproperty : property? e key with
  | none =>
    rw [Condition.holds, hproperty]
    simp
  | some w =>
    rw [Condition.holds, hproperty]
    exact List.contains_iff_mem.trans h.mem_map_iff

end Words

/-! ## Channels and steps -/

variable {c : Channel} {s : ProcessStep} {A : List Adapter} {T : List MappingType}

@[simp] theorem direction_holds_iff {d : Direction} :
    Condition.holds c.element (.oneOf "direction" [d.word]) = true ↔ c.direction? = some d := by
  have hread : Condition.holds c.element (.oneOf "direction" ([d].map Direction.word)) = true ↔
      c.direction? ∈ [d].map some := spells_direction.holds_iff
  rwa [List.map_singleton, List.map_singleton, List.mem_singleton] at hread

@[simp] theorem adapters_hold_iff :
    Condition.holds c.element (.oneOf "ComponentType" (A.map Adapter.componentType)) = true ↔
      c.adapter? ∈ A.map some :=
  spells_adapter.holds_iff

@[simp] theorem activity_holds_iff {activity : String} :
    Condition.holds s.element (.oneOf "activityType" [activity]) = true ↔
      s.activityType? = some activity := by
  rw [ProcessStep.activityType?, ProcessStep.property?, Condition.holds, Option.any_eq_true]
  simp only [List.contains_iff_mem, List.mem_singleton]
  exact exists_eq_right

/-- The mapping type of a step is read only where its activity is the one of mappings. -/
theorem types_hold_iff (hactivity : s.activityType? = some mappingActivity) :
    Condition.holds s.element (.oneOf "subActivityType" (T.map MappingType.subActivityType)) = true
      ↔ s.mappingType? ∈ T.map some := by
  rw [ProcessStep.mappingType?, if_pos hactivity]
  exact spells_mappingType.holds_iff

/-- The filter for mapping steps, said of what the step itself answers. -/
theorem accepts_mappings_iff :
    StepFilter.mappings.accepts s.element = true ↔
      (s.element.name = "callActivity" ∨ s.element.name = "serviceTask") ∧
        s.activityType? = some mappingActivity := by
  have hconditions : StepFilter.mappings.conditions =
      [.oneOf "activityType" [mappingActivity]] := rfl
  rw [StepFilter.accepts_iff, hconditions, List.forall_mem_singleton, activity_holds_iff]

end FlowLint.Query

import FlowLint.Proofs.Query.Address
import FlowLint.Proofs.Query.Conditions

/-!
# What filters ask for

A filter names its adapters, its direction and its ways of mapping by the words that documents
use, while channels and steps read the same words back. Both sides are compared here: a filter
takes the channels, or the steps, whose own direction, adapter or mapping type it names, in the
order of the document. Words that nothing is named by are read back as nothing, so that no
filter finds them.

A filter without adapters or mapping types is for all of them, and a new list of adapters takes
the place of the one before. A filter for plain addresses is compared on channels that have no
property under a key of another adapter only; for the others the list decides which property
counts as the address.
-/

namespace FlowLint.Query

open FlowLint.Markup (Element)
open FlowLint.Flow (Direction Adapter MappingType)

/-! ## Channels -/

variable {document : Element} {f g : ChannelFilter} {c : Channel} {A : List Adapter}

/-- The filter with its direction. -/
def ChannelFilter.toward (f : ChannelFilter) (direction : Option Direction) : ChannelFilter :=
  { f with direction }

/-- The list names the adapter of the channel, or none at all. -/
def Admits (A : List Adapter) (c : Channel) : Prop :=
  A = [] ∨ c.adapter? ∈ A.map some

instance (A : List Adapter) (c : Channel) : Decidable (Admits A c) :=
  inferInstanceAs (Decidable (_ ∨ _))

/-- No list of adapters makes the filter judge the channel by the property of another adapter. -/
def Undisputed (f : ChannelFilter) (c : Channel) : Prop :=
  f.unencryptedOnly = true → (f.usingAdapters []).OwnKeysOnly c

instance (f : ChannelFilter) (c : Channel) : Decidable (Undisputed f c) :=
  inferInstanceAs (Decidable (_ → _))

/-- What a filter takes is said by what the channel itself answers. -/
structure Taken (f : ChannelFilter) (c : Channel) : Prop where
  named : c.element.name = "messageFlow"
  direction : ∀ d, f.direction = some d → c.direction? = some d
  adapter : Admits f.adapters c
  plain : f.unencryptedOnly = true → f.judgesPlain c = true

/-- A filter accepts the element of a channel exactly if it takes the channel. -/
theorem accepts_iff_taken : f.accepts c.element = true ↔ Taken f c := by
  have hdirection : (∀ condition ∈
      (f.direction.map fun d => Condition.oneOf "direction" [d.word]).toList,
      condition.holds c.element = true) ↔ ∀ d, f.direction = some d → c.direction? = some d := by
    cases f.direction with
    | none => simp
    | some d => simp [direction_holds_iff]
  have hadapter : (∀ condition ∈ if f.adapters.isEmpty then []
      else [Condition.oneOf "ComponentType" (f.adapters.map Adapter.componentType)],
      condition.holds c.element = true) ↔ Admits f.adapters c := by
    by_cases hempty : f.adapters = []
    · simp [hempty, Admits]
    · have hlisted : f.adapters.isEmpty ≠ true := mt List.isEmpty_iff.mp hempty
      rw [if_neg hlisted, Admits, or_iff_right hempty, ← adapters_hold_iff,
        List.forall_mem_singleton]
  have hplain : (∀ condition ∈ if f.unencryptedOnly then
      [Condition.startsWith f.addressKeys "http://"] else [],
      condition.holds c.element = true) ↔
      (f.unencryptedOnly = true → f.judgesPlain c = true) := by
    cases f.unencryptedOnly with
    | false => simp
    | true =>
      rw [if_pos rfl, List.forall_mem_singleton]
      constructor
      · intro h _
        exact h
      · intro h
        exact h rfl
  rw [ChannelFilter.accepts_iff, ChannelFilter.conditions, List.forall_mem_append,
    List.forall_mem_append, hdirection, hadapter, hplain]
  constructor
  · rintro ⟨hnamed, ⟨hd, ha⟩, hp⟩
    exact ⟨hnamed, hd, ha, hp⟩
  · intro h
    exact ⟨h.named, ⟨h.direction, h.adapter⟩, h.plain⟩

/-- Filters are compared one channel at a time. -/
theorem channels_eq_filter {p : Channel → Prop} [DecidablePred p]
    (h : ∀ c, Taken g c ↔ Taken f c ∧ p c) :
    channels document g = (channels document f).filter (p ·) := by
  rw [channels_eq, channels_eq, List.filter_map, List.filter_filter]
  congr 1
  refine List.filter_congr fun e _ => Bool.eq_iff_iff.mpr ?_
  have hg := accepts_iff_taken (f := g) (c := ⟨e⟩)
  have hf := accepts_iff_taken (f := f) (c := ⟨e⟩)
  rw [Bool.and_eq_true, Function.comp, decide_eq_true_eq, hg, h, ← hf, and_comm]

/-! ### Direction -/

theorem taken_toward {d : Direction} :
    Taken (f.toward (some d)) c ↔ Taken (f.toward none) c ∧ c.direction? = some d := by
  constructor
  · intro h
    exact ⟨⟨h.named, fun _ hnone => absurd hnone nofun, h.adapter, h.plain⟩, h.direction d rfl⟩
  · rintro ⟨h, hd⟩
    refine ⟨h.named, fun d' hd' => ?_, h.adapter, h.plain⟩
    rwa [← Option.some.inj hd']

/-! ### Adapters -/

theorem admits_nil : Admits [] c :=
  .inl rfl

theorem admits_iff (hA : A ≠ []) : Admits A c ↔ c.adapter? ∈ A.map some :=
  or_iff_right hA

/-- A filter without adapters knows every key that it knows with them. -/
theorem addressKeys_usingAdapters_subset {key : String}
    (h : key ∈ (f.usingAdapters A).addressKeys) : key ∈ (f.usingAdapters []).addressKeys := by
  obtain ⟨adapter, -, hkey⟩ := ChannelFilter.mem_addressKeys.mp h
  exact ChannelFilter.mem_addressKeys.mpr ⟨adapter, Adapter.mem_all adapter, hkey⟩

/-- A new list takes the place of the one before. -/
theorem taken_usingAdapters (hplain : f.unencryptedOnly = false) :
    Taken (f.usingAdapters A) c ↔ Taken (f.usingAdapters []) c ∧ Admits A c := by
  have hanyone : ∀ B, (f.usingAdapters B).unencryptedOnly = true →
      (f.usingAdapters B).judgesPlain c = true := fun B h =>
    absurd (hplain.symm.trans h) Bool.false_ne_true
  constructor
  · intro h
    exact ⟨⟨h.named, h.direction, admits_nil, hanyone []⟩, h.adapter⟩
  · rintro ⟨h, hadmits⟩
    exact ⟨h.named, h.direction, hadmits, hanyone A⟩

/-- A list of adapters keeps the channels it admits, where plain addresses are not asked for. -/
theorem channels_usingAdapters (hplain : f.unencryptedOnly = false) :
    channels document (f.usingAdapters A) =
      (channels document (f.usingAdapters [])).filter (Admits A ·) :=
  channels_eq_filter fun _ => taken_usingAdapters hplain

/-- Where a list adds nothing to the adapters of the filter, it takes a part of its channels. -/
theorem channels_usingAdapters_within (hplain : f.unencryptedOnly = false) (hA : A ≠ [])
    (hwithin : f.adapters = [] ∨ A ⊆ f.adapters) :
    channels document (f.usingAdapters A) =
      (channels document f).filter fun c => c.adapter? ∈ A.map some := by
  refine channels_eq_filter fun c => ?_
  rw [taken_usingAdapters hplain, admits_iff hA]
  have hself : Taken f c ↔ Taken (f.usingAdapters []) c ∧ Admits f.adapters c :=
    taken_usingAdapters (f := f) (A := f.adapters) hplain
  rw [hself, and_assoc]
  refine and_congr_right fun _ => ⟨fun hmem => ⟨?_, hmem⟩, And.right⟩
  refine hwithin.imp id fun hsub => ?_
  exact List.map_subset some hsub hmem

/-! ### Plain addresses -/

/-- The filter for channels with any address. -/
def ChannelFilter.withAnyEndpoint (f : ChannelFilter) : ChannelFilter :=
  { f with unencryptedOnly := false }

theorem withAnyEndpoint_plain (hplain : f.unencryptedOnly = true) :
    (f.withAnyEndpoint.usingAdapters A).withUnencryptedEndpoint = f.usingAdapters A := by
  rw [ChannelFilter.withUnencryptedEndpoint, ChannelFilter.usingAdapters,
    ChannelFilter.usingAdapters, ← hplain]
  rfl

/-- On channels with their own keys only, the plain ones are kept. -/
theorem filter_plain {q : Channel → Prop} [DecidablePred q] (hq : ∀ c, q c → f.OwnKeysOnly c) :
    (channels document f.withUnencryptedEndpoint).filter (q ·) =
      ((channels document f).filter Channel.callsPlain).filter (q ·) := by
  rw [channels_plain_eq, List.filter_filter, List.filter_filter]
  refine List.filter_congr fun c hc => ?_
  by_cases h : q c
  · rw [judgesPlain_eq_callsPlain hc (hq c h)]
  · rw [decide_eq_false h, Bool.false_and, Bool.false_and]

theorem undisputed_own (hplain : f.unencryptedOnly = true) (h : Undisputed f c) :
    (f.withAnyEndpoint.usingAdapters A).OwnKeysOnly c := fun key hkey =>
  h hplain key (addressKeys_usingAdapters_subset (f := f) hkey)

/-- The same with plain addresses asked for, on channels that no list judges by the property of
another adapter. -/
theorem channels_usingAdapters_undisputed (document : Element) (f : ChannelFilter)
    (A : List Adapter) :
    (channels document (f.usingAdapters A)).filter (Undisputed f ·) =
      ((channels document (f.usingAdapters [])).filter (Admits A ·)).filter (Undisputed f ·) := by
  cases hplain : f.unencryptedOnly with
  | false => rw [channels_usingAdapters hplain]
  | true =>
    rw [← withAnyEndpoint_plain (A := A) hplain, ← withAnyEndpoint_plain (A := []) hplain]
    -- On these channels the plain ones may be taken last, by their own addresses.
    have hlast : ∀ B, (channels document
          (f.withAnyEndpoint.usingAdapters B).withUnencryptedEndpoint).filter (Undisputed f ·) =
        ((channels document (f.withAnyEndpoint.usingAdapters B)).filter
          Channel.callsPlain).filter (Undisputed f ·) := fun B =>
      filter_plain fun c h => undisputed_own hplain h
    rw [hlast A, List.filter_comm _ (Admits A ·), hlast [], channels_usingAdapters rfl,
      List.filter_comm Channel.callsPlain, List.filter_comm _ (Admits A ·)]

/-! ## Process steps -/

variable {T : List MappingType} {s : ProcessStep}

/-- The list names the mapping type of the step, or none at all. -/
def AdmitsType (T : List MappingType) (s : ProcessStep) : Prop :=
  T = [] ∨ s.mappingType? ∈ T.map some

instance (T : List MappingType) (s : ProcessStep) : Decidable (AdmitsType T s) :=
  inferInstanceAs (Decidable (_ ∨ _))

theorem accepts_ofMappingTypes_iff :
    (StepFilter.ofMappingTypes T).accepts s.element = true ↔
      StepFilter.mappings.accepts s.element = true ∧ AdmitsType T s := by
  by_cases hT : T = []
  · subst hT
    exact (and_iff_left (.inl rfl)).symm
  · have hconditions : (StepFilter.ofMappingTypes T).conditions =
        StepFilter.mappings.conditions ++
          [.oneOf "subActivityType" (T.map MappingType.subActivityType)] := by
      have hne : ¬ (T.map MappingType.subActivityType).isEmpty = true := by
        rwa [List.isEmpty_iff, List.map_eq_nil_iff]
      exact congrArg _ (if_neg hne)
    have hmore : (StepFilter.ofMappingTypes T).accepts s.element = true ↔
        StepFilter.mappings.accepts s.element = true ∧ Condition.holds s.element
          (.oneOf "subActivityType" (T.map MappingType.subActivityType)) = true := by
      rw [StepFilter.accepts_iff, StepFilter.accepts_iff, hconditions, List.forall_mem_append,
        List.forall_mem_singleton, and_assoc]
    rw [hmore, AdmitsType, or_iff_right hT]
    refine and_congr_right fun hmapping => types_hold_iff ?_
    exact (accepts_mappings_iff.mp hmapping).2

/-- A list of mapping types keeps the steps it admits. -/
theorem processSteps_ofMappingTypes (document : Element) (T : List MappingType) :
    processSteps document (.ofMappingTypes T) =
      (processSteps document .mappings).filter (AdmitsType T ·) := by
  rw [processSteps_eq, processSteps_eq, List.filter_map, List.filter_filter]
  congr 1
  refine List.filter_congr fun e _ => Bool.eq_iff_iff.mpr ?_
  have htypes := accepts_ofMappingTypes_iff (T := T) (s := ⟨e⟩)
  rw [Bool.and_eq_true, Function.comp, decide_eq_true_eq, htypes, and_comm]

/-! ## Filters and handles -/

/-- What the filters find in a document, said by what the channels and steps answer. -/
structure Readings (document : Element) : Prop where
  channels : channels document {} =
    (document.descendants.filter (·.name = "messageFlow")).map .mk
  senders : Query.channels document .senders =
    (Query.channels document {}).filter (·.direction? = some .sender)
  receivers : Query.channels document .receivers =
    (Query.channels document {}).filter (·.direction? = some .receiver)
  toward : ∀ (f : ChannelFilter) d, Query.channels document (f.toward (some d)) =
    (Query.channels document (f.toward none)).filter (·.direction? = some d)
  usingAdapters : ∀ (f : ChannelFilter) A, f.unencryptedOnly = false →
    Query.channels document (f.usingAdapters A) =
      (Query.channels document (f.usingAdapters [])).filter (Admits A ·)
  within : ∀ (f : ChannelFilter) A, f.unencryptedOnly = false → A ≠ [] →
    f.adapters = [] ∨ A ⊆ f.adapters →
    Query.channels document (f.usingAdapters A) =
      (Query.channels document f).filter fun c => c.adapter? ∈ A.map some
  undisputed : ∀ (f : ChannelFilter) A,
    (Query.channels document (f.usingAdapters A)).filter (Undisputed f ·) =
      ((Query.channels document (f.usingAdapters [])).filter (Admits A ·)).filter (Undisputed f ·)
  mappings : processSteps document .mappings =
    ((document.descendants.filter fun e => e.name = "callActivity" ∨ e.name = "serviceTask").map
      .mk).filter (·.activityType? = some mappingActivity)
  mappingTypes : ∀ T, processSteps document (.ofMappingTypes T) =
    (processSteps document .mappings).filter (AdmitsType T ·)

theorem channels_any (document : Element) :
    channels document {} = (document.descendants.filter (·.name = "messageFlow")).map .mk := by
  rw [channels_eq]
  congr 1
  refine List.filter_congr fun e _ => Bool.eq_iff_iff.mpr ?_
  rw [decide_eq_true_eq]
  refine (accepts_iff_taken (c := ⟨e⟩)).trans ⟨fun h => h.named, fun h => ?_⟩
  exact ⟨h, nofun, admits_nil, nofun⟩

theorem processSteps_mappings (document : Element) :
    processSteps document .mappings =
      ((document.descendants.filter fun e => e.name = "callActivity" ∨ e.name = "serviceTask").map
        .mk).filter (·.activityType? = some mappingActivity) := by
  rw [processSteps_eq, List.filter_map, List.filter_filter]
  congr 1
  refine List.filter_congr fun e _ => Bool.eq_iff_iff.mpr ?_
  have hmapping := accepts_mappings_iff (s := ⟨e⟩)
  rw [hmapping, Bool.and_eq_true, Function.comp, decide_eq_true_eq, decide_eq_true_eq, and_comm]

/-- A filter for any channel finds all of the document, and every restriction of a filter keeps
those that answer with what it names. -/
theorem readings (document : Element) : Readings document where
  channels := channels_any document
  senders := channels_eq_filter fun _ => taken_toward (f := {})
  receivers := channels_eq_filter fun _ => taken_toward (f := {})
  toward _ _ := channels_eq_filter fun _ => taken_toward
  usingAdapters _ _ hplain := channels_usingAdapters hplain
  within _ _ hplain hA hwithin := channels_usingAdapters_within hplain hA hwithin
  undisputed f A := channels_usingAdapters_undisputed document f A
  mappings := processSteps_mappings document
  mappingTypes T := processSteps_ofMappingTypes document T

/-! ## Lists that do not restrict -/

/-- A step with properties. -/
def stepElement (name : String) (properties : List (String × String)) : Element :=
  { channelElement name properties with name := "callActivity" }

/-- A document with two channels of known adapters, one of another and a mapping. -/
def mixed : Element :=
  { Element.named "definitions" with
    children := [
      channelElement "Orders" [("direction", "Receiver"), ("ComponentType", "HTTP")],
      channelElement "Invoices" [("direction", "Receiver"), ("ComponentType", "SOAP")],
      channelElement "Other" [("ComponentType", "Custom")],
      stepElement "Convert" [("activityType", "Mapping"), ("subActivityType", "XSLTMapping")]] }

/-- The receivers that use one adapter. -/
def soapReceivers : ChannelFilter :=
  ChannelFilter.receivers.usingAdapters [.soap]

/-- An empty list takes everything, although it has no members, and a second list finds channels
that the first one left out. -/
theorem lists_unrestricting :
    (channels mixed (({} : ChannelFilter).usingAdapters [])).map (·.name) =
        ["Orders", "Invoices", "Other"] ∧
      ((channels mixed {}).filter fun c => c.adapter? ∈ [].map some).map (·.name) = [] ∧
      (channels mixed (soapReceivers.usingAdapters [.http])).map (·.name) = ["Orders"] ∧
      ((channels mixed soapReceivers).filter fun c => c.adapter? ∈ [.http].map some).map (·.name) = [] ∧
      (processSteps mixed (.ofMappingTypes [])).map (·.name) = ["Convert"] ∧
      ((processSteps mixed .mappings).filter fun s => s.mappingType? ∈ [].map some).map (·.name) =
        [] := by
  simp only [channels_eq, processSteps_eq, Element.descendants_eq_beneath]
  decide

end FlowLint.Query

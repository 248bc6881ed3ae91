import FlowLint.Catalog.BuiltIn
import FlowLint.Proofs.Catalog.Complement
import FlowLint.Proofs.Rule.Deferral

/-!
# Direct calls that nobody serves

The rule about direct calls raises one issue for each receiver channel that calls a fixed address
which no sender channel of the run serves, wherever in the run the sender stands. What a channel
calls or serves is said here element by element, without queries. So the issues about an artifact
can only become fewer when others join the run, and only by an address that is served. Addresses
that mean the same but are spelled in two ways are two addresses.
-/

namespace FlowLint.Catalog

open FlowLint.Flow (Adapter Artifact Direction)
open FlowLint.Markup (Element)
open FlowLint.Query (Channel ChannelFilter Condition)

/-! ## Calls and servers -/

/-- The address at which an element that is a channel of a direction makes or takes direct calls. -/
def directAddress? (d : Direction) (e : Element) : Option String :=
  let channel : Channel := ⟨e⟩
  if e.name = "messageFlow" ∧ channel.direction? = some d ∧
      channel.adapter? = some .processDirect then
    (channel.property? "address").filter (· ≠ "")
  else none

/-- The artifact has a channel that takes direct calls at the address. -/
def Serves (a : Artifact) (address : String) : Prop :=
  ∃ e ∈ a.document.descendants, directAddress? .sender e = some address

instance (a : Artifact) (address : String) : Decidable (Serves a address) :=
  inferInstanceAs
    (Decidable (∃ e ∈ a.document.descendants, directAddress? .sender e = some address))

/-- The address is there before the flow runs: no placeholder begins in it. -/
def IsFixed (address : String) : Prop :=
  ¬ "$\x7b".toList <:+: address.toList

instance (address : String) : Decidable (IsFixed address) :=
  inferInstanceAs (Decidable (¬ "$\x7b".toList <:+: address.toList))

/-- The calls of an artifact to fixed addresses that none of the artifacts of a run serves, in the
order of the channels. -/
def openCalls (artifacts : List Artifact) (a : Artifact) : List DirectCall :=
  a.document.descendants.filterMap fun e =>
    ((directAddress? .receiver e).filter fun address =>
      IsFixed address ∧ ∀ b ∈ artifacts, ¬ Serves b address).map fun address =>
        ⟨a.tag, (⟨e⟩ : Channel).name, address⟩

/-- Those of some calls that none of the artifacts serves. -/
def unserved (artifacts : List Artifact) (calls : List DirectCall) : List DirectCall :=
  calls.filter fun c => ∀ b ∈ artifacts, ¬ Serves b c.address

/-! ## What the queries find -/

theorem occursIn_iff {part whole : List Char} :
    Text.occursIn part whole = true ↔ part <:+: whole := by
  induction whole with
  | nil => rw [Text.occursIn, List.isEmpty_iff, List.infix_nil]
  | cons c rest ih =>
    rw [Text.occursIn, Bool.or_eq_true, List.isPrefixOf_iff_prefix, ih, List.infix_cons_iff]

/-- The test for placeholders passes exactly the addresses in which none begins. -/
theorem isDynamic_eq_false_iff {address : String} :
    isDynamic address = false ↔ IsFixed address := by
  rw [isDynamic, Text.contains, ← Bool.not_eq_true, occursIn_iff]
  rfl

/-- The channels of a direction that make or take direct calls. -/
def directFilter (d : Direction) : ChannelFilter :=
  { direction := some d, adapters := [.processDirect] }

/-- The filter for direct channels, said of the element alone. -/
theorem accepts_directFilter {d : Direction} {e : Element} :
    (directFilter d).accepts e = true ↔ e.name = "messageFlow" ∧
      (⟨e⟩ : Channel).direction? = some d ∧ (⟨e⟩ : Channel).adapter? = some .processDirect := by
  have hconditions : (directFilter d).conditions = [.oneOf "direction" [d.word],
      .oneOf "ComponentType" [Adapter.processDirect.componentType]] := rfl
  have hdirection := Query.direction_holds_iff (c := ⟨e⟩) (d := d)
  have hadapter := Query.adapters_hold_iff (c := ⟨e⟩) (A := [.processDirect])
  simp only [List.map_singleton, List.mem_singleton] at hadapter
  rw [ChannelFilter.accepts_iff, hconditions, List.forall_mem_cons, List.forall_mem_singleton,
    hdirection, hadapter]

/-- Where a channel that the filter finds makes or takes calls. -/
theorem address?_of_accepts {d : Direction} {e : Element} :
    (if (directFilter d).accepts e then (⟨e⟩ : Channel).address? else none) =
      directAddress? d e := by
  rw [directAddress?]
  by_cases haccepts : (directFilter d).accepts e = true
  · have hchannel := accepts_directFilter.mp haccepts
    have hkeys : (⟨e⟩ : Channel).addressKeys = ["address"] := by
      rw [Channel.addressKeys, hchannel.2.2]
      rfl
    rw [if_pos haccepts, if_pos hchannel, Channel.address?, hkeys]
    simp [Query.firstProperty?, Channel.property?]
  · rw [if_neg haccepts, if_neg fun hchannel => haccepts (accepts_directFilter.mpr hchannel)]

/-- The addresses that an artifact serves are those of its direct senders. -/
theorem mem_servedAddresses {a : Artifact} {address : String} :
    address ∈ servedAddresses a ↔ Serves a address := by
  have hfilter : ChannelFilter.senders.usingAdapters [.processDirect] = directFilter .sender := rfl
  rw [servedAddresses, hfilter, Query.channels_eq, List.filterMap_map, List.filterMap_filter,
    List.mem_filterMap]
  simp only [Function.comp_apply, address?_of_accepts]
  rfl

/-- The calls of an artifact, element by element in the order of the document. -/
theorem directCalls_eq (a : Artifact) :
    directCalls a = a.document.descendants.filterMap fun e =>
      ((directAddress? .receiver e).filter (IsFixed ·)).map fun address =>
        ⟨a.tag, (⟨e⟩ : Channel).name, address⟩ := by
  have hfilter : ChannelFilter.receivers.usingAdapters [.processDirect] = directFilter .receiver :=
    rfl
  have hfixed : (fun address => !isDynamic address) = fun address => decide (IsFixed address) := by
    funext address
    rw [Bool.eq_iff_iff, Bool.not_eq_true', decide_eq_true_iff]
    exact isDynamic_eq_false_iff
  rw [directCalls, hfilter, Query.channels_eq, List.filterMap_map, List.filterMap_filter, hfixed]
  refine List.filterMap_congr fun e _ => ?_
  rw [← address?_of_accepts, Function.comp_apply]
  by_cases haccepts : (directFilter .receiver).accepts e = true
  · rw [if_pos haccepts, if_pos haccepts]
  · rw [if_neg haccepts, if_neg haccepts]
    rfl

/-! ## Open calls -/

/-- A call is open if none of the artifacts serves its address. -/
theorem openCalls_eq (artifacts : List Artifact) (a : Artifact) :
    openCalls artifacts a = unserved artifacts (directCalls a) := by
  rw [openCalls, unserved, directCalls_eq, List.filter_filterMap]
  refine List.filterMap_congr fun e _ => ?_
  cases directAddress? .receiver e with
  | none => rfl
  | some address =>
    by_cases hfixed : IsFixed address <;> simp [Option.filter, hfixed]

theorem finishDirectCalls_issues (artifacts : List Artifact) :
    (finishDirectCalls artifacts).issues =
      (artifacts.flatMap (openCalls artifacts)).map DirectCall.issue := by
  have hserved : ∀ address, (!(artifacts.flatMap servedAddresses).contains address) =
      decide (∀ b ∈ artifacts, ¬ Serves b address) := by
    intro address
    rw [Bool.eq_iff_iff, Bool.not_eq_true', decide_eq_true_iff, ← Bool.not_eq_true,
      List.contains_iff_mem, List.mem_flatMap]
    simp only [mem_servedAddresses, not_exists, not_and]
  have hopen : ∀ a,
      (directCalls a).filter (fun c => decide (∀ b ∈ artifacts, ¬ Serves b c.address)) =
        openCalls artifacts a := fun a => (openCalls_eq artifacts a).symm
  simp only [finishDirectCalls, hserved, List.filter_flatMap, hopen]

/-- Artifacts that join a run take from the open calls of each artifact those that they serve. -/
theorem openCalls_join (before added later : List Artifact) (a : Artifact) :
    openCalls (before ++ added ++ later) a = unserved added (openCalls (before ++ later) a) := by
  rw [openCalls_eq, openCalls_eq, unserved, unserved, unserved, List.filter_filter]
  refine List.filter_congr fun c _ => ?_
  rw [← Bool.decide_and, decide_eq_decide]
  simp only [List.forall_mem_append]
  tauto

/-- The rule about direct calls waits for the end, does not fail there, and raises one issue for
each call to a fixed address that no artifact of the run serves, in the order of the artifacts and
their channels. Of what it says of some artifacts, others that join the run take away what they
serve, and add nothing but what it says of themselves. -/
theorem directCalls_unserved (id : Option String) :
    (∀ artifacts, ({ BuiltIn.directCalls.toRule with id } : Rule).Defers artifacts
      ((artifacts.flatMap (openCalls artifacts)).map fun c => c.issue.withRuleId id)) ∧
    ∀ before added later : List Artifact,
      let run := before ++ added ++ later
      run.flatMap (openCalls run) =
        unserved added (before.flatMap (openCalls (before ++ later))) ++
          added.flatMap (openCalls run) ++
          unserved added (later.flatMap (openCalls (before ++ later))) := by
  constructor
  · intro artifacts
    let rule : Rule := { BuiltIn.directCalls.toRule with id }
    have hlogic : rule.logic = .perRun finishDirectCalls := rfl
    have hpassed : (finishDirectCalls artifacts).failure = none := rfl
    have hdefers := Rule.defers_perRun hlogic rfl rfl hpassed
    rw [finishDirectCalls_issues, List.map_map] at hdefers
    exact hdefers
  · intro before added later run
    have hpart : ∀ part : List Artifact,
        unserved added (part.flatMap (openCalls (before ++ later))) =
          part.flatMap (openCalls run) := by
      intro part
      rw [unserved, List.filter_flatMap]
      exact List.flatMap_congr fun a _ => (openCalls_join before added later a).symm
    rw [hpart, hpart, List.flatMap_append, List.flatMap_append]

end FlowLint.Catalog

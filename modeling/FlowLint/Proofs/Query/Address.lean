import FlowLint.Proofs.Query.Selection

/-!
# Plain addresses

The address of a channel stands in a property that depends on its adapter. A filter for
channels with plain addresses does not look there: it judges every channel by the first of its
properties under any key that belongs to any of the filter's adapters. The two readings agree
on channels without properties under the keys of other adapters, and are not the same on
others.
-/

namespace FlowLint.Query

open FlowLint.Markup (Element)
open FlowLint.Flow (Adapter)

/-- Whether an address is one of the web without encryption. -/
def isPlain (address : String) : Bool :=
  Text.startsWithIgnoringCase address "http://"

/-- Whether the channel's own address is plain. -/
def Channel.callsPlain (c : Channel) : Bool :=
  c.address?.any isPlain

namespace ChannelFilter

/-- Whether the filter takes the channel to have a plain address. -/
def judgesPlain (f : ChannelFilter) (c : Channel) : Bool :=
  (firstProperty? c.element f.addressKeys).any isPlain

/-- The channel has no property under a key that is for other adapters of the filter. -/
def OwnKeysOnly (f : ChannelFilter) (c : Channel) : Prop :=
  ∀ key ∈ f.addressKeys, key ∉ c.addressKeys → c.property? key = none

instance (f : ChannelFilter) (c : Channel) : Decidable (f.OwnKeysOnly c) :=
  inferInstanceAs (Decidable (∀ key ∈ f.addressKeys, key ∉ c.addressKeys → c.property? key = none))

/-! ## Keys -/

theorem mem_foldl_keys {known added : List String} {key : String} :
    key ∈ added.foldl (fun keys key => if keys.contains key then keys else keys ++ [key]) known ↔
      key ∈ known ∨ key ∈ added := by
  induction added generalizing known with
  | nil => simp
  | cons first rest ih =>
    rw [List.foldl_cons, ih, List.mem_cons, ← or_assoc]
    refine or_congr ?_ Iff.rfl
    by_cases hfirst : known.contains first = true
    · rw [if_pos hfirst, iff_self_or]
      rintro rfl
      exact List.contains_iff_mem.mp hfirst
    · rw [if_neg hfirst, List.mem_append, List.mem_singleton]

/-- The adapters that the channels of the filter may have. -/
def possibleAdapters (f : ChannelFilter) : List Adapter :=
  if f.adapters.isEmpty then Adapter.all else f.adapters

/-- The keys that a filter goes through are those of all its possible adapters. -/
@[simp] theorem mem_addressKeys {f : ChannelFilter} {key : String} :
    key ∈ f.addressKeys ↔ ∃ adapter ∈ f.possibleAdapters, key ∈ adapter.addressKeys := by
  rw [addressKeys, mem_foldl_keys, or_iff_right List.not_mem_nil]
  exact List.mem_flatMap

end ChannelFilter

variable {document : Element} {f : ChannelFilter} {c : Channel}

theorem adapter_of_mem_channels (hc : c ∈ channels document f) (hadapters : f.adapters ≠ []) :
    ∃ adapter ∈ f.adapters, c.adapter? = some adapter := by
  have hempty : ¬ f.adapters.isEmpty = true := mt List.isEmpty_iff.mp hadapters
  have hcondition : .oneOf "ComponentType" (f.adapters.map Adapter.componentType) ∈
      f.conditions := by
    rw [ChannelFilter.conditions, if_neg hempty]
    exact List.mem_append_left _ (List.mem_append_right _ List.mem_cons_self)
  have hholds := condition_holds hc hcondition
  obtain ⟨word, hword, hlisted⟩ := (Option.any_eq_true _ _).mp hholds
  obtain ⟨adapter, hadapter, rfl⟩ := List.mem_map.mp (List.contains_iff_mem.mp hlisted)
  refine ⟨adapter, hadapter, ?_⟩
  have hproperty : c.property? "ComponentType" = some adapter.componentType := hword
  rw [Channel.adapter?, hproperty]
  exact Adapter.ofComponentType?_componentType adapter

/-- The filter knows the keys of every channel that it can find. -/
theorem addressKeys_subset (hc : c ∈ channels document f) {key : String}
    (hkey : key ∈ c.addressKeys) : key ∈ f.addressKeys := by
  rw [ChannelFilter.mem_addressKeys]
  -- A channel of unknown adapter is only found by a filter for any, which knows `address` too.
  by_cases hadapters : f.adapters = []
  · have hall : f.possibleAdapters = Adapter.all := by
      rw [ChannelFilter.possibleAdapters, hadapters]
      rfl
    rw [hall]
    cases hadapter : c.adapter? with
    | some adapter =>
      rw [Channel.addressKeys, hadapter] at hkey
      exact ⟨adapter, Adapter.mem_all adapter, hkey⟩
    | none =>
      rw [Channel.addressKeys, hadapter] at hkey
      exact ⟨.amqp, Adapter.mem_all .amqp, hkey⟩
  · obtain ⟨adapter, hmem, hadapter⟩ := adapter_of_mem_channels hc hadapters
    have hlisted : f.possibleAdapters = f.adapters :=
      if_neg (mt List.isEmpty_iff.mp hadapters)
    rw [Channel.addressKeys, hadapter] at hkey
    rw [hlisted]
    exact ⟨adapter, hmem, hkey⟩

theorem exists_addressKeys_eq (c : Channel) : ∃ key, c.addressKeys = [key] := by
  rw [Channel.addressKeys]
  cases c.adapter? with
  | none => exact ⟨_, rfl⟩
  | some adapter => cases adapter <;> exact ⟨_, rfl⟩

/-! ## The two readings -/

theorem findSome?_of_only {α : Type} {value? : String → Option α} {keys : List String}
    {key : String} (hkey : key ∈ keys) (hothers : ∀ k ∈ keys, k ≠ key → value? k = none) :
    keys.findSome? value? = value? key := by
  induction keys with
  | nil => cases hkey
  | cons first rest ih =>
    obtain ⟨hfirst, hrest⟩ := List.forall_mem_cons.mp hothers
    rw [List.findSome?_cons]
    by_cases heq : first = key
    · rw [heq]
      cases hvalue : value? key with
      | some v => rfl
      | none =>
        -- The key may come again, with as little there as before.
        refine List.findSome?_eq_none_iff.mpr fun k hk => ?_
        by_cases hk' : k = key
        · rw [hk', hvalue]
        · exact hrest k hk hk'
    · rw [hfirst heq]
      have hmem : key ∈ rest := (List.mem_cons.mp hkey).resolve_left (Ne.symm heq)
      exact ih hmem hrest

theorem isPlain_ne_empty {address : String} (h : isPlain address = true) : address ≠ "" := by
  rintro rfl
  exact absurd h (by decide)

/-- An empty address is not plain, so that the channel's own address is plain if its property
is. -/
theorem callsPlain_eq (c : Channel) :
    c.callsPlain = (firstProperty? c.element c.addressKeys).any isPlain := by
  rw [Channel.callsPlain, Channel.address?]
  cases firstProperty? c.element c.addressKeys with
  | none => rfl
  | some address =>
    by_cases hempty : address = ""
    · subst hempty
      decide
    · have hkept : (some address).filter (· ≠ "") = some address :=
        Option.filter_some_pos (decide_eq_true hempty)
      rw [hkept]

/-- On a channel with its own keys only, the filter judges the address of the channel. -/
theorem judgesPlain_eq_callsPlain (hc : c ∈ channels document f) (hown : f.OwnKeysOnly c) :
    f.judgesPlain c = c.callsPlain := by
  obtain ⟨key, hkey⟩ := exists_addressKeys_eq c
  have hknown : key ∈ f.addressKeys :=
    addressKeys_subset hc (by rw [hkey]; exact List.mem_cons_self)
  have hothers : ∀ k ∈ f.addressKeys, k ≠ key → property? c.element k = none := fun k hk hne =>
    hown k hk (by rw [hkey, List.mem_singleton]; exact hne)
  have hjudged : firstProperty? c.element f.addressKeys = property? c.element key :=
    findSome?_of_only hknown hothers
  have howned : firstProperty? c.element c.addressKeys = property? c.element key := by
    rw [hkey]
    exact findSome?_of_only List.mem_cons_self fun k hk hne =>
      absurd (List.mem_singleton.mp hk) hne
  rw [ChannelFilter.judgesPlain, callsPlain_eq, hjudged, howned]

/-- A filter restricted to plain addresses takes those channels that it takes to have one. -/
theorem channels_plain_eq (document : Element) (f : ChannelFilter) :
    channels document f.withUnencryptedEndpoint = (channels document f).filter f.judgesPlain := by
  cases hplain : f.unencryptedOnly with
  | false =>
    have hconditions : f.withUnencryptedEndpoint.conditions =
        f.conditions ++ [.startsWith f.addressKeys "http://"] := by
      rw [ChannelFilter.conditions, ChannelFilter.conditions, hplain, if_neg Bool.false_ne_true,
        List.append_nil]
      rfl
    rw [channels_of_conditions document hconditions]
    refine List.filter_congr fun c _ => ?_
    exact Bool.and_true _
  | true =>
    -- The filter was for plain addresses before, so it has nothing to drop.
    have hsame : f.withUnencryptedEndpoint = f := by
      rw [ChannelFilter.withUnencryptedEndpoint, ← hplain]
    rw [hsame, eq_comm, List.filter_eq_self]
    intro c hc
    have hcondition : .startsWith f.addressKeys "http://" ∈ f.conditions := by
      rw [ChannelFilter.conditions, if_pos hplain]
      exact List.mem_append_right _ List.mem_cons_self
    exact condition_holds hc hcondition

end FlowLint.Query

import FlowLint.Catalog.Transport
import FlowLint.Proofs.Query.Address

/-!
# Receivers with plain addresses

The rules about plain addresses are meant to object to receiver channels whose address begins
with `http://`, and to no others. They do so for channels that have no property under a key of
another adapter that they look at. A property left over from another adapter is taken for the
address instead: a channel that calls a plain address escapes, and one that calls none is
accused. Only the adapter whose key comes first is never passed over.
-/

namespace FlowLint.Catalog

open FlowLint.Flow (Artifact)
open FlowLint.Markup (Element)
open FlowLint.Query

/-- The channels among which the rules look for plain addresses. -/
def webCalls : ChannelFilter :=
  ChannelFilter.receivers.usingAdapters webReceivers

/-- What the rules about plain addresses find in an artifact. -/
structure PlainFindings (a : Artifact) : Prop where
  endpoints : ∀ i ∈ (inspectEndpoints a).issues, ∃ c ∈ channels a.document webCalls,
    i = plainIssue a c ∧
      (webCalls.OwnKeysOnly c → shownAddress c ≠ "" ∧ isPlain (shownAddress c) = true)
  passwords : ∀ i ∈ (inspectPasswords a).issues, ∃ c ∈ channels a.document webCalls,
    i = cleartextIssue a c ∧
      (webCalls.OwnKeysOnly c → shownAddress c ≠ "" ∧ isPlain (shownAddress c) = true)
  found : ∀ c ∈ channels a.document webCalls, webCalls.OwnKeysOnly c ∨ c.adapter? = some .http →
    c.callsPlain = true → plainIssue a c ∈ (inspectEndpoints a).issues

variable {f : ChannelFilter} {c : Channel}

theorem isPlain_shownAddress (c : Channel) : isPlain (shownAddress c) = c.callsPlain := by
  rw [shownAddress, Channel.callsPlain]
  cases c.address? with
  | none => decide
  | some address => rfl

theorem mem_channels_plainReceivers {document : Element} :
    c ∈ channels document plainReceivers ↔
      c ∈ channels document webCalls ∧ webCalls.judgesPlain c = true := by
  rw [plainReceivers, ← webCalls, channels_plain_eq, List.mem_filter]

/-- On a channel with its own keys only, a finding shows the address it is about. -/
theorem shown_plain {document : Element} (hc : c ∈ channels document plainReceivers)
    (hown : webCalls.OwnKeysOnly c) :
    shownAddress c ≠ "" ∧ isPlain (shownAddress c) = true := by
  obtain ⟨hmem, hplain⟩ := mem_channels_plainReceivers.mp hc
  rw [judgesPlain_eq_callsPlain hmem hown, ← isPlain_shownAddress] at hplain
  exact ⟨isPlain_ne_empty hplain, hplain⟩

/-- The adapter whose key comes first is not passed over. -/
theorem judgesPlain_of_first {key : String} {rest : List String}
    (hf : f.addressKeys = key :: rest) (hc : c.addressKeys = [key]) (hplain : c.callsPlain = true) :
    f.judgesPlain c = true := by
  rw [callsPlain_eq, hc] at hplain
  obtain ⟨address, haddress, hstart⟩ := (Option.any_eq_true _ _).mp hplain
  have hproperty : property? c.element key = some address := by
    rwa [firstProperty?, findSome?_of_only List.mem_cons_self fun k hk hne =>
      absurd (List.mem_singleton.mp hk) hne] at haddress
  have hjudged : firstProperty? c.element f.addressKeys = some address := by
    rw [hf, firstProperty?, List.findSome?_cons, hproperty]
  rw [ChannelFilter.judgesPlain, hjudged]
  exact hstart

theorem judgesPlain_webCalls {document : Element} (hc : c ∈ channels document webCalls)
    (hkeys : webCalls.OwnKeysOnly c ∨ c.adapter? = some .http) (hplain : c.callsPlain = true) :
    webCalls.judgesPlain c = true := by
  rcases hkeys with hown | hhttp
  · rw [judgesPlain_eq_callsPlain hc hown]
    exact hplain
  -- Of the keys looked at, that of the adapter `http` comes first.
  · have hfirst : webCalls.addressKeys = ["httpAddressWithoutQuery", "address"] := by decide
    refine judgesPlain_of_first hfirst ?_ hplain
    rw [Channel.addressKeys, hhttp]
    rfl

/-- What both rules raise is about channels that make web calls, and no plain call is missed. -/
theorem plainFindings (a : Artifact) : PlainFindings a where
  endpoints i hi := by
    obtain ⟨c, hc, rfl⟩ := List.mem_map.mp hi
    exact ⟨c, (mem_channels_plainReceivers.mp hc).1, rfl, shown_plain hc⟩
  passwords i hi := by
    obtain ⟨c, hsends, rfl⟩ := List.mem_map.mp hi
    have hc := (List.mem_filter.mp hsends).1
    exact ⟨c, (mem_channels_plainReceivers.mp hc).1, rfl, shown_plain hc⟩
  found c hc hkeys hplain := by
    have hjudged := judgesPlain_webCalls hc hkeys hplain
    have hmem : c ∈ channels a.document plainReceivers :=
      mem_channels_plainReceivers.mpr ⟨hc, hjudged⟩
    exact List.mem_map_of_mem hmem

/-- Of the channels without properties under keys of other adapters, a filter for plain
addresses finds those whose own address is plain. Of the others it finds those for which the
first property under any of its keys is. -/
theorem channels_withUnencryptedEndpoint (document : Element) (f : ChannelFilter) :
    channels document f.withUnencryptedEndpoint = (channels document f).filter f.judgesPlain ∧
      (channels document f.withUnencryptedEndpoint).filter (f.OwnKeysOnly ·) =
        ((channels document f).filter (f.OwnKeysOnly ·)).filter Channel.callsPlain ∧
      ∀ a : Artifact, PlainFindings a := by
  have hchannels : channels document f.withUnencryptedEndpoint =
      (channels document f).filter f.judgesPlain :=
    channels_plain_eq document f
  refine ⟨hchannels, ?_, plainFindings⟩
  rw [channels_plain_eq, List.filter_filter, List.filter_filter]
  refine List.filter_congr fun c hc => ?_
  by_cases hown : f.OwnKeysOnly c
  · rw [judgesPlain_eq_callsPlain hc hown]
    exact Bool.and_comm _ _
  · simp [hown]

/-! ## Left-over properties -/

/-- A receiver that once had another adapter. -/
def leftOverReceiver (name : String) (properties : List (String × String)) : Element :=
  channelElement name ([("direction", "Receiver"), ("ComponentType", "SOAP")] ++ properties)

/-- A flow of which one channel calls a plain address. -/
def leftOver : Artifact :=
  { tag := { id := "F", name := "F" }
    document := { Element.named "definitions" with
      children := [
        leftOverReceiver "Escaping"
          [("httpAddressWithoutQuery", "https://a.example"), ("address", "http://a.example")],
        leftOverReceiver "Accused"
          [("httpAddressWithoutQuery", "http://b.example"), ("address", "https://b.example")],
        leftOverReceiver "Silent" [("httpAddressWithoutQuery", "http://c.example")]] } }

theorem channels_leftOver :
    ((channels leftOver.document webCalls).filter Channel.callsPlain).map (·.name) =
        ["Escaping"] ∧
      (channels leftOver.document webCalls.withUnencryptedEndpoint).map (·.name) =
        ["Accused", "Silent"] ∧
      (inspectEndpoints leftOver).issues.map (·.message) =
        ["Receiver channel 'Accused' calls unencrypted endpoint 'https://b.example'",
          "Receiver channel 'Silent' calls unencrypted endpoint ''"] := by
  simp only [inspectEndpoints, channels_eq, Element.descendants_eq_beneath]
  decide

end FlowLint.Catalog

import FlowLint.Flow.Vocabulary
import FlowLint.Query.Structural

/-! # Channels

A channel is an element of the document that connects the flow with an endpoint; what it is is said
by properties. Rules ask for channels by direction, adapter and kind of address, and the filter that
says so becomes a structural query.
-/

namespace FlowLint.Query

open FlowLint.Markup (Element)
open FlowLint.Flow (Direction Adapter)

/-- The attribute `name` of an element unless it is blank, else its `id`, else nothing. -/
def displayName (e : Element) : String :=
  (((e.attr? "name").filter (!Text.isBlankText ·)).or (e.attr? "id")).getD ""

/-- An element that is a channel. -/
structure Channel where
  element : Element
deriving Inhabited

namespace Channel

def id? (c : Channel) : Option String :=
  c.element.attr? "id"

def name (c : Channel) : String :=
  displayName c.element

def property? (c : Channel) (key : String) : Option String :=
  Query.property? c.element key

/-- The direction of the channel, if the document gives a known one. -/
def direction? (c : Channel) : Option Direction :=
  c.property? "direction" >>= Direction.ofWord?

/-- The adapter of the channel, if the document gives a known one. -/
def adapter? (c : Channel) : Option Adapter :=
  c.property? "ComponentType" >>= Adapter.ofComponentType?

/-- The properties that may hold the address. -/
def addressKeys (c : Channel) : List String :=
  (c.adapter?.map Adapter.addressKeys).getD ["address"]

/-- The address of the endpoint, unless it is missing or empty. -/
def address? (c : Channel) : Option String :=
  (firstProperty? c.element c.addressKeys).filter (· ≠ "")

def authentication? (c : Channel) : Option String :=
  firstProperty? c.element ["authenticationMethod", "authentication"]

end Channel

/-- Which channels a rule asks for. No adapters means any adapter. -/
structure ChannelFilter where
  direction : Option Direction := none
  adapters : List Adapter := []
  unencryptedOnly : Bool := false
deriving Repr, DecidableEq, Inhabited

namespace ChannelFilter

def senders : ChannelFilter :=
  { direction := some .sender }

def receivers : ChannelFilter :=
  { direction := some .receiver }

/-- The filter with the adapters it is restricted to. -/
def usingAdapters (f : ChannelFilter) (adapters : List Adapter) : ChannelFilter :=
  { f with adapters }

/-- The filter restricted to channels with plain addresses. -/
def withUnencryptedEndpoint (f : ChannelFilter) : ChannelFilter :=
  { f with unencryptedOnly := true }

/-- The properties that may hold an address for one of the adapters, each once. -/
def addressKeys (f : ChannelFilter) : List String :=
  let adapters := if f.adapters.isEmpty then Adapter.all else f.adapters
  (adapters.flatMap Adapter.addressKeys).foldl
    (fun keys key => if keys.contains key then keys else keys ++ [key]) []

def conditions (f : ChannelFilter) : List Condition :=
  (f.direction.map fun d => Condition.oneOf "direction" [d.word]).toList ++
    (if f.adapters.isEmpty then []
      else [.oneOf "ComponentType" (f.adapters.map Adapter.componentType)]) ++
    (if f.unencryptedOnly then [.startsWith f.addressKeys "http://"] else [])

def toQuery (f : ChannelFilter) : Structural :=
  f.conditions.foldl Structural.satisfying (Structural.descendant {} "messageFlow")

end ChannelFilter

/-- The channels of a document that a filter asks for. -/
def channels (document : Element) (f : ChannelFilter) : List Channel :=
  (f.toQuery.select document).map fun n => ⟨n.element⟩

end FlowLint.Query

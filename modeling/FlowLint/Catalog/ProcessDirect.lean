import FlowLint.Query.Channel
import FlowLint.Rule.Basic
import FlowLint.Text.Search

/-! # Direct calls need a server

A receiver channel that calls another flow directly names an address; some sender channel of the run
should serve it, in whatever artifact. Addresses are compared as texts. An address that is put
together while the flow runs is left alone.
-/

namespace FlowLint.Catalog

open FlowLint.Flow (Artifact Tag)
open FlowLint.Query (ChannelFilter)

/-- Whether an address is put together while the flow runs: it holds the beginning of a placeholder. -/
def isDynamic (address : String) : Bool :=
  Text.contains address "$\x7b"

/-- A call of an address from a channel of an artifact. -/
structure DirectCall where
  tag : Tag
  channel : String
  address : String
deriving Repr, DecidableEq, Inhabited

/-- The calls of fixed addresses in an artifact. -/
def directCalls (a : Artifact) : List DirectCall :=
  let receivers := ChannelFilter.receivers.usingAdapters [.processDirect]
  (Query.channels a.document receivers).filterMap fun c =>
    (c.address?.filter (!isDynamic ·)).map fun address => ⟨a.tag, c.name, address⟩

def servedAddresses (a : Artifact) : List String :=
  let senders := ChannelFilter.senders.usingAdapters [.processDirect]
  (Query.channels a.document senders).filterMap (·.address?)

def DirectCall.issue (c : DirectCall) : Issue :=
  .single (.unmatchedProcessDirect c.channel c.address) c.tag
    (s!"ProcessDirect receiver channel '{c.channel}' calls address '{c.address}', which no " ++
      "inspected ProcessDirect sender channel serves")

/-- Objects to each call of an address that no artifact serves, in the order of the artifacts. -/
def finishDirectCalls (artifacts : List Artifact) : Response :=
  let served := artifacts.flatMap servedAddresses
  { issues := ((artifacts.flatMap directCalls).filter (!served.contains ·.address)).map
      DirectCall.issue }

end FlowLint.Catalog

import FlowLint.Query.Channel
import FlowLint.Rule.Basic
import FlowLint.Text.Ascii

/-! # Safety of transport

Three rules about channels: receivers should not call plain addresses, least of all with a password,
and senders that listen for requests should be protected against forged ones.
-/

namespace FlowLint.Catalog

open FlowLint.Flow (Adapter Artifact)
open FlowLint.Query (Channel ChannelFilter)

/-- The adapters with which a receiver calls an address of the web. -/
def webReceivers : List Adapter :=
  [.http, .soap, .idoc, .odata]

/-- Receiver channels that call plain addresses of the web. -/
def plainReceivers : ChannelFilter :=
  (ChannelFilter.receivers.usingAdapters webReceivers).withUnencryptedEndpoint

/-- The address of a channel, empty if it has none. -/
def shownAddress (c : Channel) : String :=
  c.address?.getD ""

def plainIssue (a : Artifact) (c : Channel) : Issue :=
  .single (.unencryptedEndpoint c.name (shownAddress c)) a.tag
    s!"Receiver channel '{c.name}' calls unencrypted endpoint '{shownAddress c}'"

/-- Objects to each receiver channel with a plain address. -/
def inspectEndpoints (a : Artifact) : Response :=
  { issues := (Query.channels a.document plainReceivers).map (plainIssue a) }

/-- Whether a channel sends a name and a password with each request. -/
def sendsPassword (c : Channel) : Bool :=
  c.authentication?.any fun method => Text.sameIgnoringCase method.toList "Basic".toList

def cleartextIssue (a : Artifact) (c : Channel) : Issue :=
  .single (.cleartextBasicAuth c.name (shownAddress c)) a.tag
    (s!"Receiver channel '{c.name}' sends Basic authentication credentials in cleartext to " ++
      s!"'{shownAddress c}'")

/-- Objects to each receiver channel that sends a password to a plain address. -/
def inspectPasswords (a : Artifact) : Response :=
  { issues := ((Query.channels a.document plainReceivers).filter sendsPassword).map
      (cleartextIssue a) }

/-- Whether a channel refuses forged requests. -/
def isProtected (c : Channel) : Bool :=
  c.property? "xsrfProtection" = some "1"

def unprotectedIssue (a : Artifact) (c : Channel) : Issue :=
  .single (.csrfProtectionMissing c.name) a.tag
    s!"HTTPS sender channel '{c.name}' does not have CSRF protection enabled"

/-- Objects to each listening sender channel that accepts forged requests. -/
def inspectProtection (a : Artifact) : Response :=
  let listening := ChannelFilter.senders.usingAdapters [.https]
  { issues := ((Query.channels a.document listening).filter (!isProtected ·)).map
      (unprotectedIssue a) }

end FlowLint.Catalog

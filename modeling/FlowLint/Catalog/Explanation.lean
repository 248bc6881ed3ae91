import FlowLint.Catalog.BuiltIn

/-! # Explanations of the built-in rules

What each rule is for, with an example of its element in a rules file.
-/

namespace FlowLint.Catalog

structure Explanation where
  title : String
  description : String
  sample : String
deriving Repr, DecidableEq, Inhabited

namespace RuleKind

def explanation : RuleKind → Explanation
  | list .receiverAdapter true =>
    ⟨"Allowed receiver adapters",
      "Receiver channels may only use the listed adapter types. Every other receiver adapter type " ++
        "is reported.",
      "<allowed-receiver-adapters>\n  <allow>HTTP</allow>\n  <allow>SOAP</allow>\n" ++
        "</allowed-receiver-adapters>"⟩
  | list .receiverAdapter false =>
    ⟨"Disallowed receiver adapters",
      "Receiver channels must not use the listed adapter types.",
      "<disallowed-receiver-adapters>\n  <disallow>FTP</disallow>\n" ++
        "</disallowed-receiver-adapters>"⟩
  | list .senderAdapter true =>
    ⟨"Allowed sender adapters",
      "Sender channels may only use the listed adapter types. Every other sender adapter type is " ++
        "reported.",
      "<allowed-sender-adapters>\n  <allow>HTTPS</allow>\n</allowed-sender-adapters>"⟩
  | list .senderAdapter false =>
    ⟨"Disallowed sender adapters",
      "Sender channels must not use the listed adapter types.",
      "<disallowed-sender-adapters>\n  <disallow>Mail</disallow>\n</disallowed-sender-adapters>"⟩
  | list .mappingType true =>
    ⟨"Allowed mapping types",
      "Mapping steps may only use the listed mapping types (message-mapping, operation-mapping, " ++
        "xslt).",
      "<allowed-mapping-types>\n  <allow>xslt</allow>\n</allowed-mapping-types>"⟩
  | list .mappingType false =>
    ⟨"Disallowed mapping types",
      "Mapping steps must not use the listed mapping types.",
      "<disallowed-mapping-types>\n  <disallow>operation-mapping</disallow>\n" ++
        "</disallowed-mapping-types>"⟩
  | list .scriptingLanguage true =>
    ⟨"Allowed scripting languages",
      "Script resources may only be written in the listed languages (groovy, javascript).",
      "<allowed-scripting-languages>\n  <allow>groovy</allow>\n</allowed-scripting-languages>"⟩
  | list .scriptingLanguage false =>
    ⟨"Disallowed scripting languages",
      "Script resources must not be written in the listed languages.",
      "<disallowed-scripting-languages>\n  <disallow>javascript</disallow>\n" ++
        "</disallowed-scripting-languages>"⟩
  | description =>
    ⟨"Integration flow description required",
      "Every integration flow must carry a non-blank description.",
      "<iflow-description-required/>"⟩
  | naming =>
    ⟨"Naming conventions",
      "Names of the selected subjects must satisfy a naming scheme built from starts-with, " ++
        "ends-with, equals, regex, not, and, or.",
      "<naming-conventions>\n  <scheme><starts-with>Z_</starts-with></scheme>\n" ++
        "  <message>Integration flow names must start with Z_</message>\n" ++
        "  <apply-to>iflow.name</apply-to>\n</naming-conventions>"⟩
  | endpoints =>
    ⟨"Unencrypted endpoints not allowed",
      "Receiver channels (HTTP, SOAP, IDoc, OData) must not call plain http:// endpoints.",
      "<unencrypted-endpoints-not-allowed/>"⟩
  | passwords =>
    ⟨"Cleartext Basic authentication not allowed",
      "Receiver channels must not send Basic authentication credentials over plain http://.",
      "<cleartext-basic-auth-not-allowed/>"⟩
  | protection =>
    ⟨"CSRF protection required",
      "HTTPS sender channels must have CSRF protection enabled.",
      "<csrf-protection-required/>"⟩
  | duplicates =>
    ⟨"Duplicate resources not allowed",
      "Resources with byte-identical content, in the same or different artifacts, are reported as " ++
        "one group. Resource types default to groovy-script, javascript, message-mapping, " ++
        "operation-mapping and xslt.",
      "<duplicate-resources-not-allowed>\n  <resource-type>groovy-script</resource-type>\n" ++
        "</duplicate-resources-not-allowed>"⟩
  | directCalls =>
    ⟨"Matching ProcessDirect channels required",
      "Every ProcessDirect receiver address must be served by a ProcessDirect sender channel in " ++
        "one of the inspected artifacts. Dynamic addresses are not checked.",
      "<matching-process-direct-channels-required/>"⟩

/-- The explanation as shown in a terminal, the heading underlined. -/
def explain (k : RuleKind) : String :=
  let x := k.explanation
  let heading := s!"{x.title} (<{k.element}>)"
  let underline := String.ofList
    (List.replicate (x.title.utf8ByteSize + k.element.utf8ByteSize + 5) '=')
  s!"{heading}\n{underline}\n\n{x.description}\n\nExample\n-------\n\n```xml\n{x.sample}\n```\n"

end RuleKind

/-- What is shown for an element that is no rule's. -/
def explainUnknown (name : String) : String :=
  s!"Unknown rule element: {name}\n\nAvailable rule elements:\n" ++
    String.join (RuleKind.all.map fun k => s!"  - {k.element}\n")

end FlowLint.Catalog

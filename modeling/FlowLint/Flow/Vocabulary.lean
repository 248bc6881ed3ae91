/-! # Words of integration flows

Directions, adapters, mapping types and scripting languages. Each value has a token, the word used in
rules files and reports, and where it is stored in flow documents the word used there, which may
differ.
-/

namespace FlowLint.Flow

/-- The side of a channel on which the flow stands. -/
inductive Direction
  | sender
  | receiver
deriving Repr, DecidableEq, Inhabited

namespace Direction

def word : Direction → String
  | sender => "Sender"
  | receiver => "Receiver"

def ofWord? (s : String) : Option Direction :=
  [sender, receiver].find? (·.word = s)

end Direction

/-- The kind of endpoint that a channel connects. -/
inductive Adapter
  | amqp | ariba | as2 | as4 | elster | facebook | ftp | http | https | idoc | jdbc | jms | kafka
  | ldap | mail | odata | openConnectors | processDirect | rfc | sftp | soap | successFactors
  | twitter | xi
deriving Repr, DecidableEq, Inhabited

namespace Adapter

/-- Every adapter, in the order of reports. -/
def all : List Adapter :=
  [amqp, ariba, as2, as4, elster, facebook, ftp, http, https, idoc, jdbc, jms, kafka, ldap, mail,
    odata, openConnectors, processDirect, rfc, sftp, soap, successFactors, twitter, xi]

/-- The adapters that a receiver channel can use: all but the one that only listens. -/
def receivers : List Adapter :=
  all.filter (· ≠ https)

def senders : List Adapter :=
  [amqp, ariba, as2, as4, ftp, https, idoc, jms, kafka, mail, odata, processDirect, sftp, soap,
    successFactors, xi]

/-- The word in rules files. -/
def token : Adapter → String
  | amqp => "AMQP"
  | ariba => "Ariba"
  | as2 => "AS2"
  | as4 => "AS4"
  | elster => "ELSTER"
  | facebook => "Facebook"
  | ftp => "FTP"
  | http => "HTTP"
  | https => "HTTPS"
  | idoc => "IDoc"
  | jdbc => "JDBC"
  | jms => "JMS"
  | kafka => "Kafka"
  | ldap => "LDAP"
  | mail => "Mail"
  | odata => "OData"
  | openConnectors => "OpenConnectors"
  | processDirect => "ProcessDirect"
  | rfc => "RFC"
  | sftp => "SFTP"
  | soap => "SOAP"
  | successFactors => "SuccessFactors"
  | twitter => "Twitter"
  | xi => "XI"

/-- The word in documents, which is the token but for two adapters. -/
def componentType : Adapter → String
  | idoc => "IDOC"
  | odata => "HCIOData"
  | a => a.token

/-- The adapter that a word in a rules file means. -/
def ofToken? (s : String) : Option Adapter :=
  all.find? (·.token = s)

/-- The adapter that a word in a document means. -/
def ofComponentType? (s : String) : Option Adapter :=
  all.find? (·.componentType = s)

/-- The properties that may hold the address of the endpoint, the first one present counting. -/
def addressKeys : Adapter → List String
  | http => ["httpAddressWithoutQuery"]
  | https => ["urlPath"]
  | ftp | sftp => ["host"]
  | _ => ["address"]

theorem mem_all (a : Adapter) : a ∈ all := by
  cases a <;> decide

@[simp] theorem ofToken?_token (a : Adapter) : ofToken? a.token = some a := by
  cases a <;> decide

@[simp] theorem ofComponentType?_componentType (a : Adapter) :
    ofComponentType? a.componentType = some a := by
  cases a <;> decide

end Adapter

/-- The kind of a mapping step. -/
inductive MappingType
  | message
  | operation
  | xslt
deriving Repr, DecidableEq, Inhabited

namespace MappingType

/-- Every mapping type, in the order of reports. -/
def all : List MappingType :=
  [message, operation, xslt]

/-- The word in rules files. -/
def token : MappingType → String
  | message => "message-mapping"
  | operation => "operation-mapping"
  | xslt => "xslt"

def subActivityType : MappingType → String
  | message => "MessageMapping"
  | operation => "OperationMapping"
  | xslt => "XSLTMapping"

def ofToken? (s : String) : Option MappingType :=
  all.find? (·.token = s)

def ofSubActivityType? (s : String) : Option MappingType :=
  all.find? (·.subActivityType = s)

end MappingType

inductive ScriptingLanguage
  | groovy
  | javascript
deriving Repr, DecidableEq, Inhabited

namespace ScriptingLanguage

/-- Every scripting language, in the order of reports. -/
def all : List ScriptingLanguage :=
  [groovy, javascript]

/-- The word in rules files. -/
def token : ScriptingLanguage → String
  | groovy => "groovy"
  | javascript => "javascript"

end ScriptingLanguage

end FlowLint.Flow

import FlowLint.Markup.Element
import FlowLint.Pattern.Matcher
import FlowLint.Pattern.Reader
import FlowLint.Text.Lowercase

/-! # Naming schemes

A scheme is a tree of tests on names: how they start or end, what they equal, which pattern they
match as a whole, and combinations of these. A rules file writes it as a tree of elements.
-/

namespace FlowLint.Naming

open FlowLint.Markup (Element)

/-- A test on names. The text of a pattern is kept beside the pattern that was read from it. -/
inductive Scheme
  | startsWith (lead : String)
  | endsWith (tail : String)
  | equals (value : String) (ignoringCase : Bool)
  | regex (text : String) (pattern : Pattern.Regex)
  | not (operand : Scheme)
  | and (operands : List Scheme)
  | or (operands : List Scheme)
deriving Repr, Inhabited

/-- The two combinations that take any positive number of operands. -/
inductive Combination
  | and
  | or
deriving Repr, DecidableEq, Inhabited

/-- The name of a combination in rules files. -/
def Combination.name : Combination → String
  | and => "and"
  | or => "or"

/-- Why elements are no naming scheme. -/
inductive Error
  | badPattern (text : String) (error : Pattern.Error)
  | badIgnoreCase (value : String)
  | notOneOperand (found : Nat)
  | noOperand (combination : Combination)
  | unknownNode (name : String) (uri : Option String)
  | notOneScheme (found : Nat)
deriving Repr, DecidableEq, Inhabited

def Error.message : Error → String
  | badPattern text e => s!"invalid regex '{text}': regex parse error: {e.message}"
  | badIgnoreCase value => s!"ignore-case must be true or false, got '{value}'"
  | notOneOperand n => s!"<not> needs exactly one operand, got {n}"
  | noOperand c => s!"<{c.name}> needs at least one operand"
  | unknownNode name none => s!"unknown naming scheme node <{name}>"
  | unknownNode name (some uri) => s!"unknown naming scheme node <{name}> in namespace '{uri}'"
  | notOneScheme n => s!"<scheme> must contain exactly one scheme node, got {n}"

namespace Scheme

/-- The text whose pattern is searched for: that of a scheme, put between the two ends of a name. -/
def anchored (text : String) : String :=
  "^(?:" ++ text ++ ")$"

/-- A scheme that names match as a whole. -/
def ofPattern (text : String) : Except Error Scheme :=
  match Pattern.parse (anchored text) with
  | .ok r => .ok (.regex text r)
  | .error e => .error (.badPattern text e)

/-- A combination of schemes, of which there must be one at least. -/
def combine (c : Combination) (operands : List Scheme) : Except Error Scheme :=
  if operands.isEmpty then .error (.noOperand c)
  else
    match c with
    | .and => .ok (.and operands)
    | .or => .ok (.or operands)

mutual
def test : Scheme → String → Bool
  | startsWith lead, name => lead.toList.isPrefixOf name.toList
  | endsWith tail, name => tail.toList.isSuffixOf name.toList
  | equals value ignoringCase, name =>
    if ignoringCase then Text.lowercase value == Text.lowercase name else value == name
  | regex _ r, name => r.search name
  | not s, name => !s.test name
  | and operands, name => testAll operands name
  | or operands, name => testAny operands name
/-- Whether a name passes all of some tests. -/
def testAll : List Scheme → String → Bool
  | [], _ => true
  | s :: rest, name => s.test name && testAll rest name
/-- Whether a name passes any of some tests. -/
def testAny : List Scheme → String → Bool
  | [], _ => false
  | s :: rest, name => s.test name || testAny rest name
end

mutual
def display : Scheme → String
  | startsWith lead => s!"starts with '{lead}'"
  | endsWith tail => s!"ends with '{tail}'"
  | equals value false => s!"equals '{value}'"
  | equals value true => s!"equals '{value}' (ignoring case)"
  | regex text _ => s!"matches /{text}/"
  | not s => "not (" ++ s.display ++ ")"
  | and operands => "(" ++ displayAll " and " operands ++ ")"
  | or operands => "(" ++ displayAll " or " operands ++ ")"
/-- Schemes with a word between them. -/
def displayAll (between : String) : List Scheme → String
  | [] => ""
  | [s] => s.display
  | s :: rest => s.display ++ between ++ displayAll between rest
end

/-- The value of a yes-or-no attribute; blanks around it say nothing. -/
def yesOrNo? (value : String) : Option Bool :=
  let word := Text.trim value
  if word = "true" ∨ word = "1" then some true
  else if word = "false" ∨ word = "0" then some false
  else none

/-- A scheme that compares whole names. -/
def ofEquals (e : Element) : Except Error Scheme :=
  match e.attr? "ignore-case" with
  | none => .ok (.equals e.text false)
  | some value =>
    match yesOrNo? value with
    | some b => .ok (.equals e.text b)
    | none => .error (.badIgnoreCase value)

mutual
/-- The scheme that an element and those below it write. Operands are read before they are counted,
and only then put together. -/
def ofElement : Element → Except Error Scheme
  | ⟨uri, name, attributes, children, content⟩ =>
    let e : Element := ⟨uri, name, attributes, children, content⟩
    if uri.isSome then .error (.unknownNode name uri)
    else if name = "starts-with" then .ok (.startsWith e.text)
    else if name = "ends-with" then .ok (.endsWith e.text)
    else if name = "equals" then ofEquals e
    else if name = "regex" then ofPattern e.text
    else if name = "not" then
      match children with
      | [operand] => (ofElement operand).map .not
      | others => .error (.notOneOperand others.length)
    else if name = "and" then ofElements children >>= combine .and
    else if name = "or" then ofElements children >>= combine .or
    else .error (.unknownNode name none)
/-- The schemes that elements write, up to the first that writes none. -/
def ofElements : List Element → Except Error (List Scheme)
  | [] => .ok []
  | e :: rest =>
    match ofElement e with
    | .error err => .error err
    | .ok s => (ofElements rest).map (s :: ·)
end

end Scheme

end FlowLint.Naming

import FlowLint.Markup.Document
import FlowLint.Rule.Factory
import FlowLint.Rule.Sink
import FlowLint.RulesFile.Schema
import FlowLint.RulesFile.Source

/-! # Loading rules files

A rules file is loaded together with all it imports, imported files first and each file once. A file
that is imported while it is itself being loaded lies on a cycle and is refused; a file that has been
loaded before contributes nothing more. What has been loaded is checked as a whole at the end: ids are
unique, and there is at least one rule.
-/

namespace FlowLint

open FlowLint.Markup (Element)

/-- Rules with the exemptions from them. -/
structure RulesFile where
  rules : List Rule := []
  exemptions : List Exemption := []

namespace RulesFile

/-- What two files hold together. -/
def merge (a b : RulesFile) : RulesFile :=
  ⟨a.rules ++ b.rules, addExemptions a.exemptions b.exemptions⟩

/-- The document of a file, which has the shape of a rules file. -/
def document (s : Source) (p : Path) : Except ConfigurationError Element := do
  let text ← s.text p
  let root ← (Markup.parse text).mapError (.markup p)
  (check root).mapError (.schema p)
  return root

/-- The references to imported files, as seen from the directory of the file. -/
def imports (p : Path) (root : Element) : List Path :=
  match root.child? "imports" with
  | none => []
  | some e => (e.childrenNamed "import").map fun i => (p.parent?.getD ⟨""⟩).join ⟨i.text⟩

/-- The rule of an element with the id that the element gives it. -/
def buildRule (g : Registry) (e : Element) : Except ConfigurationError Rule := do
  let rule ← g.create e
  match e.attr? "id" with
  | none => return rule
  | some id => rule.assignId id

/-- The rules of elements, up to the first that cannot be built. -/
def buildRules (g : Registry) : List Element → Except ConfigurationError (List Rule)
  | [] => .ok []
  | e :: rest => do
    let rule ← buildRule g e
    let others ← buildRules g rest
    return rule :: others

def ruleElements (root : Element) : List Element :=
  ((root.child? "rules").map Element.children).getD []

/-- The exemptions that an element grants, one for each artifact. -/
def exemptionsOf (e : Element) : List Exemption :=
  let rule := ((e.child? "rule-id").map Element.text).getD ""
  (e.childrenNamed "artifact-id").map fun a => ⟨rule, a.text⟩

def ownExemptions (root : Element) : List Exemption :=
  match root.child? "exemptions" with
  | none => []
  | some e => (e.childrenNamed "exemption").flatMap exemptionsOf

/-- What a file holds by itself. -/
def own (g : Registry) (root : Element) : Except ConfigurationError RulesFile :=
  (buildRules g (ruleElements root)).map fun rules => ⟨rules, addExemptions [] (ownExemptions root)⟩

/-- What has been loaded, and all files that have been loaded so far. -/
structure Progress where
  file : RulesFile := {}
  visited : List Path

/-- The paths that are not being loaded. -/
def idle (s : Source) (ancestors : List Path) : List Path :=
  s.paths.filter (!ancestors.contains ·)

theorem length_idle_lt (s : Source) (ancestors : List Path) (p : Path) (hp : p ∈ s.paths)
    (ha : p ∉ ancestors) : (idle s (p :: ancestors)).length < (idle s ancestors).length := by
  have hsub : idle s (p :: ancestors) = (idle s ancestors).filter (· ≠ p) := by
    simp only [idle, List.filter_filter]
    apply List.filter_congr
    intro q _
    by_cases hq : q = p <;> simp [hq]
  rw [hsub]
  apply List.length_filter_lt_length_iff_exists.2
  exact ⟨p, by simp [idle, hp, ha], by simp⟩

mutual
/-- Loads a file and all it imports. The files that are being loaded are the `ancestors`. -/
def loadFile (s : Source) (g : Registry) (ancestors visited : List Path) (p : Path)
    (_hp : p ∈ s.paths) : Except ConfigurationError Progress :=
  if _ha : p ∈ ancestors then .error (.circularImport p)
  else if p ∈ visited then .ok { visited }
  else
    match document s p with
    | .error e => .error e
    | .ok root =>
      match loadImports s g (p :: ancestors) (p :: visited) (imports p root) with
      | .error e => .error e
      | .ok imported =>
        match own g root with
        | .error e => .error e
        | .ok file => .ok { imported with file := imported.file.merge file }
termination_by ((idle s ancestors).length, 0)
decreasing_by exact Prod.Lex.left _ _ (length_idle_lt s ancestors p _hp _ha)
/-- Loads the files that are referred to, in order. -/
def loadImports (s : Source) (g : Registry) (ancestors visited : List Path) :
    List Path → Except ConfigurationError Progress
  | [] => .ok { visited }
  | reference :: rest =>
    match hl : s.locate reference with
    | .error e => .error e
    | .ok p =>
      match loadFile s g ancestors visited p (s.mem_paths_of_locate hl) with
      | .error e => .error e
      | .ok first =>
        match loadImports s g ancestors first.visited rest with
        | .error e => .error e
        | .ok others => .ok { others with file := first.file.merge others.file }
termination_by references => ((idle s ancestors).length, references.length + 1)
end

/-- The ids that several rules carry, in order. -/
def duplicateIds (rules : List Rule) : List String :=
  let ids := rules.filterMap (·.id)
  Order.ofList (ids.filter fun id => 1 < ids.count id)

/-- Checks what has been loaded as a whole. -/
def checkLoaded (file : RulesFile) : Except ConfigurationError RulesFile :=
  if duplicateIds file.rules ≠ [] then .error (.duplicateIds (duplicateIds file.rules))
  else if file.rules.isEmpty then .error .noRules
  else .ok file

/-- Loads a rules file with all it imports. -/
def load (s : Source) (g : Registry) (entry : Path) : Except ConfigurationError RulesFile :=
  match hl : s.locate entry with
  | .error e => .error e
  | .ok p =>
    match loadFile s g [] [] p (s.mem_paths_of_locate hl) with
    | .error e => .error e
    | .ok loaded => checkLoaded loaded.file

end RulesFile

end FlowLint

import FlowLint.Proofs.Bundle.Spelling

/-!
# The document of a draft

The document of a draft is read without failure. Its tree has an element for each channel, mapping
step and property, in the order of the draft and with the texts of the draft as they are; the
blanks between the lines are the text of the elements around them.
-/

namespace FlowLint.Bundle

open FlowLint.Markup

/-! ## Trees -/

def modelNamespace : String := "http://www.omg.org/spec/BPMN/20100524/MODEL"

def extensionNamespace : String := "http:///com.sap.ifl.model/Ifl.xsd"

/-- The namespaces that the outermost element of the document binds. -/
def declarations : List Attribute :=
  [⟨"xmlns:bpmn2", modelNamespace⟩, ⟨"xmlns:ifl", extensionNamespace⟩]

/-- The scope inside the outermost element. -/
def documentScope : Scope :=
  [⟨"ifl".toList, extensionNamespace.toList⟩, ⟨"bpmn2".toList, modelNamespace.toList⟩] ++
    Scope.outermost

/-- The blanks around items that stand on lines of their own. -/
def gaps {α : Type} (indent : String) (items : List α) : String :=
  String.join (items.map fun _ => indent ++ "\n")

def Property.tree (p : Property) : Element :=
  ⟨some extensionNamespace, "property", [],
    [⟨none, "key", [], [], p.key⟩, ⟨none, "value", [], [], p.value⟩], ""⟩

def propertiesTree (ps : List Property) : Element :=
  ⟨some modelNamespace, "extensionElements", [], ps.map Property.tree,
    "\n" ++ gaps "        " ps ++ "      "⟩

/-- An element with properties, between lines. -/
def itemTree (name id shown : String) (ps : List Property) : Element :=
  ⟨some modelNamespace, name, [⟨"id", id⟩, ⟨"name", shown⟩], [propertiesTree ps], "\n      \n    "⟩

def DraftChannel.tree (c : DraftChannel) : Element :=
  itemTree "messageFlow" c.id c.name c.allProperties

def DraftStep.tree (s : DraftStep) : Element :=
  itemTree "callActivity" s.id s.id s.properties

def documentationTree (text : String) : Element :=
  ⟨some modelNamespace, "documentation", [], [], text⟩

namespace Draft

def collaborationTree (d : Draft) : Element :=
  ⟨some modelNamespace, "collaboration", [⟨"id", "Collaboration_1"⟩],
    d.description.toList.map documentationTree ++ d.channels.map DraftChannel.tree,
    "\n" ++ gaps "    " d.description.toList ++ gaps "    " d.channels ++ "  "⟩

def processTree (d : Draft) : Element :=
  ⟨some modelNamespace, "process", [⟨"id", "Process_1"⟩], d.mappingSteps.map DraftStep.tree,
    "\n" ++ gaps "    " d.mappingSteps ++ "  "⟩

def tree (d : Draft) : Element :=
  ⟨some modelNamespace, "definitions", [], [d.collaborationTree, d.processTree], "\n  \n  \n"⟩

end Draft

/-! ## Lines -/

/-- The characters of lines. -/
def block (lines : List String) : List Char :=
  (String.join (lines.map (· ++ "\n"))).toList

/-- The line up to and with a start tag. -/
def opening (indent name : String) (attributes : List Attribute) : String :=
  indent ++ String.ofList ('<' :: (tagChars name attributes ++ ['>']))

/-- The line up to and with an end tag. -/
def closing (indent name : String) : String :=
  indent ++ "</" ++ name ++ ">"

@[simp] theorem block_cons (line : String) (lines : List String) :
    block (line :: lines) = line.toList ++ ("\n".toList ++ block lines) := by
  rw [block, block, List.map_cons, String.join_cons, String.toList_append, String.toList_append,
    List.append_assoc]

@[simp] theorem block_append (xs ys : List String) : block (xs ++ ys) = block xs ++ block ys := by
  rw [block, List.map_append, String.join_append, String.toList_append, block, block]

theorem block_flatMap {α : Type} (lines : α → List String) (items : List α) :
    block (items.flatMap lines) = items.flatMap fun item => block (lines item) := by
  induction items with
  | nil => rfl
  | cons item rest ih => rw [List.flatMap_cons, block_append, ih, List.flatMap_cons]

theorem block_map {α : Type} (line : α → String) (items : List α) :
    block (items.map line) = items.flatMap fun item => block [line item] := by
  rw [List.map_eq_flatMap, block_flatMap]

@[simp] theorem toList_opening (indent name : String) (attributes : List Attribute) :
    (opening indent name attributes).toList =
      indent.toList ++ '<' :: (tagChars name attributes ++ ['>']) := by
  rw [opening, String.toList_append, String.toList_ofList]

@[simp] theorem toList_closing (indent name : String) :
    (closing indent name).toList = indent.toList ++ '<' :: '/' :: (name.toList ++ ['>']) := by
  have hopen : "</".toList = ['<', '/'] := rfl
  have hclose : ">".toList = ['>'] := rfl
  simp only [closing, String.toList_append, hopen, hclose, List.append_assoc, List.cons_append,
    List.nil_append]

/-- Tags on lines of their own. -/
theorem block_element (indent name : String) (attributes : List Attribute) (lines : List String) :
    block (opening indent name attributes :: (lines ++ [closing indent name])) =
      indent.toList ++ (elementChars name attributes
        ("\n".toList ++ (block lines ++ indent.toList)) ++ "\n".toList) := by
  have hnone : block [] = [] := rfl
  rw [block_cons, block_append, block_cons, hnone, toList_opening, toList_closing, elementChars]
  simp only [List.append_assoc, List.cons_append, List.nil_append, List.append_nil]

/-- Tags on one line. -/
@[simp]
theorem toList_element (indent name : String) (attributes : List Attribute) (body : String) :
    (opening indent name attributes ++ body ++ closing "" name).toList =
      indent.toList ++ elementChars name attributes body.toList := by
  have hnone : "".toList = [] := rfl
  rw [String.toList_append, String.toList_append, toList_opening, toList_closing, elementChars,
    hnone]
  simp only [List.append_assoc, List.cons_append, List.nil_append]

/-! ## Spelling -/

/-- Blanks as they stand between lines. -/
def IsGap (text : String) : Prop :=
  escape text = text

instance (text : String) : Decidable (IsGap text) :=
  inferInstanceAs (Decidable (escape text = text))

/-- What a start tag inside the outermost element says, if it declares nothing. -/
structure IsInner (name : String) (keys : List String) (uri : Option String) (plain : String) :
    Prop where
  isTag : IsTagOf name keys
  plainKeys : ∀ key ∈ keys, isDeclaration key.toList = false ∧ localName key.toList = key
  resolves : documentScope.resolve name.toList = .ok uri
  isLocal : localName name.toList = plain

/-- The prefix of the model resolves to its namespace everywhere in a document. -/
theorem resolve_model {name : List Char} (h : (splitQualifier name).1 = some "bpmn2".toList) :
    documentScope.resolve name = .ok (some modelNamespace) := by
  rw [Scope.resolve, h]
  rfl

theorem resolve_extension {name : List Char} (h : (splitQualifier name).1 = some "ifl".toList) :
    documentScope.resolve name = .ok (some extensionNamespace) := by
  rw [Scope.resolve, h]
  rfl

theorem resolve_unqualified {name : List Char} (h : (splitQualifier name).1 = none) :
    documentScope.resolve name = .ok none := by
  rw [Scope.resolve, h]
  rfl

section Spelling

variable {scope : Scope} {body : List Char} {children : List Element} {content indent : String}
  {name plain : String} {attributes : List Attribute} {uri : Option String} {lines : List String}

/-- Blanks between elements are text of the element around them. -/
theorem Spelled.gap {text : String} (h : IsGap text) : Spelled scope text.toList [] text := by
  have hrun : Spelled scope ((escape text).toList ++ []) [] (text ++ "") := .run text .nothing
  rw [h, List.append_nil, String.append_empty] at hrun
  exact hrun

theorem Spelled.escaped (text : String) : Spelled scope (escape text).toList [] text := by
  have hrun : Spelled scope ((escape text).toList ++ []) [] (text ++ "") := .run text .nothing
  rw [List.append_nil, String.append_empty] at hrun
  exact hrun

/-- What holds of each item of a list holds of the whole list, with a gap after each item. -/
theorem Spelled.all {α : Type} {chars : α → List Char} {tree : α → Element}
    (h : ∀ item, Spelled scope (chars item) [tree item] (indent ++ "\n")) (items : List α) :
    Spelled scope (items.flatMap chars) (items.map tree) (gaps indent items) := by
  induction items with
  | nil => exact .nothing
  | cons item rest ih =>
    have hgaps : gaps indent (item :: rest) = indent ++ "\n" ++ gaps indent rest :=
      String.join_cons
    rw [hgaps]
    exact (h item).append ih

theorem localAttributes_eq_self
    (h : ∀ key ∈ attributes.map (·.name),
      isDeclaration key.toList = false ∧ localName key.toList = key) :
    localAttributes attributes = attributes := by
  induction attributes with
  | nil => rfl
  | cons a rest ih =>
    obtain ⟨⟨hplain, hlocal⟩, hrest⟩ := List.forall_mem_cons.mp h
    have hfirst : localAttributes (a :: rest) = ⟨localName a.name.toList, a.value⟩ ::
        localAttributes rest := by
      rw [localAttributes, List.filter_cons_of_pos (by simpa using hplain), List.map_cons]
      rfl
    dsimp only at hlocal
    rw [hfirst, ih hrest, hlocal]

/-- A written element with what is written inside it. -/
theorem Spelled.inside (h : IsInner name (attributes.map (·.name)) uri plain)
    (hbody : Spelled documentScope body children content) :
    Spelled documentScope (elementChars name attributes body)
      [⟨uri, plain, attributes, children, content⟩] "" := by
  obtain ⟨htag, hkeys, hresolves, hlocal⟩ := h
  have hstarts := starts_tagChars htag
    (enter_itemsFrom (fun key hkey => (hkeys key hkey).1) documentScope) hresolves
  rw [hlocal, localAttributes_eq_self hkeys] at hstarts
  rw [← List.append_nil (elementChars name attributes body)]
  exact .element htag hstarts hbody .nothing

/-- An element whose tags are lines of their own: the blanks of its lines are its text. -/
theorem spelled_lines (h : IsInner name (attributes.map (·.name)) uri plain) (hgap : IsGap indent)
    (hbody : Spelled documentScope (block lines) children content) :
    Spelled documentScope (block (opening indent name attributes :: (lines ++ [closing indent name])))
      [⟨uri, plain, attributes, children, "\n" ++ content ++ indent⟩] (indent ++ "\n") := by
  have hnewline : IsGap "\n" := by decide
  have hinside : Spelled documentScope ("\n".toList ++ (block lines ++ indent.toList)) children
      ("\n" ++ content ++ indent) := by
    have hlines := (Spelled.gap hnewline).append (hbody.append (.gap hgap))
    rw [List.nil_append, List.append_nil, ← String.append_assoc] at hlines
    exact hlines
  have hwhole := (Spelled.gap hgap).append ((Spelled.inside h hinside).append (.gap hnewline))
  rw [String.empty_append] at hwhole
  rw [block_element]
  exact hwhole

/-- An element on one line. -/
theorem spelled_line {text : String} (h : IsInner name (attributes.map (·.name)) uri plain)
    (hgap : IsGap indent) (hbody : Spelled documentScope text.toList children content) :
    Spelled documentScope (block [opening indent name attributes ++ text ++ closing "" name])
      [⟨uri, plain, attributes, children, content⟩] (indent ++ "\n") := by
  have hnewline : IsGap "\n" := by decide
  have hwhole := (Spelled.gap hgap).append ((Spelled.inside h hbody).append (.gap hnewline))
  rw [String.empty_append, ← List.append_assoc] at hwhole
  have hnone : block [] = [] := rfl
  rw [block_cons, toList_element, hnone, List.append_nil]
  exact hwhole

end Spelling

/-! ## The lines of a draft -/

theorem Property.line_eq (p : Property) :
    p.line = opening "        " "ifl:property" [] ++
      ((opening "" "key" [] ++ escape p.key ++ closing "" "key") ++
        (opening "" "value" [] ++ escape p.value ++ closing "" "value")) ++
      closing "" "ifl:property" := by
  have hline : p.line = opening "        " "ifl:property" [] ++ opening "" "key" [] ++
      escape p.key ++ (closing "" "key" ++ opening "" "value" []) ++ escape p.value ++
      (closing "" "value" ++ closing "" "ifl:property") := rfl
  rw [hline]
  simp only [String.append_assoc]

theorem spelled_property (p : Property) :
    Spelled documentScope (block [p.line]) [p.tree] ("        " ++ "\n") := by
  have hkey : IsInner "key" [] none "key" :=
    ⟨by decide, nofun, resolve_unqualified rfl, rfl⟩
  have hvalue : IsInner "value" [] none "value" :=
    ⟨by decide, nofun, resolve_unqualified rfl, rfl⟩
  have hproperty : IsInner "ifl:property" [] (some extensionNamespace) "property" :=
    ⟨by decide, nofun, resolve_extension rfl, rfl⟩
  have hbody : Spelled documentScope
      ((opening "" "key" [] ++ escape p.key ++ closing "" "key") ++
        (opening "" "value" [] ++ escape p.value ++ closing "" "value")).toList
      [⟨none, "key", [], [], p.key⟩, ⟨none, "value", [], [], p.value⟩] "" := by
    rw [String.toList_append, toList_element, toList_element]
    have hspelled : Spelled documentScope (elementChars "key" [] (escape p.key).toList)
        [⟨none, "key", [], [], p.key⟩] "" :=
      Spelled.inside hkey (.escaped p.key)
    have hinside : Spelled documentScope (elementChars "value" [] (escape p.value).toList)
        [⟨none, "value", [], [], p.value⟩] "" :=
      Spelled.inside hvalue (.escaped p.value)
    exact hspelled.append hinside
  rw [p.line_eq]
  exact spelled_line hproperty (by decide) hbody

theorem propertyLines_eq (ps : List Property) :
    propertyLines ps = opening "      " "bpmn2:extensionElements" [] ::
      (ps.map Property.line ++ [closing "      " "bpmn2:extensionElements"]) := by
  have hopening : opening "      " "bpmn2:extensionElements" [] =
      "      <bpmn2:extensionElements>" := rfl
  have hclosing : closing "      " "bpmn2:extensionElements" =
      "      </bpmn2:extensionElements>" := rfl
  rw [hopening, hclosing]
  rfl

theorem spelled_properties (ps : List Property) :
    Spelled documentScope (block (propertyLines ps)) [propertiesTree ps] ("      " ++ "\n") := by
  have hinner : IsInner "bpmn2:extensionElements" [] (some modelNamespace) "extensionElements" :=
    ⟨by decide, nofun, resolve_model rfl, rfl⟩
  have hbody : Spelled documentScope (block (ps.map Property.line)) (ps.map Property.tree)
      (gaps "        " ps) := by
    rw [block_map]
    exact .all spelled_property ps
  rw [propertyLines_eq]
  exact spelled_lines hinner (by decide) hbody

theorem spelled_item {name plain : String} (id shown : String) (ps : List Property)
    (h : IsInner name ["id", "name"] (some modelNamespace) plain) :
    Spelled documentScope
      (block (opening "    " name [⟨"id", id⟩, ⟨"name", shown⟩] ::
        (propertyLines ps ++ [closing "    " name])))
      [itemTree plain id shown ps] ("    " ++ "\n") := by
  have hcontent : "\n" ++ ("      " ++ "\n") ++ "    " = "\n      \n    " := by decide
  rw [itemTree, ← hcontent]
  exact spelled_lines h (by decide) (spelled_properties ps)

theorem opening_item (before name id shown : String)
    (h : before = "    <" ++ name ++ " id=\"") :
    before ++ escape id ++ "\" name=\"" ++ escape shown ++ "\">" =
      opening "    " name [⟨"id", id⟩, ⟨"name", shown⟩] := by
  apply String.toList_inj.mp
  rw [h, toList_opening]
  simp [tagChars, attributeChars]

theorem DraftChannel.lines_eq (c : DraftChannel) :
    c.lines = opening "    " "bpmn2:messageFlow" [⟨"id", c.id⟩, ⟨"name", c.name⟩] ::
      (propertyLines c.allProperties ++ [closing "    " "bpmn2:messageFlow"]) := by
  have hclosing : closing "    " "bpmn2:messageFlow" = "    </bpmn2:messageFlow>" := rfl
  rw [hclosing, ← opening_item "    <bpmn2:messageFlow id=\"" _ _ _ (by rfl)]
  rfl

theorem DraftStep.lines_eq (s : DraftStep) :
    s.lines = opening "    " "bpmn2:callActivity" [⟨"id", s.id⟩, ⟨"name", s.id⟩] ::
      (propertyLines s.properties ++ [closing "    " "bpmn2:callActivity"]) := by
  have hclosing : closing "    " "bpmn2:callActivity" = "    </bpmn2:callActivity>" := rfl
  rw [hclosing, ← opening_item "    <bpmn2:callActivity id=\"" _ _ _ (by rfl)]
  rfl

theorem spelled_channel (c : DraftChannel) :
    Spelled documentScope (block c.lines) [c.tree] ("    " ++ "\n") := by
  have hinner : IsInner "bpmn2:messageFlow" ["id", "name"] (some modelNamespace) "messageFlow" :=
    ⟨by decide, by decide, resolve_model rfl, rfl⟩
  rw [c.lines_eq]
  exact spelled_item c.id c.name c.allProperties hinner

theorem spelled_step (s : DraftStep) :
    Spelled documentScope (block s.lines) [s.tree] ("    " ++ "\n") := by
  have hinner : IsInner "bpmn2:callActivity" ["id", "name"] (some modelNamespace) "callActivity" :=
    ⟨by decide, by decide, resolve_model rfl, rfl⟩
  rw [s.lines_eq]
  exact spelled_item s.id s.id s.properties hinner

namespace Draft

variable (d : Draft)

theorem descriptionLines_eq :
    d.descriptionLines = d.description.toList.map fun text =>
      opening "    " "bpmn2:documentation" [] ++ escape text ++ closing "" "bpmn2:documentation" := by
  rw [descriptionLines]
  cases d.description <;> rfl

theorem spelled_description :
    Spelled documentScope (block d.descriptionLines)
      (d.description.toList.map documentationTree) (gaps "    " d.description.toList) := by
  have hinner : IsInner "bpmn2:documentation" [] (some modelNamespace) "documentation" :=
    ⟨by decide, nofun, resolve_model rfl, rfl⟩
  rw [descriptionLines_eq, block_map]
  exact .all (fun text => spelled_line hinner (by decide) (.escaped text)) _

def collaborationLines : List String :=
  opening "  " "bpmn2:collaboration" [⟨"id", "Collaboration_1"⟩] ::
    (d.descriptionLines ++ d.channels.flatMap DraftChannel.lines ++
      [closing "  " "bpmn2:collaboration"])

def processLines : List String :=
  opening "  " "bpmn2:process" [⟨"id", "Process_1"⟩] ::
    (d.mappingSteps.flatMap DraftStep.lines ++ [closing "  " "bpmn2:process"])

/-- The collaboration with its description and its channels. -/
theorem spelled_collaboration :
    Spelled documentScope (block d.collaborationLines) [d.collaborationTree] ("  " ++ "\n") := by
  have hinner : IsInner "bpmn2:collaboration" ["id"] (some modelNamespace) "collaboration" :=
    ⟨by decide, by decide, resolve_model rfl, rfl⟩
  have hbody : Spelled documentScope
      (block (d.descriptionLines ++ d.channels.flatMap DraftChannel.lines))
      (d.description.toList.map documentationTree ++ d.channels.map DraftChannel.tree)
      (gaps "    " d.description.toList ++ gaps "    " d.channels) := by
    rw [block_append, block_flatMap]
    exact d.spelled_description.append (.all spelled_channel d.channels)
  have hcontent : ∀ first second : String,
      "\n" ++ first ++ second ++ "  " = "\n" ++ (first ++ second) ++ "  " := by
    intro first second
    simp only [String.append_assoc]
  rw [collaborationTree, hcontent]
  exact spelled_lines hinner (by decide) hbody

theorem spelled_process :
    Spelled documentScope (block d.processLines) [d.processTree] ("  " ++ "\n") := by
  have hinner : IsInner "bpmn2:process" ["id"] (some modelNamespace) "process" :=
    ⟨by decide, by decide, resolve_model rfl, rfl⟩
  have hbody : Spelled documentScope (block (d.mappingSteps.flatMap DraftStep.lines))
      (d.mappingSteps.map DraftStep.tree) (gaps "    " d.mappingSteps) := by
    rw [block_flatMap]
    exact .all spelled_step d.mappingSteps
  exact spelled_lines hinner (by decide) hbody

theorem escape_modelNamespace : escape modelNamespace = modelNamespace := rfl

theorem escape_extensionNamespace : escape extensionNamespace = extensionNamespace := rfl

set_option maxRecDepth 2000 in
theorem opening_declarations :
    opening "" "bpmn2:definitions" declarations =
      "<bpmn2:definitions xmlns:bpmn2=\"http://www.omg.org/spec/BPMN/20100524/MODEL\" " ++
        "xmlns:ifl=\"http:///com.sap.ifl.model/Ifl.xsd\">" := by
  simp only [opening, tagChars, declarations, List.flatMap_cons, attributeChars,
    escape_modelNamespace, escape_extensionNamespace]
  rfl

theorem documentLines_eq :
    d.documentLines = opening "" "bpmn2:definitions" declarations ::
      ((d.collaborationLines ++ d.processLines) ++ [closing "" "bpmn2:definitions"]) := by
  have hcollaboration : opening "  " "bpmn2:collaboration" [⟨"id", "Collaboration_1"⟩] =
      "  <bpmn2:collaboration id=\"Collaboration_1\">" := rfl
  have hprocess : opening "  " "bpmn2:process" [⟨"id", "Process_1"⟩] =
      "  <bpmn2:process id=\"Process_1\">" := rfl
  have hcollaborationEnd : closing "  " "bpmn2:collaboration" = "  </bpmn2:collaboration>" := rfl
  have hprocessEnd : closing "  " "bpmn2:process" = "  </bpmn2:process>" := rfl
  have hdefinitionsEnd : closing "" "bpmn2:definitions" = "</bpmn2:definitions>" := rfl
  rw [documentLines, collaborationLines, processLines, opening_declarations, hcollaboration, hprocess,
    hcollaborationEnd, hprocessEnd, hdefinitionsEnd]
  simp only [List.append_assoc, List.cons_append, List.nil_append]

/-- The declarations of the outermost tag make the scope of the whole document. -/
theorem enter_declarations (offset : Nat) :
    Scope.outermost.enter (itemsFrom offset declarations) = .ok documentScope := by
  have hmodel : declared "xmlns:bpmn2".toList modelNamespace.toList =
      .ok (some ⟨"bpmn2".toList, modelNamespace.toList⟩) := rfl
  have hextension : declared "xmlns:ifl".toList extensionNamespace.toList =
      .ok (some ⟨"ifl".toList, extensionNamespace.toList⟩) := rfl
  simp only [declarations, itemsFrom, escape_modelNamespace, escape_extensionNamespace, Scope.enter,
    hmodel, hextension]
  rfl

/-- The document of every draft is read, and its tree is that of the draft. -/
theorem parse_document : parse d.document = .ok d.tree := by
  have htag : IsTagOf "bpmn2:definitions" ["xmlns:bpmn2", "xmlns:ifl"] := by decide
  have hresolves : documentScope.resolve "bpmn2:definitions".toList = .ok (some modelNamespace) :=
    resolve_model rfl
  have hlocal : localName "bpmn2:definitions".toList = "definitions" := rfl
  have hnone : localAttributes declarations = [] := rfl
  have hnewline : escape "\n" = "\n" := by decide
  have hstarts : Starts .outermost (tagChars "bpmn2:definitions" declarations) _ _ :=
    starts_tagChars htag enter_declarations hresolves
  have hbody : Spelled documentScope
      ("\n".toList ++ (block (d.collaborationLines ++ d.processLines) ++ "".toList))
      [d.collaborationTree, d.processTree] "\n  \n  \n" := by
    have hlines := (Spelled.gap hnewline).append
      ((d.spelled_collaboration.append d.spelled_process).append .nothing)
    have hcontent : "\n" ++ ("  " ++ "\n" ++ ("  " ++ "\n") ++ "") = "\n  \n  \n" := by decide
    rw [hcontent, ← block_append] at hlines
    exact hlines
  rw [hlocal, hnone] at hstarts
  have hdocument : d.document.toList = elementChars "bpmn2:definitions" declarations
      ("\n".toList ++ (block (d.collaborationLines ++ d.processLines) ++ "".toList)) ++
      (escape "\n").toList := by
    have hlines := block_element "" "bpmn2:definitions" declarations
      (d.collaborationLines ++ d.processLines)
    rw [← documentLines_eq] at hlines
    rw [hnewline]
    exact hlines
  exact parse_of_spelled hdocument htag hstarts hbody

end Draft

end FlowLint.Bundle

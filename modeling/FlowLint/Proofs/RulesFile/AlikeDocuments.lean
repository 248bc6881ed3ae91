import FlowLint.Proofs.Catalog.AlikeRules
import FlowLint.Proofs.Markup.TagPlaces
import FlowLint.Proofs.RulesFile.Shape

/-!
# Documents that differ in the order of attributes

Flows and rules files are read by name, so a document says the same with its tags turned: its
channels have the same names and ids, and as a rules file it has the same shape, imports the same
files, configures the same rules with the same ids and grants the same exemptions. The order counts
where two attributes of an element share a local name, of which the first is found, and where the
default namespace is declared under two keys, of which the later holds. Tags whose name or keys hold
quotes are left out: turned, they may no longer be tags.
-/

namespace FlowLint.RulesFile

open FlowLint.Markup (Element ReadAlike find?_rel map_rel exists_of_forall₂_append)

/-! ## Shapes -/

section Shapes

variable {e e' : Element} {es es' : List Element} {name : String}

theorem forall_mem_of_alike {p : Element → Prop} (hes : List.Forall₂ ReadAlike es es')
    (hp : ∀ {d d'}, ReadAlike d d' → p d → p d') (h : ∀ d ∈ es, p d) : ∀ d ∈ es', p d := by
  induction hes with
  | nil => exact h
  | cons hd _ ih =>
    obtain ⟨hfirst, hothers⟩ := List.forall_mem_cons.mp h
    exact List.forall_mem_cons.mpr ⟨hp hd hfirst, ih hothers⟩

theorem attributes_alike (h : ReadAlike e e') (hnone : e.attributes = []) : e'.attributes = [] := by
  have hperm := h.alike.attributes
  rw [hnone] at hperm
  exact hperm.nil_eq.symm

theorem isPlain_alike (h : ReadAlike e e') (hplain : IsPlain name e) : IsPlain name e' :=
  ⟨h.uri.symm.trans hplain.uri, h.name.symm.trans hplain.named⟩

theorem isLeaf_alike (h : ReadAlike e e') (hleaf : IsLeaf name e) : IsLeaf name e' := by
  have hchildren := h.children
  rw [hleaf.children] at hchildren
  have hnil : e'.attributes = [] := attributes_alike h hleaf.attributes
  have hplain : IsPlain name e' := isPlain_alike h hleaf.toIsPlain
  exact ⟨hplain, hnil, List.forall₂_nil_left_iff.mp hchildren⟩

theorem isFilled_alike (h : ReadAlike e e') (hfilled : IsFilled name e) : IsFilled name e' := by
  have hleaf : IsLeaf name e' := isLeaf_alike h hfilled.toIsLeaf
  refine ⟨hleaf, ?_⟩
  rw [← h.alike.content]
  exact hfilled.filled

theorem isBuiltInRule_alike (h : ReadAlike e e') (hrule : IsBuiltInRule e) : IsBuiltInRule e' where
  known := by
    rw [← h.name]
    exact hrule.known
  attributes := fun a ha => hrule.attributes a (h.alike.attributes.mem_iff.mpr ha)
  id := by
    rw [← h.attr?]
    exact hrule.id

theorem isExemption_alike (h : ReadAlike e e') (hexemption : IsExemption e) : IsExemption e' := by
  obtain ⟨hplain, hattributes, rule, artifacts, reasons, hes, hrule, hne, hartifacts, hlength,
    hreasons⟩ := hexemption
  have hchildren := h.children
  rw [hes] at hchildren
  obtain ⟨front, reasons', hfront, hreasons', heq⟩ := exists_of_forall₂_append hchildren
  obtain ⟨rule', artifacts', hrule', hartifacts', rfl⟩ := List.forall₂_cons_left_iff.mp hfront
  have hforallMem : ∀ d ∈ artifacts', IsFilled "artifact-id" d :=
    forall_mem_of_alike hartifacts' isFilled_alike hartifacts
  have hforallMem' : ∀ d ∈ reasons', IsLeaf "reason" d :=
    forall_mem_of_alike hreasons' isLeaf_alike hreasons
  have hnil : e'.attributes = [] := attributes_alike h hattributes
  refine ⟨isPlain_alike h hplain, hnil, rule', artifacts', reasons', heq,
    isFilled_alike hrule' hrule, ?_, hforallMem, ?_, hforallMem'⟩
  · rintro rfl
    exact hne (List.forall₂_nil_right_iff.mp hartifacts')
  · rw [← hreasons'.length_eq]
    exact hlength

theorem admits_alike (h : List.Forall₂ ReadAlike es es') {part : Part} (hadmits : part.Admits es) :
    part.Admits es' := by
  cases part with
  | imports =>
    have hartifacts : ∀ d ∈ es', IsFilled "import" d :=
      forall_mem_of_alike h isFilled_alike hadmits.2
    refine ⟨?_, hartifacts⟩
    rintro rfl
    exact hadmits.1 (List.forall₂_nil_right_iff.mp h)
  | rules =>
    refine forall_mem_of_alike h (fun hd hallowed => ?_) hadmits
    exact hallowed.imp (fun huri => hd.uri ▸ huri) (isBuiltInRule_alike hd)
  | exemptions => exact forall_mem_of_alike h isExemption_alike hadmits

theorem isSection_alike {part : Part} (hsection : IsSection part e) (h : ReadAlike e e') :
    IsSection part e' :=
  ⟨isPlain_alike h hsection.toIsPlain, attributes_alike h hsection.attributes,
    admits_alike h.children hsection.entries⟩

/-- The validator accepts alike parts. -/
theorem checkParts_alike (h : List.Forall₂ ReadAlike es es') {last : Option Nat}
    (hcheck : checkParts last es = .ok ()) : checkParts last es' = .ok () := by
  obtain ⟨parts, hranks, hup, hsections⟩ := checkParts_eq_ok.mp hcheck
  have hchildren : List.Forall₂ IsSection parts es' :=
    Markup.forall₂_comp hsections h fun _ _ => isSection_alike
  exact checkParts_eq_ok.mpr ⟨parts, hranks, hup, hchildren⟩

/-- A document that has the shape of a rules file keeps it. -/
theorem check_alike (h : ReadAlike e e') (hcheck : check e = .ok ()) : check e' = .ok () := by
  unfold check at hcheck ⊢
  rw [← h.uri, ← h.name]
  split at hcheck
  · cases hcheck
  · next hroot =>
    rw [if_neg hroot]
    obtain ⟨hattributes, hparts⟩ := check_bind_eq_ok.mp hcheck
    have hbare : checkNoAttributes e' = .ok () :=
      checkNoAttributes_eq_ok.mpr (attributes_alike h (checkNoAttributes_eq_ok.mp hattributes))
    have hcheckParts : checkParts none e'.children = .ok () := checkParts_alike h.children hparts
    exact check_bind_eq_ok.mpr ⟨hbare, hcheckParts⟩

end Shapes

/-! ## Contents -/

section Contents

variable {e e' : Element} {es es' : List Element} {g : Registry}

theorem imports_alike (h : ReadAlike e e') (p : Path) : imports p e = imports p e' := by
  have hfound := h.child? "imports"
  unfold imports
  generalize e.child? "imports" = found at hfound ⊢
  generalize e'.child? "imports" = found' at hfound ⊢
  cases hfound with
  | none => rfl
  | some hd => exact ReadAlike.map_eq (hd.childrenNamed "import") fun hi => by rw [hi.text]

theorem buildRule_alike (hg : ∀ f ∈ g.factories, f.IgnoresOrder) (h : ReadAlike e e') :
    buildRule g e = buildRule g e' := by
  rw [buildRule, buildRule, create_alike hg h, h.attr?]

theorem buildRules_alike (hg : ∀ f ∈ g.factories, f.IgnoresOrder)
    (h : List.Forall₂ ReadAlike es es') : buildRules g es = buildRules g es' := by
  induction h with
  | nil => rfl
  | cons hd _ ih => rw [buildRules, buildRules, buildRule_alike hg hd, ih]

theorem ruleElements_rel {R : Element → Element → Prop}
    (hfound : Option.Rel R (e.child? "rules") (e'.child? "rules"))
    (hchildren : ∀ {d d'}, R d d' → List.Forall₂ R d.children d'.children) :
    List.Forall₂ R (ruleElements e) (ruleElements e') := by
  unfold ruleElements
  generalize e.child? "rules" = found at hfound ⊢
  generalize e'.child? "rules" = found' at hfound ⊢
  cases hfound with
  | none => exact .nil
  | some hd => exact hchildren hd

theorem exemptionsOf_alike (h : ReadAlike e e') : exemptionsOf e = exemptionsOf e' := by
  have hrel : Option.Rel ReadAlike (e.child? "rule-id") (e'.child? "rule-id") := h.child? "rule-id"
  rw [exemptionsOf, exemptionsOf, map_rel hrel ReadAlike.text]
  have hnamed : List.Forall₂ ReadAlike (e.childrenNamed "artifact-id")
      (e'.childrenNamed "artifact-id") :=
    h.childrenNamed "artifact-id"
  exact ReadAlike.map_eq hnamed fun ha => by rw [ha.text]

theorem ownExemptions_alike (h : ReadAlike e e') : ownExemptions e = ownExemptions e' := by
  have hfound := h.child? "exemptions"
  unfold ownExemptions
  generalize e.child? "exemptions" = found at hfound ⊢
  generalize e'.child? "exemptions" = found' at hfound ⊢
  cases hfound with
  | none => rfl
  | some hd =>
    have hgranted := ReadAlike.map_eq (hd.childrenNamed "exemption") exemptionsOf_alike
    exact congrArg List.flatten hgranted

/-- Alike documents contribute the same rules and exemptions. -/
theorem own_alike (hg : ∀ f ∈ g.factories, f.IgnoresOrder) (h : ReadAlike e e') :
    own g e = own g e' := by
  have helements : List.Forall₂ ReadAlike (ruleElements e) (ruleElements e') :=
    ruleElements_rel (h.child? _) ReadAlike.children
  rw [own, own, buildRules_alike hg helements, ownExemptions_alike h]

end Contents

end FlowLint.RulesFile

namespace FlowLint

open FlowLint.Markup
open FlowLint.Query (Channel ChannelFilter channels)

/-! ## Documents with turned tags -/

/-- Elements that answer alike, about namespaces if `P` holds. -/
structure AnswersAlike (P : Prop) (e e' : Element) : Prop where
  uri : P → e.uri = e'.uri
  name : e.name = e'.name
  text : e.text = e'.text
  attr : ∀ n, e.IsSingle n → e.attr? n = e'.attr? n

/-- Channels that answer alike. -/
structure ChannelAlike (c c' : Channel) : Prop where
  id : c.element.IsSingle "id" → c.id? = c'.id?
  name : c.element.IsSingle "name" → c.element.IsSingle "id" → c.name = c'.name
  property : ∀ key, c.property? key = c'.property? key

/-- Documents that say the same. To say the same as rules files they have to agree in namespaces,
and no element may have two attributes of one local name. -/
structure DocumentAlike (P : Prop) (e e' : Element) : Prop where
  tree : Alike P e e'
  elements : List.Forall₂ (AnswersAlike P) (e :: e.descendants) (e' :: e'.descendants)
  channels : ∀ f : ChannelFilter, List.Forall₂ ChannelAlike (channels e f) (channels e' f)
  ruleIds : List.Forall₂ (fun r r' => r.IsSingle "id" → r.attr? "id" = r'.attr? "id")
    (RulesFile.ruleElements e) (RulesFile.ruleElements e')
  shape : P → Distinct e → RulesFile.check e = .ok () → RulesFile.check e' = .ok ()
  imports : P → Distinct e → ∀ p, RulesFile.imports p e = RulesFile.imports p e'
  rules : P → Distinct e → ∀ extensions : List ExtensionFactory,
    (∀ x ∈ extensions, x.IgnoresOrder) →
      RulesFile.own (Catalog.registry.withExtensions extensions) e =
        RulesFile.own (Catalog.registry.withExtensions extensions) e'

section Documents

variable {P : Prop} {e e' : Element} {text text' : String}

theorem Markup.Alike.answersAlike (h : Alike P e e') : AnswersAlike P e e' :=
  ⟨h.uri, h.name, h.text_eq, fun _ hsingle => h.attr?_eq hsingle⟩

theorem channelAlike {c c' : Channel} (h : Alike P c.element c'.element) : ChannelAlike c c' :=
  ⟨fun hid => h.attr?_eq hid, fun hname hid => Query.displayName_alike h hname hid,
    Query.property?_alike h⟩

theorem Markup.Alike.documentAlike (h : Alike P e e') : DocumentAlike P e e' := by
  have hread : P → Distinct e → ReadAlike e e' := by
    intro hP hdistinct
    rw [eq_true hP] at h
    exact ⟨h, hdistinct⟩
  refine ⟨h, ?_, fun f => ?_, ?_, fun hP hdistinct => ?_, fun hP hdistinct => ?_,
    fun hP hdistinct extensions hextensions => ?_⟩
  · exact .cons h.answersAlike (h.descendants.imp fun _ _ => Alike.answersAlike)
  · have hchannels : List.Forall₂ (fun c c' => Alike P c.element c'.element) (channels e f)
        (channels e' f) :=
      Query.channels_alike h f
    exact hchannels.imp fun _ _ => channelAlike
  · have helements : List.Forall₂ (Alike P) (RulesFile.ruleElements e)
        (RulesFile.ruleElements e') :=
      RulesFile.ruleElements_rel (h.child? _) Alike.children
    exact helements.imp fun _ _ hr hsingle => hr.attr?_eq hsingle
  · exact RulesFile.check_alike (hread hP hdistinct)
  · exact RulesFile.imports_alike (hread hP hdistinct)
  · have hall : ∀ f ∈ (Catalog.registry.withExtensions extensions).factories, f.IgnoresOrder :=
      withExtensions_ignoresOrder hextensions
    exact RulesFile.own_alike hall (hread hP hdistinct)

/-- Tags may be turned one after the other. -/
theorem exists_alike_of_turned (h : Relation.ReflTransGen (TagTurned P) text text')
    (hparse : parse text = .ok e) : ∃ e', parse text' = .ok e' ∧ Alike P e e' := by
  induction h with
  | refl => exact ⟨e, hparse, .refl e⟩
  | tail _ hturned ih =>
    obtain ⟨e', hparse', halike⟩ := ih
    obtain ⟨e'', hparse'', halike'⟩ := hturned.parse hparse'
    exact ⟨e'', hparse'', halike.trans halike'⟩

/-- The attributes in the tags of a document may stand in any order: it stays a document, and it
says the same. No tag with attributes is left out, but for those with quotes or a closing bracket in
their name or keys. -/
theorem parse_turned (h : Relation.ReflTransGen (TagTurned P) text text')
    (hparse : parse text = .ok e) :
    (∃ e', parse text' = .ok e' ∧ DocumentAlike P e e') ∧
      ∀ content, .tag content ∈ pieces text → ¬ IsEndTag content → Turnable text content := by
  obtain ⟨e', hparse', halike⟩ := exists_alike_of_turned h hparse
  have hturnable : ∀ content, .tag content ∈ pieces text → ¬ IsEndTag content →
      Turnable text content :=
    fun _ => turnable_of_parse hparse
  exact ⟨⟨e', hparse', halike.documentAlike⟩, hturnable⟩

end Documents

/-! ## A channel with two attributes -/

def idAttribute : Written where
  first := 'i'
  more := "d".toList
  raw := "c".toList
  before_spaces := rfl
  first_key := rfl
  more_key := rfl
  gap_spaces := rfl
  lead_spaces := rfl
  quote_quotes := .inl rfl
  raw_free := by decide

def qualifierAttribute : Written where
  first := 'x'
  more := "mlns:x".toList
  raw := "u".toList
  before_spaces := rfl
  first_key := rfl
  more_key := rfl
  gap_spaces := rfl
  lead_spaces := rfl
  quote_quotes := .inl rfl
  raw_free := by decide

def channelTag (first other : Written) (h : first.before ≠ []) : WrittenTag where
  name := "messageFlow".toList
  first := first
  others := [other]
  name_key := rfl
  name_starts := by decide
  first_before := h
  tail_spaces := rfl

theorem parse_turned_channel :
    TagTurned True "<d><messageFlow id=\"c\" xmlns:x=\"u\"/></d>"
      "<d><messageFlow xmlns:x=\"u\" id=\"c\"/></d>" ∧
    ∃ e e', parse "<d><messageFlow id=\"c\" xmlns:x=\"u\"/></d>" = .ok e ∧
      parse "<d><messageFlow xmlns:x=\"u\" id=\"c\"/></d>" = .ok e' ∧ DocumentAlike True e e' := by
  have hturned : TagTurned True "<d><messageFlow id=\"c\" xmlns:x=\"u\"/></d>"
      "<d><messageFlow xmlns:x=\"u\" id=\"c\"/></d>" :=
    @TagTurned.of True "<d>".toList "</d>".toList
      (channelTag idAttribute qualifierAttribute (by decide))
      (channelTag qualifierAttribute idAttribute (by decide)) ['/'] rfl (.inr rfl)
      ⟨rfl, .swap .., fun _ => by decide⟩
  have hparse : ∃ e, parse "<d><messageFlow id=\"c\" xmlns:x=\"u\"/></d>" = .ok e := ⟨_, rfl⟩
  obtain ⟨e, hparse⟩ := hparse
  obtain ⟨⟨e', hparse', halike⟩, -⟩ := parse_turned (.single hturned) hparse
  exact ⟨hturned, e, e', hparse, hparse', halike⟩

/-- The order of two attributes of one local name, of the two keys of the default namespace, and of
keys with quotes. -/
theorem order_counts :
    (parse "<e a:id=\"1\" b:id=\"2\"/>").toOption.map (·.attr? "id") = some (some "1") ∧
    (parse "<e b:id=\"2\" a:id=\"1\"/>").toOption.map (·.attr? "id") = some (some "2") ∧
    (parse "<e xmlns=\"u\" xmlns:=\"v\"/>").toOption.map (·.uri) = some (some "v") ∧
    (parse "<e xmlns:=\"v\" xmlns=\"u\"/>").toOption.map (·.uri) = some (some "u") ∧
    (parse "<e b'=\"1\" a'=\"'>'\"/>").toOption.isSome = true ∧
    (parse "<e a'=\"'>'\" b'=\"1\"/>").toOption.isSome = false := by
  refine ⟨?_, ?_, ?_, ?_, ?_, ?_⟩ <;> rfl

end FlowLint

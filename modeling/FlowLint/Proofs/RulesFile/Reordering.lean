import FlowLint.Proofs.RulesFile.MergeOrder
import Mathlib.Data.List.Forall2

/-!
# The order of imports

Documents may be rewritten so that their imports come in another order. This changes which
way a shared file is first come to, and with it the order of what is merged; it changes
neither whether a load succeeds nor what it holds, rules counted with their multiplicity. The
error of a load that fails may well be another one: nothing is established about it.
-/

namespace FlowLint.RulesFile

open FlowLint.Markup (Element)
open Relation (ReflTransGen)

variable {s s' : Source} {g : Registry} {p q : Path} {root root' : Element}

/-- A section with the same entries, in another order perhaps if they are imports. The text
between the entries is left out of account. -/
structure SectionReordered (e e' : Element) : Prop where
  uri : e.uri = e'.uri
  name : e.name = e'.name
  attributes : e.attributes = e'.attributes
  children : e.children = e'.children ∨
    e.name = Part.imports.element ∧ e.children.Perm e'.children

/-- A document with the same sections but for the order of imports. -/
structure DocumentReordered (root root' : Element) : Prop where
  uri : root.uri = root'.uri
  name : root.name = root'.name
  attributes : root.attributes = root'.attributes
  sections : List.Forall₂ SectionReordered root.children root'.children

/-- A text that stays the same or is the text of such a document. -/
def TextReordered (text text' : String) : Prop :=
  text = text' ∨ ∃ root root', Markup.parse text = .ok root ∧ Markup.parse text' = .ok root' ∧
    DocumentReordered root root'

/-- Files of which any may have its imports in another order. -/
def FilesReordered : (files files' : List (Path × String)) → Prop :=
  List.Forall₂ fun f f' => f.1 = f'.1 ∧ TextReordered f.2 f'.2

/-- Two loads that both fail or hold the same. -/
def SameContents : (a b : Except ConfigurationError RulesFile) → Prop
  | .ok a, .ok b => a.rules.Perm b.rules ∧ a.exemptions = b.exemptions
  | .error _, .error _ => True
  | _, _ => False

/-! ## Symmetry -/

theorem SectionReordered.symm {e e' : Element} (h : SectionReordered e e') :
    SectionReordered e' e := by
  refine ⟨h.uri.symm, h.name.symm, h.attributes.symm, ?_⟩
  rcases h.children with hsame | ⟨hname, hperm⟩
  · exact .inl hsame.symm
  · exact .inr ⟨h.name.symm.trans hname, hperm.symm⟩

theorem DocumentReordered.refl (root : Element) : DocumentReordered root root :=
  ⟨rfl, rfl, rfl, List.forall₂_same.mpr fun _ _ => ⟨rfl, rfl, rfl, .inl rfl⟩⟩

theorem DocumentReordered.symm (h : DocumentReordered root root') :
    DocumentReordered root' root := by
  have hforall : List.Forall₂ SectionReordered root'.children root.children :=
    List.Forall₂.flip (h.sections.imp fun _ _ h => h.symm)
  exact ⟨h.uri.symm, h.name.symm, h.attributes.symm, hforall⟩

theorem TextReordered.symm {text text' : String} (h : TextReordered text text') :
    TextReordered text' text := by
  rcases h with rfl | ⟨root, root', h, h', hroot⟩
  · exact .inl rfl
  · exact .inr ⟨root', root, h', h, hroot.symm⟩

theorem FilesReordered.symm {files files' : List (Path × String)}
    (h : FilesReordered files files') : FilesReordered files' files :=
  List.Forall₂.flip (h.imp fun _ _ h => ⟨h.1.symm, h.2.symm⟩)

/-! ## Documents -/

theorem SectionReordered.children_perm {e e' : Element} (h : SectionReordered e e') :
    e.children.Perm e'.children := by
  rcases h.children with hsame | ⟨-, hperm⟩
  · rw [hsame]
  · exact hperm

theorem SectionReordered.ofElement_eq {e e' : Element} (h : SectionReordered e e') :
    Part.ofElement e = Part.ofElement e' := by
  rw [Part.ofElement, Part.ofElement, h.uri, h.name]

theorem checkNoAttributes_of_eq {e e' : Element} (h : e.attributes = e'.attributes)
    (hcheck : checkNoAttributes e = .ok ()) : checkNoAttributes e' = .ok () := by
  rw [checkNoAttributes_eq_ok] at hcheck ⊢
  rw [← h, hcheck]

theorem checkImports_of_perm {e e' : Element} (hattributes : e.attributes = e'.attributes)
    (hperm : e.children.Perm e'.children) (h : checkImports e = .ok ()) :
    checkImports e' = .ok () := by
  obtain ⟨hnone, h⟩ := check_bind_eq_ok.mp h
  have hbare : checkNoAttributes e' = .ok () :=
    checkNoAttributes_of_eq hattributes hnone
  refine check_bind_eq_ok.mpr ⟨hbare, ?_⟩
  split at h
  · simp at h
  · next hne =>
    have hne' : ¬ e'.children.isEmpty = true := by
      rwa [List.isEmpty_iff_length_eq_zero, ← hperm.length_eq, ← List.isEmpty_iff_length_eq_zero]
    rw [if_neg hne', checkEach_eq_ok]
    exact fun i hi => checkEach_eq_ok.mp h i (hperm.mem_iff.mpr hi)

/-- A section that passes its check still does. -/
theorem SectionReordered.checkPart_eq_ok {e e' : Element} {part : Part}
    (h : SectionReordered e e') (hpart : Part.ofElement e = .ok part)
    (hcheck : checkPart e part = .ok ()) : checkPart e' part = .ok () := by
  have hname := (ofElement_eq_ok.mp hpart).2
  by_cases himports : part = .imports
  · rw [himports] at hcheck ⊢
    exact checkImports_of_perm h.attributes h.children_perm hcheck
  · have hsame : e.children = e'.children :=
      h.children.resolve_right fun h => himports (element_inj.mp (hname.symm.trans h.1))
    cases part with
    | imports => exact absurd rfl himports
    | rules | exemptions =>
      obtain ⟨hattributes, hentries⟩ := check_bind_eq_ok.mp hcheck
      rw [hsame] at hentries
      have hbare : checkNoAttributes e' = .ok () :=
        checkNoAttributes_of_eq h.attributes hattributes
      exact check_bind_eq_ok.mpr ⟨hbare, hentries⟩

theorem checkParts_of_reordered {es es' : List Element} (h : List.Forall₂ SectionReordered es es')
    {last : Option Nat} (hcheck : checkParts last es = .ok ()) :
    checkParts last es' = .ok () := by
  induction h generalizing last with
  | nil => exact hcheck
  | cons he _ ih =>
    obtain ⟨part, hpart, hlast, hpass, hrest⟩ := checkParts_cons.mp hcheck
    exact checkParts_cons.mpr ⟨part, he.ofElement_eq ▸ hpart, hlast,
      he.checkPart_eq_ok hpart hpass, ih hrest⟩

/-- The validator accepts reordered documents. -/
theorem DocumentReordered.check_eq_ok (h : DocumentReordered root root')
    (hcheck : check root = .ok ()) : check root' = .ok () := by
  unfold check at hcheck ⊢
  rw [h.uri, h.name] at hcheck
  split at hcheck
  · simp at hcheck
  · next hroot =>
    rw [if_neg hroot]
    obtain ⟨hattributes, hparts⟩ := check_bind_eq_ok.mp hcheck
    have hbare : checkNoAttributes root' = .ok () :=
      checkNoAttributes_of_eq h.attributes hattributes
    have hcheckParts : checkParts none root'.children = .ok () :=
      checkParts_of_reordered h.sections hparts
    exact check_bind_eq_ok.mpr ⟨hbare, hcheckParts⟩

theorem sections_reordered (h : DocumentReordered root root') (part : Part) :
    List.Forall₂ SectionReordered (sections root part) (sections root' part) := by
  refine List.rel_filter (fun e e' he => ?_) h.sections
  dsimp only
  rw [he.uri, he.name]

/-- Reordering permutes the declarations of each part. -/
theorem declarations_perm (h : DocumentReordered root root') (part : Part) :
    (declarations root part).Perm (declarations root' part) := by
  rw [declarations, declarations, List.flatMap_def, List.flatMap_def]
  refine List.Perm.flatten_congr ?_
  rw [List.forall₂_map_left_iff, List.forall₂_map_right_iff]
  have hsections : List.Forall₂ SectionReordered (sections root part)
      (sections root' part) :=
    sections_reordered h part
  exact hsections.imp fun _ _ he => he.children_perm

theorem flatMap_children_eq {es es' : List Element} (h : List.Forall₂ SectionReordered es es')
    (hname : ∀ e ∈ es, e.name ≠ Part.imports.element) :
    es.flatMap Element.children = es'.flatMap Element.children := by
  induction h with
  | nil => rfl
  | @cons e e' rest rest' he _ ih =>
    have hsame : e.children = e'.children :=
      he.children.resolve_right fun h => hname e List.mem_cons_self h.1
    rw [List.flatMap_cons, List.flatMap_cons, hsame,
      ih fun e he => hname e (List.mem_cons_of_mem _ he)]

/-- Only imports are put in another order. -/
theorem declarations_congr (h : DocumentReordered root root') {part : Part}
    (hpart : part ≠ .imports) : declarations root part = declarations root' part := by
  have hsections : List.Forall₂ SectionReordered (sections root part)
      (sections root' part) :=
    sections_reordered h part
  refine flatMap_children_eq hsections fun e he himports => hpart ?_
  have hname : e.name = part.element := (of_decide_eq_true (List.mem_filter.mp he).2).2
  exact element_inj.mp (hname.symm.trans himports)

/-- What a document holds by itself does not depend on the order of its imports. -/
theorem own_congr (h : DocumentReordered root root') (hcheck : check root = .ok ()) :
    own g root = own g root' := by
  have hcheck' : check root' = .ok () := h.check_eq_ok hcheck
  have hrules : ruleElements root = ruleElements root' := by
    rw [ruleElements_eq hcheck, ruleElements_eq hcheck', declarations_congr h (by decide)]
  have hexemptions : Order.ofList (ownExemptions root) = Order.ofList (ownExemptions root') := by
    rw [Order.ofList_eq_ofList_iff]
    intro x
    rw [mem_ownExemptions_iff hcheck, mem_ownExemptions_iff hcheck',
      declarations_congr h (by decide)]
  have hadd : addExemptions [] (ownExemptions root) = addExemptions [] (ownExemptions root') :=
    hexemptions
  rw [own, own, hrules, hadd]

/-! ## Sources -/

/-- Two sources with the same files but for the order of imports. -/
structure SourceReordered (s s' : Source) : Prop where
  locate : ∀ r, s.locate r = s'.locate r
  forth : ∀ p root, document s p = .ok root →
    ∃ root', document s' p = .ok root' ∧ DocumentReordered root root'
  back : ∀ p root', document s' p = .ok root' →
    ∃ root, document s p = .ok root ∧ DocumentReordered root root'

theorem SourceReordered.symm (h : SourceReordered s s') : SourceReordered s' s := by
  refine ⟨fun r => (h.locate r).symm, fun p root hroot => ?_, fun p root hroot => ?_⟩
  · obtain ⟨root', hroot', hr⟩ := h.back p root hroot
    exact ⟨root', hroot', hr.symm⟩
  · obtain ⟨root', hroot', hr⟩ := h.forth p root hroot
    exact ⟨root', hroot', hr.symm⟩

theorem imports_perm (hroot : document s p = .ok root)
    (hroot' : document s' p = .ok root') (hr : DocumentReordered root root') :
    (imports p root).Perm (imports p root') := by
  rw [imports_eq (check_of_document hroot), imports_eq (check_of_document hroot')]
  have hperm : (declarations root Part.imports).Perm (declarations root' Part.imports) :=
    declarations_perm hr .imports
  exact hperm.map _

theorem SourceReordered.imports_of (h : SourceReordered s s') (hi : Imports s p q) :
    Imports s' p q := by
  have hroot : ∃ root, document s p = .ok root := by
    cases hd : document s p with
    | ok root => exact ⟨root, rfl⟩
    | error e => simp [Imports, targets, hd] at hi
  obtain ⟨root, hroot⟩ := hroot
  obtain ⟨root', hroot', hr⟩ := h.forth p root hroot
  obtain ⟨r, hmem, hl⟩ := (imports_iff hroot).mp hi
  refine (imports_iff hroot').mpr ⟨r, ?_, h.locate r ▸ hl⟩
  have hperm : (imports p root).Perm (imports p root') := imports_perm hroot hroot' hr
  exact hperm.mem_iff.mp hmem

theorem SourceReordered.reaches (h : SourceReordered s s') (hr : Reaches s p q) :
    Reaches s' p q :=
  ReflTransGen.mono (fun _ _ => h.imports_of) _ _ hr

theorem SourceReordered.grounded (h : SourceReordered s s') (hg : Grounded s p) :
    Grounded s' p := by
  induction hg with
  | intro p _ ih => exact .intro p fun q hq => ih q (h.symm.imports_of hq)

theorem SourceReordered.loadable (h : SourceReordered s s') (hl : Loadable s g p) :
    Loadable s' g p := by
  obtain ⟨root, file, hroot, hrefs, hown⟩ := hl
  obtain ⟨root', hroot', hr⟩ := h.forth p root hroot
  refine ⟨root', file, hroot', fun r hmem => ?_, own_congr hr (check_of_document hroot) ▸ hown⟩
  rw [← h.locate]
  have hmem' : r ∈ imports p root := (imports_perm hroot hroot' hr).mem_iff.mpr hmem
  exact hrefs r hmem'

/-- Each file contributes what it did before. -/
theorem SourceReordered.contribution_congr (h : SourceReordered s s') (p : Path) :
    contribution s g p = contribution s' g p := by
  cases hroot : document s p with
  | ok root =>
    obtain ⟨root', hroot', hr⟩ := h.forth p root hroot
    have hown : own g root = own g root' := own_congr hr (check_of_document hroot)
    simp only [contribution, hroot, hroot', bind, Except.bind, hown]
  | error e =>
    cases hroot' : document s' p with
    | ok root' =>
      obtain ⟨root, hroot'', -⟩ := h.back p root' hroot'
      rw [hroot] at hroot''
      cases hroot''
    | error e' => simp only [contribution, hroot, hroot', bind, Except.bind]

/-! ## Files in memory -/

theorem find?_reordered {files files' : List (Path × String)} (h : FilesReordered files files')
    {f : Path × String} (hf : files.find? (fun f => f.1.normalize = p.normalize) = some f) :
    ∃ f', files'.find? (fun f => f.1.normalize = p.normalize) = some f' ∧
      TextReordered f.2 f'.2 := by
  induction h with
  | nil => cases hf
  | @cons a a' rest rest' ha _ ih =>
    by_cases hp : a.1.normalize = p.normalize
    · rw [List.find?_cons_of_pos (by simpa using hp)] at hf
      obtain rfl := Option.some.inj hf
      rw [ha.1] at hp
      exact ⟨a', List.find?_cons_of_pos (by simpa using hp), ha.2⟩
    · rw [List.find?_cons_of_neg (by simpa using hp)] at hf
      rw [ha.1] at hp
      rw [List.find?_cons_of_neg (by simpa using hp)]
      exact ih hf

theorem document_reordered {files files' : List (Path × String)}
    (h : FilesReordered files files') (hroot : document (.ofFiles files) p = .ok root) :
    ∃ root', document (.ofFiles files') p = .ok root' ∧ DocumentReordered root root' := by
  obtain ⟨text, hread, hparse, hcheck⟩ := document_eq_ok.mp hroot
  obtain ⟨f, hf, rfl⟩ := Option.map_eq_some_iff.mp (text_ofFiles.mp hread)
  obtain ⟨f', hf', htext⟩ := find?_reordered (List.forall₂_reverse_iff.mpr h) hf
  have hread' : (Source.ofFiles files').text p = .ok f'.2 :=
    text_ofFiles.mpr (Option.map_eq_some_iff.mpr ⟨f', hf', rfl⟩)
  rcases htext with heq | ⟨root₁, root', hparse₁, hparse', hr⟩
  · exact ⟨root, document_eq_ok.mpr ⟨_, hread', heq ▸ hparse, hcheck⟩, .refl root⟩
  · obtain rfl := Except.ok.inj (hparse.symm.trans hparse₁)
    have hdocument : document (Source.ofFiles files') p = .ok root' :=
      document_eq_ok.mpr ⟨_, hread', hparse', hr.check_eq_ok hcheck⟩
    exact ⟨root', hdocument, hr⟩

theorem FilesReordered.source {files files' : List (Path × String)}
    (h : FilesReordered files files') :
    SourceReordered (.ofFiles files) (.ofFiles files') := by
  refine ⟨fun r => ?_, fun p root hroot => document_reordered h hroot, fun p root' hroot' => ?_⟩
  · have hpaths : files.map (·.1.normalize) = files'.map (·.1.normalize) := by
      induction h with
      | nil => rfl
      | cons hf _ ih => rw [List.map_cons, List.map_cons, hf.1, ih]
    simp only [Source.locate, Source.ofFiles, hpaths]
  · obtain ⟨root, hroot, hr⟩ := document_reordered h.symm hroot'
    exact ⟨root, hroot, hr.symm⟩

/-! ## Loads -/

theorem duplicateIds_perm {rules rules' : List Rule} (h : rules.Perm rules') :
    duplicateIds rules = duplicateIds rules' := by
  have hids : (rules.filterMap (·.id)).Perm (rules'.filterMap (·.id)) := h.filterMap _
  rw [duplicateIds, duplicateIds, Order.ofList_eq_ofList_iff]
  intro id
  rw [List.mem_filter, List.mem_filter, hids.mem_iff, hids.count_eq]

/-- What files hold together is the same in any order, and from any order of their imports. -/
theorem SourceReordered.gather_perm (h : SourceReordered s s') {order order' : List Path}
    (hperm : order.Perm order') : (gather s g order).rules.Perm (gather s' g order').rules ∧
      (gather s g order).exemptions = (gather s' g order').exemptions := by
  have hsame : contribution s g = contribution s' g := funext h.contribution_congr
  rw [gather, gather, hsame]
  constructor
  · exact hperm.flatMap_right _
  · rw [Order.ofList_eq_ofList_iff]
    exact fun x => (hperm.flatMap_right _).mem_iff

/-- A load that succeeds succeeds after reordering, with permuted rules and the same exemptions. -/
theorem SourceReordered.load_eq_ok (h : SourceReordered s s') {entry : Path} {result : RulesFile}
    (hload : load s g entry = .ok result) :
    ∃ result', load s' g entry = .ok result' ∧ result.rules.Perm result'.rules ∧
      result.exemptions = result'.exemptions := by
  obtain ⟨start, l, hstart, hu, hall, rfl, hdup, hrules⟩ := load_eq_ok_iff.mp hload
  obtain ⟨l', hu'⟩ := (h.grounded hu.grounded).exists_unfolding
  have hmem : ∀ q, q ∈ l ↔ q ∈ l' := by
    intro q
    rw [hu.mem_iff, hu'.mem_iff]
    exact ⟨h.reaches, h.symm.reaches⟩
  have hperm : l.eraseDups.Perm l'.eraseDups := by
    refine (List.perm_ext_iff_of_nodup (nodup_eraseDups l) (nodup_eraseDups l')).mpr fun q => ?_
    rw [List.mem_eraseDups, List.mem_eraseDups, hmem]
  obtain ⟨hsame, hexemptions⟩ := h.gather_perm (g := g) hperm
  refine ⟨gather s' g l'.eraseDups, ?_, hsame, hexemptions⟩
  have hloadable : ∀ q ∈ l', Loadable s' g q :=
    fun q hq => h.loadable (hall q ((hmem q).mpr hq))
  refine load_eq_ok_iff.mpr ⟨start, l', h.locate entry ▸ hstart, hu', hloadable, rfl, ?_, ?_⟩
  · rw [← duplicateIds_perm hsame, hdup]
  · intro hnone
    rw [hnone, List.perm_nil] at hsame
    exact hrules hsame

/-- The order of imports in any of the files changes neither whether a load succeeds nor the
rules, counted with multiplicity, and exemptions that it holds. -/
theorem load_reordered {files files' : List (Path × String)} (h : FilesReordered files files')
    (g : Registry) (entry : Path) :
    SameContents (load (.ofFiles files) g entry) (load (.ofFiles files') g entry) := by
  cases hload : load (.ofFiles files) g entry with
  | ok result =>
    obtain ⟨result', hload', hsame⟩ := h.source.load_eq_ok hload
    rw [hload']
    exact hsame
  | error e =>
    cases hload' : load (.ofFiles files') g entry with
    | ok result' =>
      obtain ⟨result, hload'', -⟩ := h.symm.source.load_eq_ok hload'
      rw [hload] at hload''
      cases hload''
    | error e' => exact trivial

/-- The diamond with the imports of its top in the other order. -/
def turnedDiamond : List (Path × String) :=
  (⟨"top"⟩, "<cpilint><imports>\n<import>./low</import><import>d/mid</import>" ++
    "</imports></cpilint>") :: diamond.tail

theorem documentReordered_importing {references references' : List String}
    (h : references.Perm references') (content content' : String) :
    DocumentReordered (importing content references) (importing content' references') :=
  ⟨rfl, rfl, rfl, .cons ⟨rfl, rfl, rfl, .inr ⟨rfl, h.map _⟩⟩ .nil⟩

theorem filesReordered_diamond : FilesReordered diamond turnedDiamond := by
  have hparse : Markup.parse diamond.head!.2 = .ok (importing "" ["d/mid", "./low"]) := by
    with_unfolding_all rfl
  have hparse' : Markup.parse turnedDiamond.head!.2 = .ok (importing "\n" ["./low", "d/mid"]) := by
    with_unfolding_all rfl
  have htop : TextReordered diamond.head!.2 turnedDiamond.head!.2 :=
    .inr ⟨_, _, hparse, hparse', documentReordered_importing (.swap _ _ _) _ _⟩
  exact .cons ⟨rfl, htop⟩ (List.forall₂_same.mpr fun f _ => ⟨rfl, .inl rfl⟩)

/-- Now the shared file of the diamond is come to by the other way first. -/
theorem load_turnedDiamond : FilesReordered diamond turnedDiamond ∧
    SameContents (load (.ofFiles diamond) Catalog.registry ⟨"top"⟩)
      (load (.ofFiles turnedDiamond) Catalog.registry ⟨"top"⟩) :=
  ⟨filesReordered_diamond, load_reordered filesReordered_diamond _ _⟩

end FlowLint.RulesFile

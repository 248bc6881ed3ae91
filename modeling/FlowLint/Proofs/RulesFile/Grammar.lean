import FlowLint.RulesFile.Loader

/-!
# What a document of the right shape declares

The shape check asks for sections without namespace, in order and none twice; loading
looks sections up by name alone and takes the first. On a document that passed the check
the two agree: what is looked up is everything that its sections declare. Nothing is
established here about documents that the check refuses.
-/

namespace FlowLint.RulesFile

open FlowLint.Markup (Element)

/-- The sections of one kind. -/
def sections (root : Element) (part : Part) : List Element :=
  root.children.filter fun e => e.uri = none ∧ e.name = part.element

/-- Every entry of the sections of one kind, in document order. -/
def declarations (root : Element) (part : Part) : List Element :=
  (sections root part).flatMap Element.children

/-- The pairs of a rule and an artifact that an exemption names. -/
def Grants (e : Element) (x : Exemption) : Prop :=
  ∃ r ∈ e.childrenNamed "rule-id", ∃ a ∈ e.childrenNamed "artifact-id", x = ⟨r.text, a.text⟩

/-! ## The single checks -/

theorem bind_eq_ok {ε α β : Type} {x : Except ε α} {f : α → Except ε β} {b : β} :
    (x >>= f) = .ok b ↔ ∃ a, x = .ok a ∧ f a = .ok b := by
  cases x with
  | error e =>
    constructor
    · intro h
      cases h
    · rintro ⟨a, h, -⟩
      cases h
  | ok a =>
    constructor
    · intro h
      exact ⟨a, rfl, h⟩
    · rintro ⟨a', h, hf⟩
      cases h
      exact hf

/-- A check that only fails or passes leaves nothing to what follows it. -/
@[simp] theorem check_bind_eq_ok {ε β : Type} {x : Except ε Unit} {f : Unit → Except ε β} {b : β} :
    (x >>= f) = .ok b ↔ x = .ok () ∧ f () = .ok b := by
  rw [bind_eq_ok]
  constructor
  · rintro ⟨_, hx, hf⟩
    exact ⟨hx, hf⟩
  · rintro ⟨hx, hf⟩
    exact ⟨(), hx, hf⟩

@[simp] theorem mapError_eq_ok {ε ε' α : Type} {x : Except ε α} {f : ε → ε'} {a : α} :
    x.mapError f = .ok a ↔ x = .ok a := by
  cases x with
  | error e =>
    constructor
    · intro h
      cases h
    · intro h
      cases h
  | ok b =>
    constructor
    · intro h
      have heq : b = a := Except.ok.inj h
      rw [heq]
    · intro h
      have heq : b = a := Except.ok.inj h
      rw [heq]
      rfl

@[simp] theorem checkNoAttributes_eq_ok {e : Element} :
    checkNoAttributes e = .ok () ↔ e.attributes = [] := by
  unfold checkNoAttributes
  cases e.attributes <;> simp

theorem checkName_eq_ok {e : Element} {parent expected : String} :
    checkName e parent expected = .ok () ↔ e.uri = none ∧ e.name = expected := by
  simp [checkName]

@[simp] theorem checkEach_eq_ok {check : Element → Except Violation Unit} {es : List Element} :
    checkEach check es = .ok () ↔ ∀ e ∈ es, check e = .ok () := by
  induction es with
  | nil => simp [checkEach]
  | cons e rest ih => simp [checkEach, ih]

theorem ofElement_eq_ok {e : Element} {part : Part} :
    Part.ofElement e = .ok part ↔ e.uri = none ∧ e.name = part.element := by
  unfold Part.ofElement
  cases e.uri with
  | some uri => simp
  | none =>
    simp only [Option.isSome_none, Bool.false_eq_true, ↓reduceIte, true_and]
    constructor
    · intro h
      split at h
      · next found hf =>
        have hname := List.find?_some hf
        rw [← Except.ok.inj h]
        exact (of_decide_eq_true hname).symm
      · simp at h
    · intro h
      rw [h]
      cases part <;> rfl

@[simp] theorem element_inj {part part' : Part} : part.element = part'.element ↔ part = part' := by
  cases part <;> cases part' <;> decide

@[simp] theorem checkParts_cons {last : Option Nat} {e : Element} {rest : List Element} :
    checkParts last (e :: rest) = .ok () ↔
      ∃ part, Part.ofElement e = .ok part ∧ last.all (· < part.rank) ∧
        checkPart e part = .ok () ∧ checkParts (some part.rank) rest = .ok () := by
  rw [checkParts, bind_eq_ok]
  refine exists_congr fun part => and_congr_right fun _ => ?_
  cases last with
  | none => simp
  | some n =>
    by_cases hn : part.rank ≤ n
    · simp [hn, Nat.not_lt.mpr hn]
    · simp [hn, Nat.lt_of_not_le hn]

/-! ## The sections of a document -/

/-- Each section is of one kind, comes after those before it and passes its own check. -/
theorem mem_of_checkParts {last : Option Nat} {es : List Element}
    (h : checkParts last es = .ok ()) {e : Element} (he : e ∈ es) :
    ∃ part : Part, e.uri = none ∧ e.name = part.element ∧ last.all (· < part.rank) ∧
      checkPart e part = .ok () := by
  induction es generalizing last with
  | nil => exact absurd he List.not_mem_nil
  | cons first rest ih =>
    obtain ⟨part, hpart, hlast, hcheck, hrest⟩ := checkParts_cons.mp h
    rcases List.mem_cons.mp he with rfl | he
    · obtain ⟨huri, hname⟩ := ofElement_eq_ok.mp hpart
      exact ⟨part, huri, hname, hlast, hcheck⟩
    · obtain ⟨later, huri, hname, hafter, hcheck'⟩ := ih hrest he
      refine ⟨later, huri, hname, ?_, hcheck'⟩
      cases last with
      | none => rfl
      | some n =>
        simp only [Option.all_some, decide_eq_true_eq] at hlast hafter ⊢
        omega

theorem pairwise_of_checkParts {last : Option Nat} {es : List Element}
    (h : checkParts last es = .ok ()) : es.Pairwise fun a b => a.name ≠ b.name := by
  induction es generalizing last with
  | nil => exact List.Pairwise.nil
  | cons e rest ih =>
    obtain ⟨part, hpart, -, -, hrest⟩ := checkParts_cons.mp h
    refine List.pairwise_cons.mpr ⟨fun e' he' => ?_, ih hrest⟩
    obtain ⟨later, -, hname, hafter, -⟩ := mem_of_checkParts hrest he'
    rw [(ofElement_eq_ok.mp hpart).2, hname]
    have hrank : part.rank < later.rank := by simpa using hafter
    intro heq
    rw [element_inj.mp heq] at hrank
    omega

theorem checkParts_of_check {root : Element} (h : check root = .ok ()) :
    checkParts none root.children = .ok () := by
  unfold check at h
  split at h
  · simp at h
  · exact (check_bind_eq_ok.mp h).2

/-- At most one value satisfies a name where names are distinct. -/
theorem filter_name_eq {es : List Element} (h : es.Pairwise fun a b => a.name ≠ b.name)
    (name : String) : es.filter (·.name = name) = (es.find? (·.name = name)).toList := by
  induction es with
  | nil => rfl
  | cons e rest ih =>
    obtain ⟨hne, hrest⟩ := List.pairwise_cons.mp h
    by_cases he : e.name = name
    · have hnone : rest.filter (·.name = name) = [] := by
        rw [List.filter_eq_nil_iff]
        intro e' he' heq
        have hname : e.name = e'.name := he.trans (of_decide_eq_true heq).symm
        exact hne e' he' hname
      rw [List.filter_cons_of_pos (by simpa using he), List.find?_cons_of_pos (by simpa using he),
        hnone]
      rfl
    · rw [List.filter_cons_of_neg (by simpa using he), List.find?_cons_of_neg (by simpa using he)]
      exact ih hrest

/-- Looking a section up by its name misses none of the kind. -/
theorem sections_eq {root : Element} (h : check root = .ok ()) (part : Part) :
    sections root part = (root.child? part.element).toList := by
  have hparts := checkParts_of_check h
  have hne : root.children.Pairwise fun a b => a.name ≠ b.name := pairwise_of_checkParts hparts
  rw [Element.child?, ← filter_name_eq hne, sections]
  refine List.filter_congr fun e he => ?_
  obtain ⟨-, huri, -⟩ := mem_of_checkParts hparts he
  simp [huri]

/-- In a document that was checked each part comes once at most. -/
theorem declarations_eq {root : Element} (h : check root = .ok ()) (part : Part) :
    declarations root part = ((root.child? part.element).map Element.children).getD [] := by
  rw [declarations, sections_eq h]
  cases root.child? part.element <;> simp

theorem checkPart_of_child? {root e : Element} {part : Part} (h : check root = .ok ())
    (he : root.child? part.element = some e) : checkPart e part = .ok () := by
  have hname : e.name = part.element := of_decide_eq_true (List.find?_some he :)
  have hcheckParts : checkParts none root.children = .ok () := checkParts_of_check h
  obtain ⟨found, -, hfound, -, hcheck⟩ :=
    mem_of_checkParts hcheckParts (List.mem_of_find?_eq_some he)
  obtain rfl : part = found := element_inj.mp (hname.symm.trans hfound)
  exact hcheck

/-! ## What loading reads -/

/-- A reference to an imported file, as seen from the directory of the file that imports it. -/
def reference (p : Path) (e : Element) : Path :=
  (p.parent?.getD ⟨""⟩).join ⟨e.text⟩

theorem imports_eq {root : Element} (h : check root = .ok ()) (p : Path) :
    imports p root = (declarations root .imports).map (reference p) := by
  rw [declarations_eq h, imports]
  cases he : root.child? Part.imports.element with
  | none => rw [show root.child? "imports" = none from he]; rfl
  | some e =>
    rw [show root.child? "imports" = some e from he]
    have hcheck : checkImports e = .ok () := checkPart_of_child? h he
    obtain ⟨-, hcheck⟩ := check_bind_eq_ok.mp hcheck
    have hnamed : e.childrenNamed "import" = e.children := by
      refine List.filter_eq_self.mpr fun i hi => ?_
      split at hcheck
      · simp at hcheck
      · have himport := checkEach_eq_ok.mp hcheck i hi
        obtain ⟨hname, -⟩ := check_bind_eq_ok.mp himport
        simpa using (checkName_eq_ok.mp hname).2
    simp only [hnamed, Option.map_some, Option.getD_some]
    rfl

theorem ruleElements_eq {root : Element} (h : check root = .ok ()) :
    ruleElements root = declarations root .rules :=
  (declarations_eq h .rules).symm

theorem name_of_checkExempted {es : List Element} (h : checkExempted es = .ok ()) {e : Element}
    (he : e ∈ es) : e.name = "artifact-id" ∨ e.name = "reason" := by
  obtain ⟨-, h⟩ := check_bind_eq_ok.mp h
  split at h
  · simp at h
  · rw [← List.takeWhile_append_dropWhile (p := fun c : Element => c.name = "artifact-id") (l := es),
      List.mem_append] at he
    rcases he with he | he
    · exact .inl (of_decide_eq_true (List.all_eq_true.mp List.all_takeWhile e he))
    · right
      generalize es.dropWhile (fun c : Element => c.name = "artifact-id") = left at h he
      cases left with
      | nil => exact absurd he List.not_mem_nil
      | cons reason rest =>
        obtain ⟨hname, h⟩ := check_bind_eq_ok.mp h
        obtain ⟨-, h⟩ := check_bind_eq_ok.mp h
        cases rest with
        | nil =>
          rw [List.mem_singleton.mp he]
          exact (checkName_eq_ok.mp hname).2
        | cons extra _ => simp at h

/-- An exemption names one rule, so all its pairs are about that rule. -/
theorem mem_exemptionsOf_iff {e : Element} (h : checkExemption e = .ok ()) (x : Exemption) :
    x ∈ exemptionsOf e ↔ Grants e x := by
  obtain ⟨-, h⟩ := check_bind_eq_ok.mp h
  obtain ⟨-, h⟩ := check_bind_eq_ok.mp h
  cases hes : e.children with
  | nil => simp [hes] at h
  | cons rule rest =>
    rw [hes] at h
    obtain ⟨hname, h⟩ := check_bind_eq_ok.mp h
    obtain ⟨-, h⟩ := check_bind_eq_ok.mp h
    have hrule : rule.name = "rule-id" := (checkName_eq_ok.mp hname).2
    have hfirst : e.child? "rule-id" = some rule := by
      rw [Element.child?, hes, List.find?_cons_of_pos (by simpa using hrule)]
    have honly : e.childrenNamed "rule-id" = [rule] := by
      rw [Element.childrenNamed, hes, List.filter_cons_of_pos (by simpa using hrule),
        List.filter_eq_nil_iff.mpr]
      intro c hc
      rcases name_of_checkExempted h hc with hc | hc <;> simp [hc]
    simp only [exemptionsOf, hfirst, Grants, honly, Option.map_some, Option.getD_some,
      List.mem_map, List.mem_singleton, exists_eq_left]
    refine exists_congr fun a => and_congr_right fun _ => ?_
    exact eq_comm

/-- The exemptions of a document are the pairs that its declarations grant. -/
theorem mem_ownExemptions_iff {root : Element} (h : check root = .ok ()) (x : Exemption) :
    x ∈ ownExemptions root ↔ ∃ e ∈ declarations root .exemptions, Grants e x := by
  rw [declarations_eq h, ownExemptions]
  cases he : root.child? Part.exemptions.element with
  | none => rw [show root.child? "exemptions" = none from he]; simp
  | some e =>
    rw [show root.child? "exemptions" = some e from he]
    have hcheck : checkExemptions e = .ok () := checkPart_of_child? h he
    obtain ⟨-, hcheck⟩ := check_bind_eq_ok.mp hcheck
    have heach := checkEach_eq_ok.mp hcheck
    have hnamed : e.childrenNamed "exemption" = e.children := by
      refine List.filter_eq_self.mpr fun c hc => ?_
      obtain ⟨hname, -⟩ := check_bind_eq_ok.mp (heach c hc)
      simpa using (checkName_eq_ok.mp hname).2
    simp only [hnamed, List.mem_flatMap, Option.map_some, Option.getD_some]
    refine exists_congr fun c => and_congr_right fun hc => ?_
    have hexempted : checkExemption c = .ok () := heach c hc
    exact mem_exemptionsOf_iff hexempted x

end FlowLint.RulesFile

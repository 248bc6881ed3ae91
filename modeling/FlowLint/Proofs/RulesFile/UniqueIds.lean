import FlowLint.Proofs.RulesFile.Failures
import FlowLint.Proofs.RulesFile.MergeOrder

/-!
# Ids in a whole of rules

Ids are compared once everything below the entry has been merged, each file once. So a load fails
over its ids exactly if two rules of the merge carry the same one, wherever they stand, and over
a want of rules exactly if there are none in the whole merge. A rule has its id from its factory
or from its element, never from both: what a factory has set stays, and an element that would
set it anew is refused. Which error comes first where several things are wrong is not said.
-/

namespace FlowLint.RulesFile

open FlowLint.Markup (Element)

variable {s : Source} {g : Registry} {ancestors visited : List Path} {entry : Path}

/-- Everything that an entry leads to can be loaded, every rule of it can be built, and together
it holds the rules and exemptions of `merged`. -/
structure Assembled (s : Source) (g : Registry) (entry start : Path) (l : List Path)
    (merged : RulesFile) : Prop where
  located : s.locate entry = .ok start
  unfolds : Unfolding s start l
  loadable : ∀ q, Reaches s start q → Loadable s g q
  merges : Merges s g start l.eraseDups merged

def Assembles (s : Source) (g : Registry) (entry : Path) (merged : RulesFile) : Prop :=
  ∃ start l, Assembled s g entry start l merged

/-- At least two rules of a list carry the id. -/
def Shared (rules : List Rule) (id : String) : Prop :=
  2 ≤ rules.countP (·.id = some id)

/-- What an id in the element of a rule makes of the rule as its factory built it. -/
inductive Identified : Option String → Rule → Rule → Prop
  | kept (created : Rule) : Identified none created created
  | assigned {created : Rule} (id : String) :
    created.id = none → Identified (some id) created { created with id := some id }

/-! ## The rules of single elements -/

theorem assignId_eq_ok {created rule : Rule} {id : String} :
    created.assignId id = .ok rule ↔ created.id = none ∧ rule = { created with id := some id } := by
  unfold Rule.assignId
  cases created.id with
  | none => simp [eq_comm]
  | some existing => simp

/-- An element declares a rule exactly if one is created and its identifier can be given. -/
theorem buildRule_eq_ok {e : Element} {rule : Rule} :
    buildRule g e = .ok rule ↔
      ∃ created, g.create e = .ok created ∧ Identified (e.attr? "id") created rule := by
  rw [buildRule, bind_eq_ok]
  refine exists_congr fun created => and_congr_right fun _ => ?_
  cases e.attr? "id" with
  | none =>
    constructor
    · intro h
      rw [← Except.ok.inj h]
      exact .kept created
    · rintro ⟨⟩
      rfl
  | some id =>
    show created.assignId id = .ok rule ↔ Identified (some id) created rule
    rw [assignId_eq_ok]
    constructor
    · rintro ⟨hnone, rfl⟩
      exact .assigned id hnone
    · rintro ⟨⟩
      exact ⟨‹_›, rfl⟩

/-- An id that a factory has set is not set again. -/
theorem buildRule_of_preset {e : Element} {created : Rule} {existing id : String}
    (hcreate : g.create e = .ok created) (hpreset : created.id = some existing)
    (hid : e.attr? "id" = some id) :
    buildRule g e = .error (.idAlreadyAssigned existing id) := by
  rw [buildRule, hcreate]
  simp only [bind, Except.bind, hid, Rule.assignId, hpreset]

/-- Rules are built in order, up to the first that cannot be. -/
theorem buildRules_of_refused {before after : List Element} {e : Element}
    {err : ConfigurationError} (hbefore : ∀ b ∈ before, ∃ rule, buildRule g b = .ok rule)
    (he : buildRule g e = .error err) : buildRules g (before ++ e :: after) = .error err := by
  induction before with
  | nil =>
    rw [List.nil_append, buildRules, he]
    rfl
  | cons b before ih =>
    obtain ⟨⟨rule, hrule⟩, hrest⟩ := List.forall_mem_cons.mp hbefore
    rw [List.cons_append, buildRules, hrule, ih hrest]
    rfl

theorem own_of_refused {root e : Element} {before after : List Element} {err : ConfigurationError}
    (hroot : check root = .ok ()) (hsplit : declarations root .rules = before ++ e :: after)
    (hbefore : ∀ b ∈ before, ∃ rule, buildRule g b = .ok rule) (he : buildRule g e = .error err) :
    own g root = .error err := by
  rw [own, ruleElements_eq hroot, hsplit, buildRules_of_refused hbefore he]
  rfl

theorem exists_buildRule_of_buildRules {es : List Element} {rules : List Rule}
    (h : buildRules g es = .ok rules) : ∀ e ∈ es, ∃ rule, buildRule g e = .ok rule := by
  have hbuilt := buildRules_eq_ok.mp h
  clear h
  induction hbuilt with
  | nil => exact nofun
  | cons hrule _ ih => exact List.forall_mem_cons.mpr ⟨⟨_, hrule⟩, ih⟩

/-- A file that declares a rule that cannot be built keeps every load that comes to it from
succeeding. -/
theorem load_ne_ok_of_refused {start p : Path} {root e : Element} {err : ConfigurationError}
    (hl : s.locate entry = .ok start) (hr : Reaches s start p) (hroot : document s p = .ok root)
    (hdeclared : e ∈ declarations root .rules) (he : buildRule g e = .error err)
    (result : RulesFile) : load s g entry ≠ .ok result := by
  intro h
  obtain ⟨start', l, hl', hu, hload, -⟩ := load_eq_ok_iff.mp h
  obtain rfl := Except.ok.inj (hl.symm.trans hl')
  obtain ⟨root', file, hroot', -, hown⟩ := hload p (hu.mem_iff.mpr hr)
  obtain rfl := Except.ok.inj (hroot.symm.trans hroot')
  obtain ⟨rules, hrules, -⟩ := own_eq_ok.mp hown
  rw [ruleElements_eq (check_of_document hroot)] at hrules
  obtain ⟨rule, hrule⟩ := exists_buildRule_of_buildRules hrules e hdeclared
  cases he.symm.trans hrule

/-! ## Ids of a list of rules -/

theorem count_ids (rules : List Rule) (id : String) :
    (rules.filterMap (·.id)).count id = rules.countP (·.id = some id) := by
  rw [List.count_filterMap]
  exact List.countP_congr fun r _ => by rw [beq_iff_eq, decide_eq_true_eq]

/-- The duplicates are the identifiers of several rules. -/
@[simp] theorem mem_duplicateIds {rules : List Rule} {id : String} :
    id ∈ duplicateIds rules ↔ Shared rules id := by
  rw [duplicateIds, Order.mem_ofList, List.mem_filter, decide_eq_true_eq, count_ids, Shared]
  refine ⟨And.right, fun h => ⟨?_, h⟩⟩
  rw [← List.count_pos_iff, count_ids]
  omega

theorem sorted_duplicateIds (rules : List Rule) : (duplicateIds rules).Pairwise (· < ·) :=
  Order.sorted_ofList _

theorem nodup_of_duplicateIds {rules : List Rule} (h : duplicateIds rules = []) :
    (rules.filterMap (·.id)).Nodup := by
  rw [List.nodup_iff_count_le_one]
  intro id
  have hnone : ¬ Shared rules id := by
    rw [← mem_duplicateIds, h]
    exact List.not_mem_nil
  rw [count_ids]
  exact Nat.le_of_lt_succ (Nat.lt_of_not_le hnone)

/-! ## The check of the whole -/

/-- The error lists the shared identifiers, each once and in order. -/
theorem checkLoaded_eq_duplicateIds {file : RulesFile} {ids : List String} :
    checkLoaded file = .error (.duplicateIds ids) ↔
      ids ≠ [] ∧ ids.Pairwise (· < ·) ∧ ∀ id, id ∈ ids ↔ Shared file.rules id := by
  have hids : checkLoaded file = .error (.duplicateIds ids) ↔
      duplicateIds file.rules ≠ [] ∧ ids = duplicateIds file.rules := by
    unfold checkLoaded
    split
    · next h => simp [h, eq_comm]
    · next h => split <;> simp_all
  rw [hids]
  constructor
  · rintro ⟨hne, rfl⟩
    exact ⟨hne, sorted_duplicateIds file.rules, fun id => mem_duplicateIds⟩
  · rintro ⟨hne, hsorted, hmem⟩
    have hsame : ids = duplicateIds file.rules :=
      hsorted.eq_of_mem_iff (sorted_duplicateIds file.rules) fun id => by
        rw [hmem, mem_duplicateIds]
    exact ⟨hsame ▸ hne, hsame⟩

theorem checkLoaded_eq_noRules {file : RulesFile} :
    checkLoaded file = .error .noRules ↔ file.rules = [] := by
  unfold checkLoaded
  split
  · next h =>
    have hne : file.rules ≠ [] := fun hnil => h (by rw [hnil]; rfl)
    simp [hne]
  · next h =>
    split
    · next hempty => simpa using hempty
    · next hempty => simpa using hempty

/-! ## Errors about the whole -/

/-- An error about all that has been loaded. -/
def IsOfWhole : ConfigurationError → Prop
  | .duplicateIds _ | .noRules => True
  | _ => False

theorem FailsWith.before {α : Type} {x : Except ConfigurationError α} (h : FailsWith IsLocal x) :
    FailsWith (¬ IsOfWhole ·) x := by
  intro e he hwhole
  have hlocal := h e he
  cases e with
  | duplicateIds | noRules => exact hlocal
  | _ => exact hwhole

theorem failsBefore_loadImports
    (hfile : ∀ visited q hq, FailsWith (¬ IsOfWhole ·) (loadFile s g ancestors visited q hq))
    (references : List Path) :
    FailsWith (¬ IsOfWhole ·) (loadImports s g ancestors visited references) := by
  induction references generalizing visited with
  | nil =>
    rw [loadImports_nil]
    exact failsWith_ok _
  | cons reference rest ih =>
    cases hl : s.locate reference with
    | error e =>
      rw [loadImports_unlocated hl]
      have hbefore : ¬IsOfWhole e := (failsLocally_locate reference).before e hl
      exact failsWith_error hbefore
    | ok q =>
      rw [loadImports_located hl]
      exact (hfile visited q _).bind fun first => ih.bind fun others => failsWith_ok _

/-- While files are loaded, nothing is said of the rules as a whole. -/
theorem failsBefore_loadFile (hg : ∀ e, FailsWith IsLocal (g.create e)) (ancestors : List Path) :
    ∀ visited p hp, FailsWith (¬ IsOfWhole ·) (loadFile s g ancestors visited p hp) := by
  induction ancestors using ancestors_induction s with
  | step ancestors ih =>
    intro visited p hp
    by_cases ha : p ∈ ancestors
    · rw [loadFile_ancestor ha]
      exact failsWith_error not_false
    by_cases hv : p ∈ visited
    · rw [loadFile_visited ha hv]
      exact failsWith_ok _
    rw [loadFile_fresh ha hv]
    have hfailsWith : FailsWith IsLocal (document s p) := failsLocally_document p
    refine hfailsWith.before.bind fun root => ?_
    have hfailsWith' : FailsWith (¬IsOfWhole ·)
        (loadImports s g (p :: ancestors) (p :: visited) (imports p root)) :=
      failsBefore_loadImports (ih p hp ha) _
    refine hfailsWith'.bind fun imported => ?_
    have hown : FailsWith IsLocal (own g root) :=
      failsWith_own (fun _ _ => trivial) hg root
    exact hown.before.bind fun file => failsWith_ok _

/-! ## What is checked -/

theorem rules_of_declaresRules {p : Path} {rules : List Rule} (h : DeclaresRules s g p rules) :
    (contribution s g p).rules = rules := by
  obtain ⟨root, hroot, hbuilt⟩ := h
  rw [← ruleElements_eq (check_of_document hroot)] at hbuilt
  have hown : own g root = .ok ⟨rules, Order.ofList (ownExemptions root)⟩ :=
    own_eq_ok.mpr ⟨rules, buildRules_eq_ok.mpr hbuilt, rfl⟩
  rw [contribution_eq hroot hown]

/-- An order in which files are merged and what these files hold leave nothing open. -/
theorem Merges.eq_gather {start : Path} {order : List Path} {merged : RulesFile}
    (h : Merges s g start order merged) (hload : ∀ q ∈ order, Loadable s g q) :
    merged = gather s g order := by
  obtain ⟨rules, exemptions⟩ := merged
  obtain ⟨declared, hdeclared, hrules⟩ := h.rules
  have hsame : order.map (fun p => (contribution s g p).rules) = declared := by
    rw [← List.forall₂_eq_eq_eq, List.forall₂_map_left_iff]
    exact hdeclared.imp fun p rules hp => rules_of_declaresRules hp
  have hexemptions : exemptions = (gather s g order).exemptions := by
    refine h.sorted.eq_of_mem_iff (Order.sorted_ofList _) fun x => ?_
    rw [h.exemptions, gather, Order.mem_ofList, List.mem_flatMap]
    refine exists_congr fun p => and_congr_right fun hp => ?_
    have hloadable : Loadable s g p := hload p hp
    exact (mem_exemptions_contribution hloadable x).symm
  have hrules' : rules = (gather s g order).rules := by
    rw [show rules = declared.flatten from hrules, ← hsame]
    exact List.flatMap_def.symm
  rw [hrules', hexemptions]

theorem Assembled.load_eq {start : Path} {l : List Path} {merged : RulesFile}
    (h : Assembled s g entry start l merged) : load s g entry = checkLoaded merged := by
  have hload : ∀ q ∈ l, Loadable s g q := fun q hq => h.loadable q (h.unfolds.reaches_of_mem hq)
  rw [load_of_unfolding h.located h.unfolds hload,
    h.merges.eq_gather fun q hq => hload q (List.mem_eraseDups.mp hq)]

theorem assembled_gather {start : Path} {l : List Path} (hl : s.locate entry = .ok start)
    (hu : Unfolding s start l) (hload : ∀ q ∈ l, Loadable s g q) :
    Assembled s g entry start l (gather s g l.eraseDups) := by
  have hmerges : Merges s g start l.eraseDups (gather s g l.eraseDups) :=
    merges_of_unfolding hu hload
  have hloadable : ∀ q, Reaches s start q → Loadable s g q :=
    fun q hq => hload q (hu.mem_iff.mpr hq)
  exact ⟨hl, hu, hloadable, hmerges⟩

/-- A load that comes to an error about the whole has assembled it. -/
theorem load_eq_error_iff (hg : ∀ e, FailsWith IsLocal (g.create e)) {err : ConfigurationError}
    (herr : IsOfWhole err) : load s g entry = .error err ↔
      ∃ merged, Assembles s g entry merged ∧ checkLoaded merged = .error err := by
  constructor
  · intro h
    cases hl : s.locate entry with
    | error e =>
      rw [load_unlocated hl] at h
      have hfailsWith : FailsWith IsLocal (s.locate entry) := failsLocally_locate entry
      exact absurd herr (Except.error.inj h ▸ hfailsWith.before e hl)
    | ok start =>
      have hfile := s.mem_paths_of_locate hl
      cases hloaded : loadFile s g [] [] start hfile with
      | error e =>
        rw [load_located hl, hloaded] at h
        exact absurd herr (Except.error.inj h ▸ failsBefore_loadFile hg [] [] start hfile e hloaded)
      | ok loaded =>
        obtain ⟨l, hu, hload⟩ := exists_unfolding_of_loadFile hloaded
        rw [load_of_unfolding hl hu hload] at h
        have hassembledGather : Assembled s g entry start l (gather s g l.eraseDups) :=
          assembled_gather hl hu hload
        exact ⟨_, ⟨start, l, hassembledGather⟩, h⟩
  · rintro ⟨merged, ⟨start, l, hassembled⟩, hcheck⟩
    rw [hassembled.load_eq, hcheck]

/-- The ids of what is loaded differ. That ids are shared is reported exactly where everything
below the entry was merged and some rules of the merge carry one id, with all such ids in order;
that there are no rules exactly where the whole merge has none. An id that a factory has set is
never overwritten: an element that has one more is refused, and nothing is loaded with it. -/
theorem load_uniqueIds (s : Source) (builtIns : Bool) (extensions : List ExtensionFactory)
    (entry : Path) :
    let g := Registry.offered builtIns extensions
    (∀ result, load s g entry = .ok result → (result.rules.filterMap (·.id)).Nodup) ∧
    (∀ ids, load s g entry = .error (.duplicateIds ids) ↔
      ids ≠ [] ∧ ids.Pairwise (· < ·) ∧
        ∃ merged, Assembles s g entry merged ∧ ∀ id, id ∈ ids ↔ Shared merged.rules id) ∧
    (load s g entry = .error .noRules ↔
      ∃ merged, Assembles s g entry merged ∧ merged.rules = []) ∧
    (∀ e rule, buildRule g e = .ok rule ↔
      ∃ created, g.create e = .ok created ∧ Identified (e.attr? "id") created rule) ∧
    ∀ e created existing id, g.create e = .ok created → created.id = some existing →
      e.attr? "id" = some id →
      buildRule g e = .error (.idAlreadyAssigned existing id) ∧
      (∀ root before after, check root = .ok () →
        declarations root .rules = before ++ e :: after →
        (∀ b ∈ before, ∃ rule, buildRule g b = .ok rule) →
        own g root = .error (.idAlreadyAssigned existing id)) ∧
      ∀ start p root, s.locate entry = .ok start → Reaches s start p → document s p = .ok root →
        e ∈ declarations root .rules → ∀ result, load s g entry ≠ .ok result := by
  intro g
  have hg : ∀ e, FailsWith IsLocal (g.create e) := failsLocally_offered builtIns extensions
  refine ⟨fun result h => ?_, fun ids => ?_, ?_, fun e rule => buildRule_eq_ok, ?_⟩
  · obtain ⟨-, -, -, -, -, -, hids, -⟩ := load_eq_ok_iff.mp h
    exact nodup_of_duplicateIds hids
  · have hwhole : IsOfWhole (.duplicateIds ids) := trivial
    rw [load_eq_error_iff hg hwhole]
    simp only [checkLoaded_eq_duplicateIds]
    constructor
    · rintro ⟨merged, hmerged, hne, hsorted, hmem⟩
      exact ⟨hne, hsorted, merged, hmerged, hmem⟩
    · rintro ⟨hne, hsorted, merged, hmerged, hmem⟩
      exact ⟨merged, hmerged, hne, hsorted, hmem⟩
  · have hwhole : IsOfWhole .noRules := trivial
    rw [load_eq_error_iff hg hwhole]
    simp only [checkLoaded_eq_noRules]
  · intro e created existing id hcreate hpreset hid
    have hrefused := buildRule_of_preset hcreate hpreset hid
    exact ⟨hrefused, fun root before after hroot hsplit hbefore =>
      own_of_refused hroot hsplit hbefore hrefused, fun start p root hl hr hroot hdeclared =>
      load_ne_ok_of_refused hl hr hroot hdeclared hrefused⟩

end FlowLint.RulesFile

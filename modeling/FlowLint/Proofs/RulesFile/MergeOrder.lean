import FlowLint.Catalog.Factory
import FlowLint.Proofs.RulesFile.Loading

/-!
# What is merged, and in which order

A successful load holds what the files below the entry hold by themselves, in the order of
their first occurrence in the unfolding of the entry: every file once, after all that it
imports. `load_eq_ok_iff` says when a load succeeds and with what, without speaking of the
files seen or in progress; the statement about declarations is read off from it.
-/

namespace FlowLint.RulesFile

variable {s : Source} {g : Registry} {ancestors visited : List Path} {p q : Path} {l : List Path}

/-! ## What files declare -/

/-- The rules that the entries of a file's section of rules configure, in document order. -/
def DeclaresRules (s : Source) (g : Registry) (p : Path) (rules : List Rule) : Prop :=
  ∃ root, document s p = .ok root ∧
    List.Forall₂ (fun e rule => buildRule g e = .ok rule) (declarations root .rules) rules

/-- A pair of a rule and an artifact that some exemption of a file names. -/
def DeclaresExemption (s : Source) (p : Path) (x : Exemption) : Prop :=
  ∃ root, document s p = .ok root ∧ ∃ e ∈ declarations root .exemptions, Grants e x

/-- The files that are reached, each once and after all it imports, have been merged in an
order: their rules one after the other, and the union of their exemptions. -/
structure Merges (s : Source) (g : Registry) (start : Path) (order : List Path)
    (result : RulesFile) : Prop where
  nodup : order.Nodup
  mem_iff : ∀ p, p ∈ order ↔ Reaches s start p
  imported_first : ∀ p q, p ∈ order → Imports s p q → [q, p].Sublist order
  rules : ∃ declared, List.Forall₂ (DeclaresRules s g) order declared ∧
    result.rules = declared.flatten
  exemptions : ∀ x, x ∈ result.exemptions ↔ ∃ p ∈ order, DeclaresExemption s p x
  sorted : result.exemptions.Pairwise (· < ·)

/-! ## What files hold together -/

/-- What a file holds by itself; nothing if it is not in order. -/
def contribution (s : Source) (g : Registry) (p : Path) : RulesFile :=
  match document s p >>= own g with
  | .ok file => file
  | .error _ => {}

/-- What several files hold, in order. -/
def gather (s : Source) (g : Registry) (order : List Path) : RulesFile :=
  ⟨order.flatMap fun p => (contribution s g p).rules,
    Order.ofList (order.flatMap fun p => (contribution s g p).exemptions)⟩

/-- Rules are built one by one, each from its element. -/
theorem buildRules_eq_ok {es : List Markup.Element} {rules : List Rule} :
    buildRules g es = .ok rules ↔
      List.Forall₂ (fun e rule => buildRule g e = .ok rule) es rules := by
  induction es generalizing rules with
  | nil =>
    rw [List.forall₂_nil_left_iff, buildRules, Except.ok.injEq]
    exact eq_comm
  | cons e rest ih =>
    rw [buildRules, bind_eq_ok, List.forall₂_cons_left_iff]
    refine exists_congr fun rule => ?_
    rw [bind_eq_ok]
    constructor
    · rintro ⟨hrule, others, hothers, h⟩
      exact ⟨others, hrule, ih.mp hothers, (Except.ok.inj h).symm⟩
    · rintro ⟨others, hrule, hothers, rfl⟩
      exact ⟨hrule, others, ih.mpr hothers, rfl⟩

theorem own_eq_ok {root : Markup.Element} {file : RulesFile} :
    own g root = .ok file ↔ ∃ rules, buildRules g (ruleElements root) = .ok rules ∧
      file = ⟨rules, Order.ofList (ownExemptions root)⟩ := by
  unfold own
  cases buildRules g (ruleElements root) with
  | error e =>
    constructor
    · intro h
      cases h
    · rintro ⟨rules, h, -⟩
      cases h
  | ok rules =>
    constructor
    · intro h
      exact ⟨rules, rfl, (Except.ok.inj h).symm⟩
    · rintro ⟨_, h, rfl⟩
      cases h
      rfl

theorem contribution_eq {root : Markup.Element} {file : RulesFile} (hroot : document s p = .ok root)
    (hown : own g root = .ok file) : contribution s g p = file := by
  simp only [contribution, hroot, bind, Except.bind, hown]

@[simp] theorem gather_append (l m : List Path) :
    gather s g (l ++ m) = (gather s g l).merge (gather s g m) := by
  simp only [gather, merge, addExemptions, List.flatMap_append, Order.union_ofList]
  congr 1
  rw [Order.ofList_eq_ofList_iff]
  intro x
  rw [List.mem_append, List.mem_append, Order.mem_ofList]
  exact or_comm

theorem gather_singleton {root : Markup.Element} {file : RulesFile}
    (hroot : document s p = .ok root) (hown : own g root = .ok file) : gather s g [p] = file := by
  obtain ⟨rules, -, hfile⟩ := own_eq_ok.mp hown
  have hsorted : Order.ofList file.exemptions = file.exemptions := by
    rw [hfile, Order.ofList_eq_ofList_iff]
    exact fun x => Order.mem_ofList x _
  simp only [gather, List.flatMap_cons, List.flatMap_nil, List.append_nil,
    contribution_eq hroot hown, hsorted]

/-! ## A load that must succeed -/

/-- A load returns what the files of a list hold that were not seen before, and has seen them
all afterwards. -/
def Completes (s : Source) (g : Registry) (visited l : List Path)
    (outcome : Except ConfigurationError Progress) : Prop :=
  ∃ seen, outcome = .ok ⟨gather s g (fresh visited l), seen⟩ ∧
    ∀ q, q ∈ seen ↔ q ∈ visited ∨ q ∈ l

theorem Closed.extend {seen : List Path} (h : Closed s ancestors visited) (hu : Unfolding s q l)
    (hseen : ∀ c, c ∈ seen ↔ c ∈ visited ∨ c ∈ l) : Closed s ancestors seen := by
  intro x hx ha c hc
  rw [hseen] at hx ⊢
  exact hx.imp (fun hx => h x hx ha c hc) (fun hx => hu.mem_of_imports hx hc)

/-- Imports of loadable files are loaded, each file once, in the order of first visits. -/
theorem loadImports_completes {below : Path → List Path} {references qs : List Path}
    (hlocated : List.Forall₂ (fun r q => s.locate r = .ok q) references qs)
    (hu : ∀ q ∈ qs, Unfolding s q (below q))
    (hfile : ∀ q ∈ qs, ∀ visited hq, Closed s ancestors visited →
      Completes s g visited (below q) (loadFile s g ancestors visited q hq))
    (hclosed : Closed s ancestors visited) :
    Completes s g visited (qs.flatMap below) (loadImports s g ancestors visited references) := by
  induction hlocated generalizing visited with
  | nil => exact ⟨visited, loadImports_nil, by simp⟩
  | @cons r q rest qs hl _ ih =>
    obtain ⟨seen, hfirst, hseen⟩ :=
      hfile q List.mem_cons_self visited (s.mem_paths_of_locate hl) hclosed
    have hextend : Closed s ancestors seen := hclosed.extend (hu q List.mem_cons_self) hseen
    have hlater : ∀ q ∈ qs, Unfolding s q (below q) :=
      fun q hq => hu q (List.mem_cons_of_mem _ hq)
    obtain ⟨seen', hrest, hseen'⟩ :=
      ih hlater (fun q hq => hfile q (List.mem_cons_of_mem _ hq)) hextend
    refine ⟨seen', ?_, fun c => ?_⟩
    · rw [loadImports_located hl, hfirst]
      simp only [bind, Except.bind, hrest]
      rw [List.flatMap_cons, fresh_append hseen, gather_append]
      rfl
    · rw [hseen', hseen, List.flatMap_cons, List.mem_append, or_assoc]

theorem located_targets {references : List Path}
    (h : ∀ r ∈ references, ∃ q, s.locate r = .ok q) :
    List.Forall₂ (fun r q => s.locate r = .ok q) references
      (references.filterMap fun r => (s.locate r).toOption) := by
  induction references with
  | nil => exact .nil
  | cons r rest ih =>
    obtain ⟨q, hq⟩ := h r List.mem_cons_self
    rw [List.filterMap_cons_some (by rw [hq]; rfl)]
    have hforall : List.Forall₂ (fun r q => s.locate r = .ok q) rest
        (rest.filterMap (fun r => (s.locate r).toOption)) :=
      ih fun r hr => h r (List.mem_cons_of_mem _ hr)
    exact .cons hq hforall

/-- A file is loaded if its chains of imports end, all below it is in order and none of it is
being loaded already. -/
theorem loadFile_completes (hu : Unfolding s p l) :
    ∀ {ancestors visited} (hp : p ∈ s.paths), (∀ q ∈ l, Loadable s g q) →
      (∀ a ∈ ancestors, a ∉ l) → Closed s ancestors visited →
      Completes s g visited l (loadFile s g ancestors visited p hp) := by
  induction hu with
  | @intro p below hbelow ih =>
    intro ancestors visited hp hload hidle hclosed
    have hself := Unfolding.intro below hbelow
    have ha : p ∉ ancestors := fun ha => hidle p ha hself.self_mem
    by_cases hv : p ∈ visited
    · have hall : ∀ c ∈ (targets s p).flatMap below ++ [p], c ∈ visited := fun c hc =>
        hclosed.mem_of_reaches (fun c hc ha => hidle c ha (hself.mem_iff.mpr hc)) hv
          (hself.reaches_of_mem hc)
      refine ⟨visited, ?_, fun c => ⟨.inl, fun hc => hc.elim id (hall c)⟩⟩
      rw [loadFile_visited ha hv, fresh_eq_nil hall]
      rfl
    · obtain ⟨root, file, hroot, hrefs, hown⟩ := hload p hself.self_mem
      have hp' : p ∉ (targets s p).flatMap below := Unfolding.not_mem_below hbelow
      have hmem : ∀ t ∈ targets s p, ∀ c ∈ below t, c ∈ (targets s p).flatMap below :=
        fun t ht c hc => List.mem_flatMap.mpr ⟨t, ht, hc⟩
      have hlocated := located_targets hrefs
      rw [← targets_eq hroot] at hlocated
      have hfile : ∀ t ∈ targets s p, ∀ visited hq, Closed s (p :: ancestors) visited →
          Completes s g visited (below t) (loadFile s g (p :: ancestors) visited t hq) := by
        intro t ht visited hq hclosed
        refine ih t ht hq (fun c hc => ?_) (fun a ha hc => ?_) hclosed
        · exact hload c (List.mem_append_left _ (hmem t ht c hc))
        · rcases List.mem_cons.mp ha with rfl | ha
          · exact hp' (hmem t ht a hc)
          · exact hidle a ha (List.mem_append_left _ (hmem t ht a hc))
      obtain ⟨seen, himports, hseen⟩ :=
        loadImports_completes hlocated hbelow hfile hclosed.enter
      refine ⟨seen, ?_, fun c => ?_⟩
      · rw [loadFile_fresh ha hv, hroot]
        simp only [bind, Except.bind, himports, hown]
        rw [fresh_concat hv hp', gather_append, gather_singleton hroot hown]
        rfl
      · rw [hseen, List.mem_cons, List.mem_append, List.mem_singleton]
        tauto

theorem checkLoaded_eq_ok {file result : RulesFile} : checkLoaded file = .ok result ↔
    result = file ∧ duplicateIds result.rules = [] ∧ result.rules ≠ [] := by
  unfold checkLoaded
  constructor
  · intro h
    split at h
    · cases h
    · next hdup =>
      split at h
      · cases h
      · next hempty =>
        cases h
        exact ⟨rfl, not_not.mp hdup, by simpa using hempty⟩
  · rintro ⟨rfl, hdup, hrules⟩
    rw [if_neg (not_not.mpr hdup), if_neg (by simpa using hrules)]

/-- If the chains of imports from the entry end and every file below it is in order, all that is
left to a load is to check the whole. -/
theorem load_of_unfolding {entry start : Path} (hl : s.locate entry = .ok start)
    (hu : Unfolding s start l) (hload : ∀ q ∈ l, Loadable s g q) :
    load s g entry = checkLoaded (gather s g l.eraseDups) := by
  have hclosed : Closed s [] [] := fun q hq => absurd hq List.not_mem_nil
  have hdone : Completes s g [] l (loadFile s g [] [] start (s.mem_paths_of_locate hl)) :=
    loadFile_completes hu _ hload (fun a ha => absurd ha List.not_mem_nil) hclosed
  obtain ⟨seen, hseen, -⟩ := hdone
  rw [fresh_nil_left] at hseen
  rw [load_located hl, hseen]
  rfl

/-- A file that could be loaded has an unfolding, and every file of it is in order. -/
theorem exists_unfolding_of_loadFile {hp : p ∈ s.paths} {loaded : Progress}
    (h : loadFile s g [] [] p hp = .ok loaded) :
    ∃ l, Unfolding s p l ∧ ∀ q ∈ l, Loadable s g q := by
  obtain ⟨hground, hload⟩ := loadable_of_loadFile h
  obtain ⟨l, hu⟩ := hground.exists_unfolding
  have hloadable : ∀ q ∈ l, Loadable s g q := fun q hq => hload q (hu.reaches_of_mem hq)
  exact ⟨l, hu, hloadable⟩

/-- A load succeeds exactly if the chains of imports from the entry end, every file below it
is in order, no two rules share an id and there is a rule at all. -/
theorem load_eq_ok_iff {entry : Path} {result : RulesFile} :
    load s g entry = .ok result ↔ ∃ start l, s.locate entry = .ok start ∧ Unfolding s start l ∧
      (∀ q ∈ l, Loadable s g q) ∧ result = gather s g l.eraseDups ∧
      duplicateIds result.rules = [] ∧ result.rules ≠ [] := by
  constructor
  · intro h
    obtain ⟨start, hp, loaded, hstart, hloaded, -⟩ := load_eq_ok h
    obtain ⟨l, hu, hload⟩ := exists_unfolding_of_loadFile hloaded
    rw [load_of_unfolding hstart hu hload] at h
    obtain ⟨rfl, hdup, hrules⟩ := checkLoaded_eq_ok.mp h
    exact ⟨start, l, hstart, hu, hload, rfl, hdup, hrules⟩
  · rintro ⟨start, l, hstart, hu, hload, rfl, hdup, hrules⟩
    rw [load_of_unfolding hstart hu hload]
    exact checkLoaded_eq_ok.mpr ⟨rfl, hdup, hrules⟩

/-- A file that imports none is loaded by itself. -/
theorem load_of_leaf {entry : Path} {root : Markup.Element} {file : RulesFile}
    (hl : s.locate entry = .ok p) (hroot : document s p = .ok root) (himports : imports p root = [])
    (hown : own g root = .ok file) (hids : duplicateIds file.rules = []) (hrules : file.rules ≠ []) :
    load s g entry = .ok file := by
  have hloadable : Loadable s g p := by
    refine ⟨root, file, hroot, fun r hr => ?_, hown⟩
    rw [himports] at hr
    exact absurd hr List.not_mem_nil
  have hleaf : Unfolding s p [p] := .leaf (by rw [targets_eq hroot, himports]; rfl)
  have honce : [p].eraseDups = [p] := by simp [List.eraseDups_cons]
  refine load_eq_ok_iff.mpr ⟨p, [p], hl, hleaf, List.forall_mem_singleton.mpr hloadable, ?_, hids,
    hrules⟩
  rw [honce, gather_singleton hroot hown]

/-! ## What a load declares -/

theorem declaresRules_contribution (h : Loadable s g p) :
    DeclaresRules s g p (contribution s g p).rules := by
  obtain ⟨root, file, hroot, -, hown⟩ := h
  obtain ⟨rules, hrules, hfile⟩ := own_eq_ok.mp hown
  rw [contribution_eq hroot hown, hfile]
  rw [ruleElements_eq (check_of_document hroot)] at hrules
  exact ⟨root, hroot, buildRules_eq_ok.mp hrules⟩

theorem mem_exemptions_contribution (h : Loadable s g p) (x : Exemption) :
    x ∈ (contribution s g p).exemptions ↔ DeclaresExemption s p x := by
  obtain ⟨root, file, hroot, -, hown⟩ := h
  obtain ⟨rules, -, hfile⟩ := own_eq_ok.mp hown
  rw [contribution_eq hroot hown, hfile, Order.mem_ofList,
    mem_ownExemptions_iff (check_of_document hroot)]
  constructor
  · intro hx
    exact ⟨root, hroot, hx⟩
  · rintro ⟨root', hroot', hx⟩
    obtain rfl := Except.ok.inj (hroot.symm.trans hroot')
    exact hx

/-- What is gathered along the unfolding is the merge. -/
theorem merges_of_unfolding {start : Path} (hu : Unfolding s start l)
    (hload : ∀ q ∈ l, Loadable s g q) : Merges s g start l.eraseDups (gather s g l.eraseDups) := by
  have hload : ∀ q ∈ l.eraseDups, Loadable s g q := fun q hq => hload q (List.mem_eraseDups.mp hq)
  constructor
  · exact nodup_eraseDups l
  · intro p
    rw [List.mem_eraseDups, hu.mem_iff]
  · intro p q hp hi
    exact pair_sublist_eraseDups (List.mem_eraseDups.mp hp) fun before after hl =>
      hu.imports_before hl hi
  · refine ⟨l.eraseDups.map fun q => (contribution s g q).rules, ?_, List.flatMap_def⟩
    rw [List.forall₂_map_right_iff, List.forall₂_same]
    exact fun q hq => declaresRules_contribution (hload q hq)
  · intro x
    rw [gather, Order.mem_ofList, List.mem_flatMap]
    refine exists_congr fun q => and_congr_right fun hq => ?_
    have hloadable : Loadable s g q := hload q hq
    exact mem_exemptions_contribution hloadable x
  · exact Order.sorted_ofList _

/-- A load of files in memory merges the files that the entry leads to, each under its
normalized path and once, in the order in which the unfolding of the entry comes to them. -/
theorem load_merges_reachable {files : List (Path × String)} {entry : Path} {result : RulesFile}
    (h : load (.ofFiles files) g entry = .ok result) :
    ∃ l, Unfolding (.ofFiles files) entry.normalize l ∧
      Merges (.ofFiles files) g entry.normalize l.eraseDups result ∧
      ∀ p ∈ l.eraseDups, ∃ f ∈ files, p = f.1.normalize := by
  obtain ⟨start, l, hstart, hu, hload, hresult, -, -⟩ := load_eq_ok_iff.mp h
  obtain ⟨rfl, hmem⟩ := locate_ofFiles.mp hstart
  have hmerges := merges_of_unfolding hu hload
  refine ⟨l, hu, hresult ▸ hmerges, fun p hp => ?_⟩
  have hstored : p ∈ files.map (·.1.normalize) := by
    rcases Relation.ReflTransGen.cases_tail ((hmerges.mem_iff p).mp hp) with heq | ⟨q, -, hi⟩
    · rw [heq]
      exact hmem
    · obtain ⟨r, hr⟩ := located_of_imports hi
      exact (locate_ofFiles.mp hr).2
  obtain ⟨f, hf, hp⟩ := List.mem_map.mp hstored
  exact ⟨f, hf, hp.symm⟩

/-- A document that holds nothing but imports, with some text between them. -/
def importing (content : String) (references : List String) : Markup.Element :=
  let entries := references.map (Markup.Element.named "import").withText
  .withChild (.named "cpilint") ⟨none, "imports", [], entries, content⟩

/-- Two ways to one file, which spell its path differently. -/
def diamond : List (Path × String) :=
  [(⟨"top"⟩, "<cpilint><imports><import>d/mid</import><import>./low</import></imports></cpilint>"),
    (⟨"d/mid"⟩, "<cpilint><imports><import>../low</import></imports></cpilint>"),
    (⟨"low"⟩, "<cpilint><rules><csrf-protection-required/></rules></cpilint>")]

theorem unfolding_diamond :
    Unfolding (.ofFiles diamond) ⟨"top"⟩ [⟨"low"⟩, ⟨"d/mid"⟩, ⟨"low"⟩, ⟨"top"⟩] := by
  have hlow : Unfolding (.ofFiles diamond) ⟨"low"⟩ [⟨"low"⟩] := .leaf (by decide +kernel)
  have hmid : targets (.ofFiles diamond) ⟨"d/mid"⟩ = [⟨"low"⟩] := by decide +kernel
  have htop : targets (.ofFiles diamond) ⟨"top"⟩ = [⟨"d/mid"⟩, ⟨"low"⟩] := by decide +kernel
  refine .of_targets (fun q => if q = ⟨"low"⟩ then [q] else [⟨"low"⟩, q]) htop ?_
  refine List.forall_mem_cons.mpr ⟨?_, List.forall_mem_singleton.mpr hlow⟩
  exact .of_targets (fun q => [q]) hmid (List.forall_mem_singleton.mpr hlow)

theorem load_diamond : load (.ofFiles diamond) Catalog.registry ⟨"./top"⟩ =
    .ok (gather (.ofFiles diamond) Catalog.registry [⟨"low"⟩, ⟨"d/mid"⟩, ⟨"top"⟩]) := by
  refine load_eq_ok_iff.mpr ⟨⟨"top"⟩, _, ?_, unfolding_diamond, ?_, rfl, ?_, ?_⟩
  · exact locate_ofFiles.mpr ⟨by decide +kernel, by decide +kernel⟩
  · decide +kernel
  · decide +kernel
  · rw [← List.isEmpty_eq_false_iff]
    decide +kernel

/-- The shared file of the diamond is merged once, before both files that import it. -/
theorem load_merges_diamond : ∃ result,
    load (.ofFiles diamond) Catalog.registry ⟨"./top"⟩ = .ok result ∧
    ∃ l, Unfolding (.ofFiles diamond) (Path.normalize ⟨"./top"⟩) l ∧
      Merges (.ofFiles diamond) Catalog.registry (Path.normalize ⟨"./top"⟩) l.eraseDups result ∧
      ∀ p ∈ l.eraseDups, ∃ f ∈ diamond, p = f.1.normalize :=
  ⟨_, load_diamond, load_merges_reachable load_diamond⟩

end FlowLint.RulesFile

import FlowLint.Catalog.BuiltIn
import FlowLint.Proofs.Catalog.Grouping
import FlowLint.Proofs.Rule.Deferral

/-!
# Contents that several resources share

The rule against duplicates is to raise one issue about each content that several resources of a
category have, and none about others. It looks at digests and not at contents, and tells resources
apart by the tag of their artifact and their name. So two things are assumed of the artifacts:
resources of one category can be told apart in this way, and the contents at hand have digests of
their own. Whether other contents have the same digests is of no importance.
-/

namespace FlowLint.Catalog

open FlowLint.Digest (sha256Hex)
open FlowLint.Flow (Artifact Category Resource Tag)

/-! ## Resources of a run -/

/-- A resource with the tag of the artifact that holds it. -/
structure Holding where
  tag : Tag
  resource : Resource

namespace Holding

/-- What a group keeps of the resource. -/
def member (x : Holding) : Member :=
  ⟨x.tag, x.resource.name⟩

def digest (x : Holding) : String :=
  sha256Hex x.resource.content

end Holding

/-- The resources of artifacts. -/
def holdings (artifacts : List Artifact) : List Holding :=
  artifacts.flatMap fun a => a.resources.map (⟨a.tag, ·⟩)

/-- The resources of a category that have a content. -/
def holders (artifacts : List Artifact) (c : Category) (content : List UInt8) : List Member :=
  ((holdings artifacts).filter fun x => x.resource.category = c ∧ x.resource.content = content).map
    Holding.member

/-- No two resources of a category share the tag of their artifact and their name. -/
def NamedApart (artifacts : List Artifact) : Prop :=
  (holdings artifacts).Pairwise fun x y =>
    x.resource.category = y.resource.category → x.member ≠ y.member

/-- No two contents at hand share their digest. -/
def DigestsApart (artifacts : List Artifact) : Prop :=
  ∀ x ∈ holdings artifacts, ∀ y ∈ holdings artifacts,
    x.digest = y.digest → x.resource.content = y.resource.content

/-- What groups a resource of a category that has a content. -/
def contentKey (shared : Category × List UInt8) : ContentKey :=
  ⟨shared.1, sha256Hex shared.2⟩

/-- The issue names the resources of a category that have a content, sorted, and their artifacts. -/
structure ReportsShared (id : Option String) (artifacts : List Artifact)
    (shared : Category × List UInt8) (i : Issue) : Prop where
  ruleId : i.ruleId = id
  resources : ∃ members : List Member, members.Perm (holders artifacts shared.1 shared.2) ∧
    members.Pairwise (· < ·) ∧
    i.detail = .duplicateResources shared.1.token (sha256Hex shared.2)
      (members.map fun m => ⟨m.tag.id, m.name⟩) ∧
    i.message = s!"Duplicate {shared.1.token} resources: " ++
      ", ".intercalate (members.map fun m => s!"'{m.name}' in {m.tag.display}")
  tags : ∀ t, t ∈ i.tags ↔ ∃ m ∈ holders artifacts shared.1 shared.2, m.tag = t
  sorted : i.tags.Pairwise (· < ·)

variable {categories : List Category} {artifacts : List Artifact} {c : Category}
  {content : List UInt8}

theorem mem_holders {m : Member} : m ∈ holders artifacts c content ↔
    ∃ x ∈ holdings artifacts, x.resource.category = c ∧ x.resource.content = content ∧
      x.member = m := by
  simp [holders, and_assoc]

/-! ## Groups -/

/-- The entries of a run are those of its resources of checked categories. -/
theorem mem_entries {e : Entry} : e ∈ artifacts.flatMap (entriesOf categories) ↔
    ∃ x ∈ holdings artifacts, x.resource.category ∈ categories ∧
      e = ⟨⟨x.resource.category, x.digest⟩, x.member⟩ := by
  constructor
  · intro he
    obtain ⟨a, ha, he⟩ := List.mem_flatMap.mp he
    obtain ⟨c, hc, he⟩ := List.mem_flatMap.mp he
    obtain ⟨r, hr, rfl⟩ := List.mem_map.mp he
    obtain ⟨hr, hcategory⟩ := List.mem_filter.mp hr
    have hcategory : r.category = c := of_decide_eq_true hcategory
    refine ⟨⟨a.tag, r⟩, ?_, hcategory ▸ hc, rfl⟩
    exact List.mem_flatMap.mpr ⟨a, ha, List.mem_map_of_mem hr⟩
  · rintro ⟨x, hx, hcategory, rfl⟩
    obtain ⟨a, ha, hx⟩ := List.mem_flatMap.mp hx
    obtain ⟨r, hr, rfl⟩ := List.mem_map.mp hx
    refine List.mem_flatMap.mpr ⟨a, ha, List.mem_flatMap.mpr ⟨r.category, hcategory, ?_⟩⟩
    have hmem : r ∈ a.resourcesOf r.category := List.mem_filter.mpr ⟨hr, decide_eq_true rfl⟩
    exact List.mem_map_of_mem (f := entryOf a) hmem

/-- The members that entries have under a key. -/
def membersAt (entries : List Entry) (key : ContentKey) : List Member :=
  Order.ofList ((entries.filter (·.key = key)).map (·.member))

@[simp] theorem mem_membersAt {entries : List Entry} {key : ContentKey} {m : Member} :
    m ∈ membersAt entries key ↔ ⟨key, m⟩ ∈ entries := by
  rw [membersAt, Order.mem_ofList, List.mem_map]
  constructor
  · rintro ⟨e, he, rfl⟩
    obtain ⟨he, hkey⟩ := List.mem_filter.mp he
    have hkey : e.key = key := of_decide_eq_true hkey
    rw [← hkey]
    exact he
  · intro he
    exact ⟨_, List.mem_filter.mpr ⟨he, decide_eq_true rfl⟩, rfl⟩

/-- The groups are the keys that occur, each with its members. -/
theorem mem_groupsOf {entries : List Entry} {g : Group} :
    g ∈ groupsOf entries ↔
      (∃ e ∈ entries, e.key = g.key) ∧ g.members = membersAt entries g.key := by
  have hkeys : ∀ key, key ∈ Order.ofList (entries.map (·.key)) ↔ ∃ e ∈ entries, e.key = key := by
    intro key
    rw [Order.mem_ofList, List.mem_map]
  constructor
  · intro hg
    obtain ⟨key, hkey, rfl⟩ := List.mem_map.mp hg
    exact ⟨(hkeys key).mp hkey, rfl⟩
  · rintro ⟨hkey, hmembers⟩
    refine List.mem_map.mpr ⟨g.key, (hkeys g.key).mpr hkey, ?_⟩
    cases g
    exact congrArg _ hmembers.symm

/-- Groups come in the order of their keys, no two with the same. -/
theorem sorted_groupsOf (entries : List Entry) :
    (groupsOf entries).Pairwise fun g g' => g.key < g'.key :=
  List.pairwise_map.mpr (Order.sorted_ofList _)

/-- With names apart nobody holds one content twice. -/
theorem nodup_holders (hnames : NamedApart artifacts) : (holders artifacts c content).Nodup := by
  rw [holders, List.Nodup, List.pairwise_map]
  refine (hnames.filter _).imp_of_mem ?_
  intro x y hx hy hapart
  have hx := (of_decide_eq_true (List.mem_filter.mp hx).2).1
  have hy := (of_decide_eq_true (List.mem_filter.mp hy).2).1
  exact hapart (hx.trans hy.symm)

/-- Under the key of a content at hand stand the resources that have this content. -/
theorem perm_membersAt (hnames : NamedApart artifacts) (hdigests : DigestsApart artifacts)
    (hc : c ∈ categories) {x : Holding} (hx : x ∈ holdings artifacts) :
    (membersAt (artifacts.flatMap (entriesOf categories)) ⟨c, x.digest⟩).Perm
      (holders artifacts c x.resource.content) := by
  have hsorted : (membersAt (artifacts.flatMap (entriesOf categories)) ⟨c, x.digest⟩).Nodup :=
    (Order.sorted_ofList _).imp ne_of_irrefl
  have hnodup : (holders artifacts c x.resource.content).Nodup := nodup_holders hnames
  refine (List.perm_ext_iff_of_nodup hsorted hnodup).mpr fun m => ?_
  rw [mem_membersAt, mem_entries, mem_holders]
  constructor
  · rintro ⟨y, hy, -, hentry⟩
    simp only [Entry.mk.injEq, ContentKey.mk.injEq] at hentry
    obtain ⟨⟨hcategory, hdigest⟩, hmember⟩ := hentry
    have hcontent := hdigests x hx y hy hdigest
    exact ⟨y, hy, hcategory.symm, hcontent.symm, hmember.symm⟩
  · rintro ⟨y, hy, rfl, hcontent, rfl⟩
    have hdigest : y.digest = x.digest := congrArg sha256Hex hcontent
    exact ⟨y, hy, hc, by rw [hdigest]⟩

/-- A content at hand that has a digest. -/
def contentWith (artifacts : List Artifact) (digest : String) : List UInt8 :=
  (((holdings artifacts).find? (·.digest = digest)).map (·.resource.content)).getD []

/-- With digests apart a digest leads back to its content. -/
theorem contentWith_digest (hdigests : DigestsApart artifacts) {x : Holding}
    (hx : x ∈ holdings artifacts) : contentWith artifacts x.digest = x.resource.content := by
  have hsome : ((holdings artifacts).find? (·.digest = x.digest)).isSome :=
    List.find?_isSome.mpr ⟨x, hx, decide_eq_true rfl⟩
  obtain ⟨y, hy⟩ := Option.isSome_iff_exists.mp hsome
  have hdigest : y.digest = x.digest := by simpa using List.find?_some hy
  rw [contentWith, hy]
  exact hdigests y (List.mem_of_find?_eq_some hy) x hx hdigest

/-- The category and the content that a group is about. -/
def sharedOf (artifacts : List Artifact) (g : Group) : Category × List UInt8 :=
  (g.key.category, contentWith artifacts g.key.digest)

/-- The group of the resources of a category that have a content. -/
structure Gathers (artifacts : List Artifact) (shared : Category × List UInt8) (g : Group) :
    Prop where
  key : g.key = contentKey shared
  members : g.members.Perm (holders artifacts shared.1 shared.2)
  sorted : g.members.Pairwise (· < ·)

/-- Each group stands for one category and one content, with all its holders. -/
theorem gathers_of_mem_groupsOf (hnames : NamedApart artifacts) (hdigests : DigestsApart artifacts)
    {g : Group} (hg : g ∈ groupsOf (artifacts.flatMap (entriesOf categories))) :
    (sharedOf artifacts g).1 ∈ categories ∧ Gathers artifacts (sharedOf artifacts g) g := by
  obtain ⟨⟨e, he, hkey⟩, hmembers⟩ := mem_groupsOf.mp hg
  obtain ⟨x, hx, hcategory, rfl⟩ := mem_entries.mp he
  have hshared : sharedOf artifacts g = (x.resource.category, x.resource.content) := by
    rw [sharedOf, ← hkey]
    have hcontent : contentWith artifacts x.digest = x.resource.content :=
      contentWith_digest hdigests hx
    rw [hcontent]
  rw [hshared]
  refine ⟨hcategory, hkey.symm, ?_, ?_⟩
  · rw [hmembers, ← hkey]
    exact perm_membersAt hnames hdigests hcategory hx
  · rw [hmembers]
    exact Order.sorted_ofList _

/-- The contents of which several resources are told are those that several resources have. -/
theorem mem_map_sharedOf (hnames : NamedApart artifacts) (hdigests : DigestsApart artifacts) :
    (c, content) ∈ (duplicates categories artifacts).map (sharedOf artifacts) ↔
      c ∈ categories ∧ 2 ≤ (holders artifacts c content).length := by
  constructor
  · intro h
    obtain ⟨g, hg, hshared⟩ := List.mem_map.mp h
    obtain ⟨hg, hmany⟩ := List.mem_filter.mp hg
    obtain ⟨hcategory, hgathers⟩ := gathers_of_mem_groupsOf hnames hdigests hg
    rw [hshared] at hcategory hgathers
    refine ⟨hcategory, ?_⟩
    rw [← hgathers.members.length_eq]
    exact of_decide_eq_true hmany
  · rintro ⟨hc, hmany⟩
    have hsome : holders artifacts c content ≠ [] := by
      intro hnone
      simp [hnone] at hmany
    obtain ⟨m, hm⟩ := List.exists_mem_of_ne_nil _ hsome
    obtain ⟨x, hx, rfl, rfl, -⟩ := mem_holders.mp hm
    have hentry := mem_entries.mpr ⟨x, hx, hc, rfl⟩
    have hperm := perm_membersAt hnames hdigests hc hx
    refine List.mem_map.mpr ⟨⟨⟨x.resource.category, x.digest⟩, membersAt _ _⟩,
      List.mem_filter.mpr ⟨mem_groupsOf.mpr ⟨⟨_, hentry, rfl⟩, rfl⟩, ?_⟩, ?_⟩
    · rw [← hperm.length_eq] at hmany
      exact decide_eq_true hmany
    · have hcontent : contentWith artifacts x.digest = x.resource.content :=
        contentWith_digest hdigests hx
      rw [sharedOf, hcontent]

/-! ## Issues -/

theorem of_spanning? {detail : Detail} {tags : List Tag} {message : String} {i : Issue}
    (h : Issue.spanning? detail tags message = some i) : i.ruleId = none ∧ i.detail = detail ∧
      i.tags = sortTags tags ∧ i.message = message := by
  cases tags with
  | nil => cases h
  | cons t rest =>
    cases h
    exact ⟨rfl, rfl, rfl, rfl⟩

theorem exists_issue? {g : Group} (h : g.members ≠ []) : ∃ i, g.issue? = some i := by
  rw [Group.issue?]
  cases hmembers : g.members with
  | nil => exact absurd hmembers h
  | cons m rest => exact ⟨_, rfl⟩

theorem members_ne_nil {g : Group} (hg : g ∈ duplicates categories artifacts) : g.members ≠ [] := by
  intro hnone
  have hmany : 2 ≤ g.members.length := of_decide_eq_true (List.mem_filter.mp hg).2
  simp [hnone] at hmany

/-- Groups about each of which there is an issue are reported without failure, one by one. -/
theorem reportGroups_forall₂ {about : Group → Issue → Prop} {groups : List Group}
    (h : ∀ g ∈ groups, ∃ i, g.issue? = some i ∧ about g i) :
    (reportGroups groups).failure = none ∧
      List.Forall₂ about groups (reportGroups groups).issues := by
  induction groups with
  | nil => exact ⟨rfl, .nil⟩
  | cons g rest ih =>
    obtain ⟨⟨i, hi, habout⟩, hrest⟩ := List.forall_mem_cons.mp h
    obtain ⟨hfailure, hissues⟩ := ih hrest
    have hreport : reportGroups (g :: rest) =
        { reportGroups rest with issues := i :: (reportGroups rest).issues } := by
      rw [reportGroups, hi]
    rw [hreport]
    exact ⟨hfailure, .cons habout hissues⟩

/-- The issue of a group reports the content that the group gathers. -/
theorem reportsShared_of_gathers {shared : Category × List UInt8} {g : Group}
    (h : Gathers artifacts shared g) {i : Issue} (hi : g.issue? = some i) (id : Option String) :
    ReportsShared id artifacts shared (i.withRuleId id) := by
  obtain ⟨hrule, hdetail, htags, hmessage⟩ := of_spanning? hi
  have htag : ∀ t, t ∈ i.tags ↔ ∃ m ∈ holders artifacts shared.1 shared.2, m.tag = t := by
    intro t
    rw [htags, sortTags, Order.mem_ofList, List.mem_map]
    refine exists_congr fun m => and_congr_left fun _ => ?_
    exact h.members.mem_iff
  have hsorted : i.tags.Pairwise (· < ·) := by
    rw [htags]
    exact Order.sorted_ofList _
  refine ⟨?_, ⟨g.members, h.members, h.sorted, ?_, ?_⟩, htag, hsorted⟩
  · rw [Issue.withRuleId, hrule]
    rfl
  · have hkey : g.key = contentKey shared := h.key
    rw [Group.detail, hkey] at hdetail
    exact hdetail
  · have hkey : g.key = contentKey shared := h.key
    rw [Group.message, hkey] at hmessage
    exact hmessage

/-- The rule against duplicates waits for the end, does not fail there, and raises one issue for
each content that several resources of a checked category have, in the order of categories and then
of digests, which names these resources and no others. -/
theorem duplicates_reported (categories : List Category) (id : Option String)
    {artifacts : List Artifact} (hnames : NamedApart artifacts)
    (hdigests : DigestsApart artifacts) :
    ∃ (shared : List (Category × List UInt8)) (issues : List Issue),
      ({ (BuiltIn.duplicates categories).toRule with id } : Rule).Defers artifacts issues ∧
      (∀ c content, (c, content) ∈ shared ↔
        c ∈ categories ∧ 2 ≤ (holders artifacts c content).length) ∧
      (shared.Pairwise fun x y => contentKey x < contentKey y) ∧
      List.Forall₂ (ReportsShared id artifacts) shared issues := by
  let rule : Rule := { (BuiltIn.duplicates categories).toRule with id }
  let groups := duplicates categories artifacts
  have hgathers : ∀ g ∈ groups, Gathers artifacts (sharedOf artifacts g) g := by
    intro g hg
    exact (gathers_of_mem_groupsOf hnames hdigests (List.mem_filter.mp hg).1).2
  have hissue : ∀ g ∈ groups, ∃ i, g.issue? = some i ∧
      ReportsShared id artifacts (sharedOf artifacts g) (i.withRuleId id) := by
    intro g hg
    obtain ⟨i, hi⟩ := exists_issue? (members_ne_nil hg)
    exact ⟨i, hi, reportsShared_of_gathers (hgathers g hg) hi id⟩
  obtain ⟨hpassed, hissues⟩ := reportGroups_forall₂ hissue
  have hlogic : rule.logic = .perRun (finishDuplicates categories) := rfl
  have hdefers := Rule.defers_perRun hlogic rfl rfl hpassed
  refine ⟨groups.map (sharedOf artifacts), _, hdefers, ?_, ?_, ?_⟩
  · intro c content
    exact mem_map_sharedOf hnames hdigests
  · rw [List.pairwise_map]
    refine ((sorted_groupsOf _).filter _).imp_of_mem ?_
    intro g g' hg hg' hlt
    rw [← (hgathers g hg).key, ← (hgathers g' hg').key]
    exact hlt
  · rw [List.forall₂_map_left_iff, List.forall₂_map_right_iff]
    exact hissues

/-- Two flows with a script in common. The text of it stands in a second category too. -/
def commonScript : List Artifact :=
  let flow (id : String) (resources : List Resource) : Artifact :=
    { tag := { id, name := id }, document := .named "definitions", resources }
  [flow "A" [⟨"script/a.groovy", .groovyScript, [1]⟩, ⟨"script/a.js", .javascript, [1]⟩],
    flow "B" [⟨"script/b.groovy", .groovyScript, [2]⟩, ⟨"script/c.groovy", .groovyScript, [1]⟩]]

theorem duplicates_commonScript :
    NamedApart commonScript ∧ DigestsApart commonScript ∧
      (finishDuplicates usualCategories commonScript).issues.map (·.message) =
        ["Duplicate groovy-script resources: 'script/a.groovy' in 'A', 'script/c.groovy' in 'B'"] ∧
      ∃ (shared : List (Category × List UInt8)) (issues : List Issue),
        ({ (BuiltIn.duplicates usualCategories).toRule with id := some "d" } : Rule).Defers
          commonScript issues ∧
        (∀ c content, (c, content) ∈ shared ↔
          c ∈ usualCategories ∧ 2 ≤ (holders commonScript c content).length) ∧
        (shared.Pairwise fun x y => contentKey x < contentKey y) ∧
        List.Forall₂ (ReportsShared (some "d") commonScript) shared issues := by
  have hnames : NamedApart commonScript := by unfold NamedApart; decide
  have hdigests : DigestsApart commonScript := by unfold DigestsApart; decide +kernel
  exact ⟨hnames, hdigests, by decide +kernel,
    duplicates_reported usualCategories (some "d") hnames hdigests⟩

end FlowLint.Catalog

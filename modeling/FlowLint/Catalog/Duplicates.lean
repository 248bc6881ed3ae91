import FlowLint.Catalog.Configuration
import FlowLint.Digest.Sha256
import FlowLint.Order.Insertion
import FlowLint.Rule.Basic

/-! # Duplicate resources

Resources of all artifacts of a run are grouped by category and content, the content standing for by
its digest. A group of two or more is one issue, raised when all artifacts have been seen. Within a
group a resource counts by its artifact's tag and its name.
-/

namespace FlowLint.Catalog

open FlowLint.Flow (Artifact Category Resource Tag)
open FlowLint.Markup (Element)

/-- The place of a category in the order of reports. -/
def categoryRank (c : Category) : Nat :=
  Category.all.idxOf c

/-- What the resources of a group have in common. -/
structure ContentKey where
  category : Category
  digest : String
deriving Repr, DecidableEq, Inhabited

/-- By category, then digest. -/
instance : LT ContentKey :=
  ⟨fun a b => categoryRank a.category < categoryRank b.category ∨
    (a.category = b.category ∧ a.digest < b.digest)⟩

instance (a b : ContentKey) : Decidable (a < b) :=
  inferInstanceAs (Decidable (categoryRank a.category < categoryRank b.category ∨
    (a.category = b.category ∧ a.digest < b.digest)))

/-- A resource in a group. -/
structure Member where
  tag : Tag
  name : String
deriving Repr, DecidableEq, Inhabited

/-- By tag, then name. -/
instance : LT Member :=
  ⟨fun a b => a.tag < b.tag ∨ (a.tag = b.tag ∧ a.name < b.name)⟩

instance (a b : Member) : Decidable (a < b) :=
  inferInstanceAs (Decidable (a.tag < b.tag ∨ (a.tag = b.tag ∧ a.name < b.name)))

/-- A resource with the key of the group it belongs to. -/
structure Entry where
  key : ContentKey
  member : Member
deriving Repr, DecidableEq, Inhabited

def entryOf (a : Artifact) (r : Resource) : Entry :=
  ⟨⟨r.category, Digest.sha256Hex r.content⟩, ⟨a.tag, r.name⟩⟩

def entriesOf (categories : List Category) (a : Artifact) : List Entry :=
  categories.flatMap fun c => (a.resourcesOf c).map (entryOf a)

/-- A group of resources with the same category and content. -/
structure Group where
  key : ContentKey
  members : List Member
deriving Repr, DecidableEq, Inhabited

/-- The groups of entries in the order of their keys, the members of each in order. -/
def groupsOf (entries : List Entry) : List Group :=
  (Order.ofList (entries.map (·.key))).map fun key =>
    ⟨key, Order.ofList ((entries.filter (·.key = key)).map (·.member))⟩

namespace Group

def message (g : Group) : String :=
  let listing := ", ".intercalate (g.members.map fun m => s!"'{m.name}' in {m.tag.display}")
  s!"Duplicate {g.key.category.token} resources: {listing}"

def detail (g : Group) : Detail :=
  .duplicateResources g.key.category.token g.key.digest
    (g.members.map fun m => ⟨m.tag.id, m.name⟩)

/-- The issue about a group; none if it is empty. -/
def issue? (g : Group) : Option Issue :=
  Issue.spanning? g.detail (g.members.map (·.tag)) g.message

end Group

/-- The groups that hold a content more than once. -/
def duplicates (categories : List Category) (artifacts : List Artifact) : List Group :=
  (groupsOf (artifacts.flatMap (entriesOf categories))).filter fun g => 2 ≤ g.members.length

/-- Raises the issues about groups in order, up to a group about which there is none. -/
def reportGroups : List Group → Response
  | [] => {}
  | g :: rest =>
    match g.issue? with
    | none => { failure := some (.noArtifacts "duplicate-resources-not-allowed") }
    | some i =>
      let later := reportGroups rest
      { later with issues := i :: later.issues }

/-- Objects to each content that is there more than once. -/
def finishDuplicates (categories : List Category) (artifacts : List Artifact) : Response :=
  reportGroups (duplicates categories artifacts)

/-- The categories that are looked at unless others are named. -/
def usualCategories : List Category :=
  Category.all.filter fun c => c.isScript || c.isMapping

def readCategories (e : Element) : Except Misconfiguration (List Category) := do
  onlyChildren e ["resource-type"]
  let words ← childTexts e "resource-type"
  if words.isEmpty then return usualCategories
  let named ← readWords Category.ofToken? .unknownResourceType words
  return Category.all.filter named.contains

end FlowLint.Catalog

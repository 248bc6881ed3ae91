import FlowLint.Catalog.Duplicates
import FlowLint.Proofs.Bundle.Resources
import FlowLint.Proofs.Bundle.Topmost
import FlowLint.Proofs.Path.Order
import Mathlib.Data.Set.Card

/-!
# The artifacts of a corpus

The artifacts under several roots are read in the order of their directories. Roots may lie in
one another and be named more than once: a directory that several of them lead to is read once,
or, if its paths differ in more than their spelling, refused because its id is there twice.
So all ids differ, and with the names in each artifact no two resource files of the corpus are
the same member of a group of duplicates. Which failure is reported does depend on the order of
the roots, and nothing is said of it.
-/

namespace FlowLint.Bundle

open FlowLint.Files (Node Tree Located)
open FlowLint.Flow (Artifact)
open FlowLint.Markup (Element)

variable {t t' : Tree} {roots roots' directories directories' : List Path} {d d' : Path}
  {l l' : Located} {delivered : List Delivered} {artifacts : List Artifact}

/-- What is delivered from the roots of a corpus. -/
structure Corpus (t : Tree) (roots : List Path) (delivered : List Delivered) : Prop where
  increasing : delivered.Pairwise fun x y => x.directory.Before y.directory
  found : ∀ x ∈ delivered, ∃ root ∈ roots, FoundUnder t root x.directory
  complete : ∀ root ∈ roots, ∀ d, FoundUnder t root d →
    ∃ x ∈ delivered, x.directory.components = d.components
  apart : delivered.Pairwise fun x y => t.locate x.directory ≠ t.locate y.directory
  read : ∀ x ∈ delivered, readArtifact t x.directory = .ok x.artifact
  resources : ∀ x ∈ delivered, ∃ l, t.locate x.directory = .ok l ∧
    ∀ r, r ∈ x.artifact.resources ↔ IsResource l.node r
  names : ∀ x ∈ delivered, (x.artifact.resources.map (·.name)).Nodup
  ids : (delivered.map (·.artifact.tag.id)).Nodup
  members : (delivered.flatMap fun x =>
    x.artifact.resources.map fun r => (Catalog.entryOf x.artifact r).member).Nodup

/-! ## The single steps -/

theorem located_eq_of_names (h : t.locate d = .ok l) (h' : t.locate d' = .ok l')
    (heq : l.names = l'.names) : l = l' := by
  have hnode := (Tree.at?_of_locate h).symm.trans (heq ▸ Tree.at?_of_locate h')
  obtain ⟨names, node⟩ := l
  obtain ⟨names', node'⟩ := l'
  cases heq
  cases hnode
  rfl

/-- Paths with the same components do not lead to different places. -/
theorem located_eq (h : t.locate d = .ok l) (h' : t.locate d' = .ok l')
    (heq : d.components = d'.components) : l = l' :=
  located_eq_of_names h h' (by rw [Tree.names_of_locate h, Tree.names_of_locate h', heq])

/-- All roots are directories, and what was found under them is merged, in order and without
repetition. -/
theorem discoverAll_eq_ok : discoverAll t roots = .ok directories ↔
    (∀ root ∈ roots, t.isDirectory root = true) ∧
      directories = Path.sortDistinct (roots.flatMap fun r => (discover? t r).getD []) := by
  have hnone : (roots.find? fun r => (discover? t r).isNone) = none ↔
      ∀ root ∈ roots, t.isDirectory root = true := by
    simp [List.find?_eq_none, ← discover?_isSome, Option.isSome_iff_ne_none]
  rw [discoverAll, ← hnone]
  cases roots.find? fun r => (discover? t r).isNone <;> simp [eq_comm]

theorem readEach_cons_eq_ok : readEach t (d :: directories) = .ok delivered ↔
    ∃ a rest, readArtifact t d = .ok a ∧ readEach t directories = .ok rest ∧
      delivered = ⟨d, a⟩ :: rest := by
  rw [readEach]
  cases readArtifact t d with
  | error e => simp
  | ok a => cases readEach t directories <;> simp [Except.map, eq_comm]

/-- The artifacts come in the order of the directories, one for each. -/
theorem readEach_eq_ok (h : readEach t directories = .ok delivered) :
    delivered.map (·.directory) = directories ∧
      ∀ x ∈ delivered, readArtifact t x.directory = .ok x.artifact := by
  induction directories generalizing delivered with
  | nil =>
    cases h
    exact ⟨rfl, fun _ hx => absurd hx List.not_mem_nil⟩
  | cons d directories ih =>
    obtain ⟨a, rest, ha, hrest, rfl⟩ := readEach_cons_eq_ok.mp h
    obtain ⟨hdirectories, hread⟩ := ih hrest
    exact ⟨congrArg (d :: ·) hdirectories, List.forall_mem_cons.mpr ⟨ha, hread⟩⟩

/-- No artifact is reported as shared exactly if no two have one id. -/
theorem sharedId?_eq_none {seen : List Delivered} : sharedId? seen delivered = none ↔
    (delivered.map (·.artifact.tag.id)).Nodup ∧
      ∀ x ∈ delivered, ∀ s ∈ seen, s.artifact.tag.id ≠ x.artifact.tag.id := by
  induction delivered generalizing seen with
  | nil => simp [sharedId?]
  | cons x rest ih =>
    rw [sharedId?, List.map_cons, List.nodup_cons, List.forall_mem_cons]
    cases hseen : seen.find? (·.artifact.tag.id = x.artifact.tag.id) with
    | some first =>
      have hfirst := List.find?_some hseen
      simp only [reduceCtorEq, false_iff, not_and]
      exact fun _ hnew _ => hnew first (List.mem_of_find?_eq_some hseen) (of_decide_eq_true hfirst)
    | none =>
      have hnew : ∀ s ∈ seen, s.artifact.tag.id ≠ x.artifact.tag.id := by
        simpa using List.find?_eq_none.mp hseen
      simp only [ih, List.forall_mem_cons, List.mem_map, not_exists, not_and]
      constructor
      · rintro ⟨hnodup, hlater⟩
        exact ⟨⟨fun y hy heq => (hlater y hy).1 heq.symm, hnodup⟩, hnew, fun y hy => (hlater y hy).2⟩
      · rintro ⟨⟨hx, hnodup⟩, -, hlater⟩
        exact ⟨hnodup, fun y hy => ⟨fun heq => hx y hy heq.symm, hlater y hy⟩⟩

/-- A load succeeds exactly if discovery and every reading do and no id comes twice. -/
theorem loadArtifacts_eq_ok : loadArtifacts t roots = .ok artifacts ↔
    ∃ directories delivered, discoverAll t roots = .ok directories ∧
      readEach t directories = .ok delivered ∧
      (delivered.map (·.artifact.tag.id)).Nodup ∧ artifacts = delivered.map (·.artifact) := by
  unfold loadArtifacts
  cases discoverAll t roots with
  | error e => simp [bind, Except.bind]
  | ok directories =>
    cases hread : readEach t directories with
    | error e => simp [bind, Except.bind, hread]
    | ok delivered =>
      have hnone : sharedId? [] delivered = none ↔
          (delivered.map (·.artifact.tag.id)).Nodup := by
        simp only [sharedId?_eq_none, List.not_mem_nil, false_implies, implies_true, and_true]
      simp only [bind, Except.bind, hread, Except.ok.injEq, exists_and_left, exists_eq_left',
        ← hnone]
      cases sharedId? [] delivered <;> simp [pure, Except.pure, eq_comm]

/-- The directories are the artifacts found under the roots, in order. -/
theorem mem_discoverAll (ht : t.root.isProper = true) (h : discoverAll t roots = .ok directories)
    (hd : d ∈ directories) : ∃ root ∈ roots, FoundUnder t root d := by
  obtain ⟨-, rfl⟩ := discoverAll_eq_ok.mp h
  have hmem : d ∈ roots.flatMap (fun r => (discover? t r).getD []) :=
    Path.mem_of_mem_sortDistinct hd
  obtain ⟨root, hroot, hd⟩ := List.mem_flatMap.mp hmem
  exact ⟨root, hroot, (mem_discover? ht).mp hd⟩

/-- What is found under a root is listed, perhaps under another spelling of its path. -/
theorem exists_mem_discoverAll (ht : t.root.isProper = true)
    (h : discoverAll t roots = .ok directories) {root : Path} (hroot : root ∈ roots)
    (hd : FoundUnder t root d) : ∃ d' ∈ directories, d'.components = d.components := by
  obtain ⟨-, rfl⟩ := discoverAll_eq_ok.mp h
  have hmem : d ∈ roots.flatMap (fun r => (discover? t r).getD []) :=
    List.mem_flatMap.mpr ⟨root, hroot, (mem_discover? ht).mpr hd⟩
  exact Path.exists_mem_sortDistinct hmem

theorem locate_of_mem_discoverAll (ht : t.root.isProper = true)
    (h : discoverAll t roots = .ok directories) (hd : d ∈ directories) :
    ∃ l, t.locate d = .ok l := by
  obtain ⟨root, -, hfound⟩ := mem_discoverAll ht h hd
  obtain ⟨l, hl, -⟩ := hfound.locate ht
  exact ⟨l, hl⟩

/-! ## Corpora -/

theorem nodup_members (hids : (delivered.map (·.artifact.tag.id)).Nodup)
    (hnames : ∀ x ∈ delivered, (x.artifact.resources.map (·.name)).Nodup) :
    (delivered.flatMap fun x =>
      x.artifact.resources.map fun r => (Catalog.entryOf x.artifact r).member).Nodup := by
  rw [List.nodup_flatMap]
  constructor
  · intro x hx
    refine List.Nodup.of_map (·.name) ?_
    rw [List.map_map]
    exact hnames x hx
  · refine (List.pairwise_map.mp hids).imp fun {x y} hne => ?_
    refine List.disjoint_left.mpr fun member hx hy => ?_
    obtain ⟨r, -, rfl⟩ := List.mem_map.mp hx
    obtain ⟨r', -, heq⟩ := List.mem_map.mp hy
    exact hne (congrArg (·.tag.id) heq).symm

/-- Two of the directories are not at one place: their artifacts would have the same id. -/
theorem pairwise_locate (ht : t.root.isProper = true)
    (hread : ∀ x ∈ delivered, readArtifact t x.directory = .ok x.artifact)
    (hlocate : ∀ x ∈ delivered, ∃ l, t.locate x.directory = .ok l)
    (hids : (delivered.map (·.artifact.tag.id)).Nodup) :
    delivered.Pairwise fun x y => t.locate x.directory ≠ t.locate y.directory := by
  refine (List.pairwise_map.mp hids).imp_of_mem fun {x y} hx hy hne heq => hne ?_
  obtain ⟨l, hl⟩ := hlocate x hx
  have hsame : t.SameNode t x.directory y.directory := ⟨l.names, l.names, l.node, hl, heq ▸ hl⟩
  have hartifact := readArtifact_congr ht hsame (hread x hx)
  rw [hread y hy] at hartifact
  rw [Except.ok.inj hartifact]

/-- The three stages of a successful load together. -/
theorem corpus_of_load (ht : t.root.isProper = true)
    (hdirectories : discoverAll t roots = .ok directories)
    (hdelivered : readEach t directories = .ok delivered)
    (hids : (delivered.map (·.artifact.tag.id)).Nodup) : Corpus t roots delivered := by
  obtain ⟨rfl, hread⟩ := readEach_eq_ok hdelivered
  have hmem : ∀ x ∈ delivered, x.directory ∈ delivered.map (·.directory) :=
    fun x hx => List.mem_map_of_mem hx
  have hlocate := fun x hx => locate_of_mem_discoverAll ht hdirectories (hmem x hx)
  have hresources : ∀ x ∈ delivered, x.artifact.resources = readResources t x.directory := by
    intro x hx
    obtain ⟨manifest, -, document, -, ha⟩ := readArtifact_eq_ok.mp (hread x hx)
    rw [ha]
  have hproper : ∀ {p : Path} {l : Located}, t.locate p = .ok l → l.node.isProper = true :=
    fun hl => (Node.isProper_of_at? ht (Tree.at?_of_locate hl)).1
  have hnames : ∀ x ∈ delivered, (x.artifact.resources.map (·.name)).Nodup := by
    intro x hx
    obtain ⟨l, hl⟩ := hlocate x hx
    rw [hresources x hx]
    exact nodup_readResources hl (hproper hl)
  refine
    { increasing := ?_
      found := fun x hx => mem_discoverAll ht hdirectories (hmem x hx)
      complete := ?_
      apart := pairwise_locate ht hread hlocate hids
      read := hread
      resources := ?_
      names := hnames
      ids := hids
      members := nodup_members hids hnames }
  · have hsorted := (discoverAll_eq_ok.mp hdirectories).2
    exact List.pairwise_map.mp (hsorted ▸ Path.pairwise_sortDistinct _)
  · intro root hroot d hd
    obtain ⟨d', hd', heq⟩ := exists_mem_discoverAll ht hdirectories hroot hd
    obtain ⟨x, hx, rfl⟩ := List.mem_map.mp hd'
    exact ⟨x, hx, heq⟩
  · intro x hx
    obtain ⟨l, hl⟩ := hlocate x hx
    refine ⟨l, hl, fun r => ?_⟩
    rw [hresources x hx]
    exact mem_readResources hl (hproper hl)

/-- The places of the artifacts that are found under some root. -/
def artifactPlaces (t : Tree) (roots : List Path) : Set (List String) :=
  {place | ∃ root ∈ roots, ∃ d, FoundUnder t root d ∧ ∃ n, t.locate d = .ok ⟨place, n⟩}

/-- An artifact of a corpus is read by every path by which it is found. -/
theorem Corpus.exists_located (h : Corpus t roots delivered) (ht : t.root.isProper = true)
    {root : Path} (hroot : root ∈ roots) (hd : FoundUnder t root d) :
    ∃ x ∈ delivered, ∃ l, t.locate d = .ok l ∧ t.locate x.directory = .ok l := by
  obtain ⟨x, hx, heq⟩ := h.complete root hroot d hd
  obtain ⟨l, hl, -⟩ := hd.locate ht
  obtain ⟨l', hl', -⟩ := h.resources x hx
  exact ⟨x, hx, l, hl, located_eq hl' hl heq ▸ hl'⟩

theorem ncard_eq_length {α : Type} {xs : List α} (h : xs.Nodup) {s : Set α}
    (hs : ∀ x, x ∈ s ↔ x ∈ xs) : s.ncard = xs.length := by
  classical
  have heq : s = (xs.toFinset : Set α) := by
    ext x
    rw [Finset.mem_coe, List.mem_toFinset, hs]
  rw [heq, Set.ncard_coe_finset, List.toFinset_card_of_nodup h]

/-- A corpus has one artifact for each place at which one is found. -/
theorem Corpus.ncard_artifactPlaces (h : Corpus t roots delivered)
    (ht : t.root.isProper = true) : (artifactPlaces t roots).ncard = delivered.length := by
  let place (x : Delivered) : List String := ((t.locate x.directory).toOption.map (·.names)).getD []
  have hplace : ∀ {x : Delivered} {l : Located}, t.locate x.directory = .ok l → place x = l.names :=
    fun hl => by simp only [place, hl, Except.toOption, Option.map_some, Option.getD_some]
  have hnodup : (delivered.map place).Nodup := by
    refine List.pairwise_map.mpr (h.apart.imp_of_mem fun {x y} hx hy hne heq => hne ?_)
    obtain ⟨l, hl, -⟩ := h.resources x hx
    obtain ⟨l', hl', -⟩ := h.resources y hy
    rw [hplace hl, hplace hl'] at heq
    rw [hl, hl', located_eq_of_names hl hl' heq]
  rw [ncard_eq_length hnodup, List.length_map]
  intro names
  rw [List.mem_map]
  constructor
  · rintro ⟨root, hroot, d, hd, n, hl⟩
    obtain ⟨x, hx, l, hl', hlx⟩ := h.exists_located ht hroot hd
    obtain rfl := Except.ok.inj (hl.symm.trans hl')
    exact ⟨x, hx, hplace hlx⟩
  · rintro ⟨x, hx, rfl⟩
    obtain ⟨root, hroot, hd⟩ := h.found x hx
    obtain ⟨l, hl, -⟩ := h.resources x hx
    exact ⟨root, hroot, x.directory, hd, l.node, hplace hl ▸ hl⟩

/-! ## Other roots, other trees -/

/-- From directories that are the same the same artifacts are read. -/
theorem readEach_congr (ht : t.root.isProper = true)
    (hsame : List.Forall₂ (t.SameNode t') directories directories')
    (h : readEach t directories = .ok delivered) :
    ∃ delivered', readEach t' directories' = .ok delivered' ∧
      delivered'.map (·.artifact) = delivered.map (·.artifact) := by
  induction hsame generalizing delivered with
  | nil =>
    cases h
    exact ⟨[], rfl, rfl⟩
  | @cons d d' directories directories' hd _ ih =>
    obtain ⟨a, rest, ha, hrest, rfl⟩ := readEach_cons_eq_ok.mp h
    obtain ⟨rest', hrest', hartifacts⟩ := ih hrest
    have ha' := readArtifact_congr ht hd ha
    have hreadEach : readEach t' (d' :: directories') = .ok (⟨d', a⟩ :: rest') :=
      readEach_cons_eq_ok.mpr ⟨a, rest', ha', hrest', rfl⟩
    exact ⟨⟨d', a⟩ :: rest', hreadEach, congrArg (a :: ·) hartifacts⟩

theorem discoverAll_congr (hroots : ∀ root, root ∈ roots' ↔ root ∈ roots)
    (h : discoverAll t roots = .ok directories) :
    ∃ directories', discoverAll t roots' = .ok directories' ∧
      directories.map Path.components = directories'.map Path.components := by
  obtain ⟨hroot, rfl⟩ := discoverAll_eq_ok.mp h
  have hdiscoverAll : discoverAll t roots' =
      .ok (Path.sortDistinct (roots'.flatMap (fun r => (discover? t r).getD []))) :=
    discoverAll_eq_ok.mpr ⟨fun root hmem => hroot root ((hroots root).mp hmem), rfl⟩
  refine ⟨_, hdiscoverAll, ?_⟩
  have hpairwise : List.Pairwise Path.Before
      (Path.sortDistinct (roots.flatMap (fun r => (discover? t r).getD []))) :=
    Path.pairwise_sortDistinct _
  have hordered : List.Pairwise Path.Before
      (Path.sortDistinct (roots'.flatMap (fun r => (discover? t r).getD []))) :=
    Path.pairwise_sortDistinct _
  refine Path.components_eq_of_pairwise hpairwise hordered fun cs => ?_
  rw [Path.mem_components_sortDistinct, Path.mem_components_sortDistinct]
  simp only [List.mem_map, List.mem_flatMap, hroots]

theorem loadArtifacts_of_directories (ht : t.root.isProper = true)
    (hdirectories' : discoverAll t' roots' = .ok directories')
    (hsame : List.Forall₂ (t.SameNode t') directories directories')
    (hdelivered : readEach t directories = .ok delivered)
    (hids : (delivered.map (·.artifact.tag.id)).Nodup) :
    loadArtifacts t' roots' = .ok (delivered.map (·.artifact)) := by
  obtain ⟨delivered', hdelivered', hartifacts⟩ := readEach_congr ht hsame hdelivered
  refine loadArtifacts_eq_ok.mpr ⟨directories', delivered', hdirectories', hdelivered', ?_,
    hartifacts.symm⟩
  have hmap : ∀ xs : List Delivered, xs.map (·.artifact.tag.id) =
      (xs.map (·.artifact)).map (·.tag.id) := fun xs => by rw [List.map_map]; rfl
  rwa [hmap, hartifacts, ← hmap]

/-- The roots count as a set: their order and repetition change nothing. -/
theorem loadArtifacts_congr (ht : t.root.isProper = true)
    (hroots : ∀ root, root ∈ roots' ↔ root ∈ roots) (h : loadArtifacts t roots = .ok artifacts) :
    loadArtifacts t roots' = .ok artifacts := by
  obtain ⟨directories, delivered, hdirectories, hdelivered, hids, rfl⟩ := loadArtifacts_eq_ok.mp h
  obtain ⟨directories', hdirectories', heq⟩ := discoverAll_congr hroots hdirectories
  have hcomponents : List.Forall₂ (fun d d' : Path => d.components = d'.components)
      directories directories' := by
    rwa [← List.forall₂_eq_eq_eq, List.forall₂_map_left_iff, List.forall₂_map_right_iff] at heq
  obtain ⟨hlength, hzip⟩ := List.forall₂_iff_zip.mp hcomponents
  refine loadArtifacts_of_directories ht hdirectories' ?_ hdelivered hids
  refine List.forall₂_iff_zip.mpr ⟨hlength, fun {d d'} hmem => ?_⟩
  obtain ⟨hd, hd'⟩ := List.of_mem_zip hmem
  obtain ⟨l, hl⟩ := locate_of_mem_discoverAll ht hdirectories hd
  obtain ⟨l', hl'⟩ := locate_of_mem_discoverAll ht hdirectories' hd'
  exact ⟨_, _, l.node, hl, located_eq hl hl' (hzip hmem) ▸ hl'⟩

theorem discover?_congr {root : Path} (hsame : t.SameNode t' root root) :
    discover? t' root = discover? t root := by
  obtain ⟨place, place', n, h, h'⟩ := hsame
  rw [discover?, discover?, h, h']
  cases n <;> rfl

/-- What is loaded depends on the directories alone, and not on the tree they are in. -/
theorem loadArtifacts_unchanged (ht : t.root.isProper = true)
    (hsame : ∀ root ∈ roots, t.SameNode t' root root) (h : loadArtifacts t roots = .ok artifacts) :
    loadArtifacts t' roots = .ok artifacts := by
  obtain ⟨directories, delivered, hdirectories, hdelivered, hids, rfl⟩ := loadArtifacts_eq_ok.mp h
  have hdiscover : ∀ root ∈ roots, discover? t' root = discover? t root :=
    fun root hroot => discover?_congr (hsame root hroot)
  have hdirectories' : discoverAll t' roots = .ok directories := by
    obtain ⟨hroots, rfl⟩ := discoverAll_eq_ok.mp hdirectories
    refine discoverAll_eq_ok.mpr ⟨fun root hroot => ?_, ?_⟩
    · rw [← discover?_isSome, hdiscover root hroot, discover?_isSome]
      exact hroots root hroot
    · rw [List.flatMap_congr fun root hroot => congrArg (·.getD []) (hdiscover root hroot)]
  refine loadArtifacts_of_directories ht hdirectories' (List.forall₂_same.mpr ?_) hdelivered hids
  intro d hd
  obtain ⟨root, hroot, ⟨place, n⟩, hl, rel, rfl, ⟨m, hm, -⟩, -⟩ :=
    mem_discoverAll ht hdirectories hd
  obtain ⟨place', place'', n', hl', hl''⟩ := hsame root hroot
  obtain ⟨rfl, rfl⟩ := Located.mk.inj (Except.ok.inj (hl.symm.trans hl'))
  have hnames := (Node.isProper_of_at? (Node.isProper_of_at? ht (Tree.at?_of_locate hl)).1 hm).2
  have hlocate : t.locate (root.below rel) = .ok ⟨place ++ rel, m⟩ := locate_below hl hm hnames
  have hlocateBelow : t'.locate (root.below rel) = .ok ⟨place'' ++ rel, m⟩ :=
    locate_below hl'' hm hnames
  exact ⟨_, _, m, hlocate, hlocateBelow⟩

/-- A root that is an artifact is all that is found under it. -/
theorem discover?_of_isArtifact {root : Path} {place : List String} {n : Node}
    (hl : t.locate root = .ok ⟨place, n⟩) (hn : isArtifact n = true) :
    discover? t root = some [root] := by
  cases n with
  | file content => cases (isArtifact_file content).symm.trans hn
  | directory entries =>
    simp only [discover?, hl, artifactsAt, hn, if_true, List.mergeSort_singleton]

theorem loadArtifacts_of_isArtifact {root : Path} {place : List String} {n : Node} {a : Artifact}
    (hl : t.locate root = .ok ⟨place, n⟩) (hn : isArtifact n = true)
    (hread : readArtifact t root = .ok a) : loadArtifacts t [root] = .ok [a] := by
  have hdiscover := discover?_of_isArtifact hl hn
  have hdirectory : t.isDirectory root = true := by
    rw [← discover?_isSome, hdiscover, Option.isSome_some]
  have hall : discoverAll t [root] = .ok [root] := by
    refine discoverAll_eq_ok.mpr ⟨List.forall_mem_singleton.mpr hdirectory, ?_⟩
    simp [hdiscover]
  have hreadEach : readEach t [root] = .ok [⟨root, a⟩] :=
    readEach_cons_eq_ok.mpr ⟨a, [], hread, rfl, rfl⟩
  exact loadArtifacts_eq_ok.mpr ⟨_, _, hall, hreadEach, List.nodup_singleton _, rfl⟩

/-- **What is loaded**: the artifacts that are found under some root, each once and in the order
of their directories, with different ids and with all their resources, which are all different
members; how the roots are ordered and how often each is named does not matter. -/
theorem loadArtifacts_corpus (ht : t.root.isProper = true)
    (h : loadArtifacts t roots = .ok artifacts) :
    (∃ delivered, artifacts = delivered.map (·.artifact) ∧ Corpus t roots delivered) ∧
      ∀ roots', (∀ root, root ∈ roots' ↔ root ∈ roots) → loadArtifacts t roots' = .ok artifacts := by
  constructor
  · obtain ⟨directories, delivered, hdirectories, hdelivered, hids, rfl⟩ := loadArtifacts_eq_ok.mp h
    have hcorpus : Corpus t roots delivered := corpus_of_load ht hdirectories hdelivered hids
    exact ⟨delivered, rfl, hcorpus⟩
  · exact fun roots' hroots => loadArtifacts_congr ht hroots h

/-! ## Two artifacts -/

/-- The manifest of an artifact that has only an id. -/
def flowManifest (id : String) : String :=
  "Bundle-SymbolicName: " ++ id ++ "\n"

/-- A directory that holds an artifact with two scripts, one of them deeper than the other. -/
def flowDirectory (id : String) : Node :=
  .directory [
    ("META-INF", .directory [("MANIFEST.MF", .file (Text.toBytes (flowManifest id)))]),
    ("src", .directory [("main", .directory [("resources", .directory [
      ("scenarioflows", .directory [("integrationflow", .directory [
        ("flow.iflw", .file (Text.toBytes "<flow><collaboration/></flow>"))])]),
      ("script", .directory [
        ("lib", .directory [("main.groovy", .file [])]), ("main.js", .file [])])])])])]

/-- The artifact in the directory. -/
def flowArtifact (id : String) : Artifact where
  tag := ⟨id, id, none⟩
  document := (Element.named "flow").withChild (.named "collaboration")
  resources := [⟨"script/lib/main.groovy", .groovyScript, []⟩, ⟨"script/main.js", .javascript, []⟩]

theorem readArtifact_flowDirectory {id : String} {place : List String}
    (h : t.locate d = .ok ⟨place, flowDirectory id⟩)
    (hid : Manifest.parse? (flowManifest id) = some ⟨id, id⟩) :
    readArtifact t d = .ok (flowArtifact id) := by
  have hmanifest : readManifest t d = .ok ⟨id, id⟩ := by
    have hfile : manifestFile = ⟨"/".intercalate ["META-INF", "MANIFEST.MF"]⟩ := by with_unfolding_all rfl
    have htext : t.text (d.join manifestFile) = .ok (flowManifest id) := by
      rw [hfile]
      exact Tree.text_join_names h (List.cons_ne_nil _ _) (by decide) (by with_unfolding_all rfl)
    simp only [readManifest, htext, hid]
  have hdocument : readDocument t d = .ok (flowArtifact id).document := by
    have hfolder : documentFolder = ⟨"/".intercalate
        ["src", "main", "resources", "scenarioflows", "integrationflow"]⟩ := by with_unfolding_all rfl
    have hl : t.locate (d.join documentFolder) = .ok
        ⟨place ++ ["src", "main", "resources", "scenarioflows", "integrationflow"],
          .directory [("flow.iflw", .file (Text.toBytes "<flow><collaboration/></flow>"))]⟩ := by
      rw [hfolder]
      exact (Tree.locate_join_names h (List.cons_ne_nil _ _) (by decide)).mpr
        ⟨rfl, by with_unfolding_all rfl⟩
    have hfile : documentFile t d = .ok ((d.join documentFolder).join ⟨"flow.iflw"⟩) := by
      simp only [documentFile, Tree.entries, hl]
      rfl
    have htext : t.text ((d.join documentFolder).join ⟨"flow.iflw"⟩) =
        .ok "<flow><collaboration/></flow>" := by
      rw [← String.intercalate_singleton (s := "/") (t := "flow.iflw")]
      exact Tree.text_join_names hl (List.cons_ne_nil _ _) (by decide) (by with_unfolding_all rfl)
    have hparse : Markup.parse "<flow><collaboration/></flow>" = .ok (flowArtifact id).document := by
      with_unfolding_all rfl
    simp only [readDocument, hfile, bind, Except.bind, htext, Except.mapError, hparse]
  have hresources : readResources t d = (flowArtifact id).resources := by
    rw [readResources, List.flatMap_congr fun _ hfolder => readFolder_eq h hfolder]
    with_unfolding_all rfl
  exact readArtifact_eq_ok.mpr ⟨_, hmanifest, _, hdocument, by rw [hresources]; rfl⟩

/-- A rule, and an exemption from it. -/
def rulesText : String :=
  "<cpilint><rules><iflow-description-required id='d'/></rules><exemptions><exemption>" ++
    "<rule-id>d</rule-id><artifact-id>A</artifact-id></exemption></exemptions></cpilint>"

/-- A tree with two artifacts side by side, and with a rules file beside them. -/
def twoFlows : Tree :=
  { root := .directory [
      ("flows", .directory [("a", flowDirectory "A"), ("b", flowDirectory "B")]),
      ("rules.xml", .file (Text.toBytes rulesText))] }

theorem discover?_flows :
    discover? twoFlows ⟨"/flows"⟩ = some [⟨"/flows/a"⟩, ⟨"/flows/b"⟩] := by
  have hl : twoFlows.locate ⟨"/flows"⟩ =
      .ok ⟨["flows"], .directory [("a", flowDirectory "A"), ("b", flowDirectory "B")]⟩ := by
    with_unfolding_all rfl
  have hwalk : artifactsAt ⟨"/flows"⟩
      (.directory [("a", flowDirectory "A"), ("b", flowDirectory "B")]) =
        [⟨"/flows/a"⟩, ⟨"/flows/b"⟩] := by
    with_unfolding_all rfl
  simp only [discover?, hl, hwalk]
  rw [List.mergeSort_of_pairwise (by with_unfolding_all decide)]

theorem discover?_second : discover? twoFlows ⟨"/flows/b"⟩ = some [⟨"/flows/b"⟩] := by
  have hl : twoFlows.locate ⟨"/flows/b"⟩ = .ok ⟨["flows", "b"], flowDirectory "B"⟩ := by
    with_unfolding_all rfl
  exact discover?_of_isArtifact hl (by with_unfolding_all rfl)

theorem discoverAll_twoFlows : discoverAll twoFlows [⟨"/flows"⟩, ⟨"/flows/b"⟩] =
    .ok [⟨"/flows/a"⟩, ⟨"/flows/b"⟩] := by
  refine discoverAll_eq_ok.mpr ⟨by with_unfolding_all decide, ?_⟩
  simp only [List.flatMap_cons, List.flatMap_nil, discover?_flows, discover?_second]
  rw [Path.sortDistinct, List.mergeSort_of_pairwise (by with_unfolding_all decide)]
  with_unfolding_all rfl

/-- What is read from the two directories. -/
def bothFlows : List Artifact :=
  [flowArtifact "A", flowArtifact "B"]

theorem loadArtifacts_twoFlows :
    loadArtifacts twoFlows [⟨"/flows"⟩, ⟨"/flows/b"⟩] = .ok bothFlows := by
  have hfirst : twoFlows.locate ⟨"/flows/a"⟩ = .ok ⟨["flows", "a"], flowDirectory "A"⟩ := by
    with_unfolding_all rfl
  have hsecond : twoFlows.locate ⟨"/flows/b"⟩ = .ok ⟨["flows", "b"], flowDirectory "B"⟩ := by
    with_unfolding_all rfl
  have hread : readEach twoFlows [⟨"/flows/a"⟩, ⟨"/flows/b"⟩] =
      .ok [⟨⟨"/flows/a"⟩, flowArtifact "A"⟩, ⟨⟨"/flows/b"⟩, flowArtifact "B"⟩] :=
    readEach_cons_eq_ok.mpr ⟨_, _, readArtifact_flowDirectory hfirst (by with_unfolding_all rfl),
      readEach_cons_eq_ok.mpr ⟨_, [], readArtifact_flowDirectory hsecond (by with_unfolding_all rfl), rfl,
        rfl⟩, rfl⟩
  exact loadArtifacts_eq_ok.mpr ⟨_, _, discoverAll_twoFlows, hread, by decide, rfl⟩

/-- The second artifact lies under both roots and is loaded once, also from the roots in the other
order with one of them repeated. -/
theorem loadArtifacts_corpus_nested :
    loadArtifacts twoFlows [⟨"/flows/b"⟩, ⟨"/flows"⟩, ⟨"/flows/b"⟩] = .ok bothFlows ∧
      bothFlows.length = 2 ∧
      ∃ delivered, bothFlows = delivered.map (·.artifact) ∧
        Corpus twoFlows [⟨"/flows"⟩, ⟨"/flows/b"⟩] delivered := by
  obtain ⟨hcorpus, hother⟩ := loadArtifacts_corpus (by with_unfolding_all rfl) loadArtifacts_twoFlows
  refine ⟨hother _ fun root => ?_, rfl, hcorpus⟩
  simp only [List.mem_cons, List.not_mem_nil, or_false]
  tauto

end FlowLint.Bundle

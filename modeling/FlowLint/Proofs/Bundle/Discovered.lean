import FlowLint.Proofs.Bundle.Corpus
import FlowLint.Proofs.Bundle.PrunedWalk

/-!
# What is discovered

A search below a root finds the directories that hold a manifest and have none above them, up to
the root, that holds one too. Here this is said of the paths alone: whether a path leads to a
directory, and whether a file is read at the path of its manifest. The search goes by its walk,
which leaves out what is inside an artifact while it goes on; what it leaves out is no more than
that, so whatever holds a manifest is found or lies inside what is found. Nothing is said of a
tree that changes during the walk.
-/

namespace FlowLint.Bundle

open FlowLint.Files (Node Tree Located isName)

variable {t : Tree} {root d : Path} {place rel : List String} {n m : Node} {l : Located}

/-- There is a file at the path of the manifest of a directory. -/
def HoldsManifest (t : Tree) (d : Path) : Prop :=
  ∃ content, t.bytes (d.join manifestFile) = .ok content

/-- Names that lead from a root to a directory at or below it. -/
structure LiesUnder (t : Tree) (root : Path) (rel : List String) : Prop where
  names : ∀ name ∈ rel, isName name = true
  directory : t.isDirectory (root.below rel) = true

/-- The directory under the names holds a manifest, and none of those on the way to it does. -/
structure Outermost (t : Tree) (root : Path) (rel : List String) : Prop where
  under : LiesUnder t root rel
  holds : HoldsManifest t (root.below rel)
  first : ∀ above, above <+: rel → above ≠ rel → ¬ HoldsManifest t (root.below above)

/-- What a search under a root has found. -/
structure Discovery (t : Tree) (root : Path) (found : List Path) : Prop where
  members : ∀ d, d ∈ found ↔ ∃ rel, d = root.below rel ∧ Outermost t root rel
  increasing : found.Pairwise Path.Before
  apart : ∀ d ∈ found, ∀ inner, inner ≠ [] → (∀ name ∈ inner, isName name = true) →
    d.below inner ∉ found
  covering : ∀ rel, LiesUnder t root rel → HoldsManifest t (root.below rel) →
    ∃ above, above <+: rel ∧ root.below above ∈ found
  walked : ∃ place n, t.locate root = .ok ⟨place, n⟩ ∧
    found = (search [[(root, n)]]).mergeSort Path.le

/-! ## Paths below a root -/

theorem below_append (p : Path) (xs ys : List String) :
    p.below (xs ++ ys) = (p.below xs).below ys :=
  List.foldl_append

/-- A path extended name by name is the path joined with the names as one text. -/
theorem below_eq_join (p : Path) (hne : rel ≠ []) (hnames : ∀ name ∈ rel, isName name = true) :
    p.below rel = p.join ⟨"/".intercalate rel⟩ := by
  induction rel generalizing p with
  | nil => exact absurd rfl hne
  | cons name rest ih =>
    obtain ⟨hname, hrest⟩ := List.forall_mem_cons.mp hnames
    cases rest with
    | nil =>
      rw [String.intercalate_singleton]
      rfl
    | cons next rest =>
      have hjoin := Files.join_join_names p (List.cons_ne_nil name []) (List.cons_ne_nil next rest)
        (List.forall_mem_singleton.mpr hname) hrest
      rw [String.intercalate_singleton] at hjoin
      have hbelow : (p.join ⟨name⟩).below (next :: rest) =
          (p.join ⟨name⟩).join ⟨"/".intercalate (next :: rest)⟩ :=
        ih (p.join ⟨name⟩) (List.cons_ne_nil next rest) hrest
      exact hbelow.trans hjoin

/-- Where names lead from a root is what the node of the root has under them. -/
theorem locate_below_iff (h : t.locate root = .ok ⟨place, n⟩)
    (hnames : ∀ name ∈ rel, isName name = true) :
    t.locate (root.below rel) = .ok l ↔ l.names = place ++ rel ∧ n.at? rel = some l.node := by
  cases rel with
  | nil =>
    have hbelow : t.locate (root.below []) = .ok ⟨place, n⟩ := h
    obtain ⟨names, node⟩ := l
    rw [hbelow, List.append_nil, Node.at?_nil]
    constructor
    · intro heq
      cases heq
      exact ⟨rfl, rfl⟩
    · intro h
      obtain ⟨rfl, hnode⟩ := h
      rw [Option.some.inj hnode]
  | cons name rest =>
    rw [below_eq_join root (List.cons_ne_nil name rest) hnames]
    exact Tree.locate_join_names h (List.cons_ne_nil name rest) hnames

theorem bytes_eq_ok {content : List UInt8} :
    t.bytes d = .ok content ↔ ∃ names, t.locate d = .ok ⟨names, .file content⟩ := by
  rw [Tree.bytes]
  cases t.locate d with
  | error e => simp
  | ok l =>
    obtain ⟨names, node⟩ := l
    cases node <;> simp

theorem isArtifact_iff : isArtifact n = true ↔
    ∃ content, n.at? manifestNames = some (.file content) := by
  rw [isArtifact, Option.any_eq_true]
  constructor
  · intro h
    obtain ⟨m, hm, hfile⟩ := h
    cases m with
    | file content => exact ⟨content, hm⟩
    | directory entries => cases hfile
  · intro h
    obtain ⟨content, hcontent⟩ := h
    exact ⟨.file content, hcontent, rfl⟩

/-- The manifest is looked up through the path or in the node, with one answer. -/
theorem holdsManifest_iff (h : t.locate root = .ok ⟨place, n⟩)
    (hnames : ∀ name ∈ rel, isName name = true) :
    HoldsManifest t (root.below rel) ↔ ∃ m, n.at? rel = some m ∧ isArtifact m = true := by
  have hmanifest : ∀ name ∈ manifestNames, isName name = true := by decide
  have hfile : (root.below rel).join manifestFile = root.below (rel ++ manifestNames) := by
    rw [below_append, manifestFile_eq]
    exact (below_eq_join _ (List.cons_ne_nil _ _) hmanifest).symm
  have hall := List.forall_mem_append.mpr ⟨hnames, hmanifest⟩
  rw [HoldsManifest, hfile]
  constructor
  · intro hholds
    obtain ⟨content, hbytes⟩ := hholds
    obtain ⟨names, hlocate⟩ := bytes_eq_ok.mp hbytes
    have hat := ((locate_below_iff h hall).mp hlocate).2
    rw [Node.at?_append] at hat
    obtain ⟨m, hm, hat⟩ := Option.bind_eq_some_iff.mp hat
    have hisArtifact : isArtifact m = true := isArtifact_iff.mpr ⟨content, hat⟩
    exact ⟨m, hm, hisArtifact⟩
  · intro hartifact
    obtain ⟨m, hm, hartifact⟩ := hartifact
    obtain ⟨content, hat⟩ := isArtifact_iff.mp hartifact
    have hbelow : n.at? (rel ++ manifestNames) = some (.file content) := by
      rw [Node.at?_append, hm]
      exact hat
    have hbytes' : t.bytes (root.below (rel ++ manifestNames)) = .ok content :=
      bytes_eq_ok.mpr ⟨_, (locate_below_iff h hall).mpr ⟨rfl, hbelow⟩⟩
    exact ⟨content, hbytes'⟩

theorem isDirectory_of_isArtifact (h : isArtifact n = true) : n.isDirectory = true := by
  cases n with
  | file content =>
    rw [isArtifact_file] at h
    cases h
  | directory entries => rfl

/-- The outermost directories with a manifest are the topmost artifacts of the node. -/
theorem outermost_iff (h : t.locate root = .ok ⟨place, n⟩) (hn : n.isProper = true) :
    Outermost t root rel ↔ Topmost n rel := by
  constructor
  · intro houtermost
    obtain ⟨⟨hnames, -⟩, hholds, hfirst⟩ := houtermost
    have hexists : ∃ m, n.at? rel = some m ∧ isArtifact m = true :=
      (holdsManifest_iff h hnames).mp hholds
    refine ⟨hexists, fun above hpre hne m hm => ?_⟩
    have hnames' : ∀ name ∈ above, isName name = true :=
      fun name hname => hnames name (hpre.subset hname)
    apply Bool.eq_false_iff.mpr
    exact fun hm' => hfirst above hpre hne ((holdsManifest_iff h hnames').mpr ⟨m, hm, hm'⟩)
  · intro htop
    obtain ⟨⟨m, hm, hartifact⟩, hfirst⟩ := htop
    have hnames := (Node.isProper_of_at? hn hm).2
    have hholdsManifest : HoldsManifest t (root.below rel) :=
      (holdsManifest_iff h hnames).mpr ⟨m, hm, hartifact⟩
    refine ⟨⟨hnames, ?_⟩, hholdsManifest, ?_⟩
    · rw [Tree.isDirectory, locate_below h hm hnames]
      exact isDirectory_of_isArtifact hartifact
    · intro above hpre hne hholds
      have hnames' : ∀ name ∈ above, isName name = true :=
        fun name hname => hnames name (hpre.subset hname)
      obtain ⟨m', hm', hartifact'⟩ := (holdsManifest_iff h hnames').mp hholds
      have hne' : isArtifact m' ≠ true := Bool.eq_false_iff.mp (hfirst above hpre hne m' hm')
      exact absurd hartifact' hne'

/-! ## What the walk comes to -/

/-- On the way to an artifact there is one that is topmost. -/
theorem exists_topmost (hat : n.at? rel = some m) (hartifact : isArtifact m = true) :
    ∃ above, above <+: rel ∧ Topmost n above := by
  induction rel generalizing n with
  | nil =>
    rw [Node.at?_nil] at hat
    exact ⟨[], List.nil_prefix, topmost_nil.mpr (Option.some.inj hat ▸ hartifact)⟩
  | cons name rest ih =>
    by_cases hn : isArtifact n = true
    · exact ⟨[], List.nil_prefix, topmost_nil.mpr hn⟩
    · cases n with
      | file content => simp at hat
      | directory entries =>
        obtain ⟨child, hchild, hat⟩ := Node.at?_directory_cons.mp hat
        obtain ⟨above, hpre, htop⟩ := ih hat
        have hbegins : name :: above <+: name :: rest := List.prefix_cons_inj name |>.mpr hpre
        refine ⟨name :: above, hbegins, ?_⟩
        exact (topmost_cons (Bool.eq_false_iff.mpr hn)).mpr ⟨child, hchild, htop⟩

/-- A topmost artifact does not lie inside another. -/
theorem Topmost.eq_of_isPrefix {rel' : List String} (h : Topmost n rel) (h' : Topmost n rel')
    (hpre : rel <+: rel') : rel = rel' := by
  by_contra hne
  obtain ⟨m, hm, hartifact⟩ := h.artifact
  have hnot := h'.first rel hpre hne m hm
  rw [hartifact] at hnot
  cases hnot

/-- Two paths of one directory go the same way down from the root, so neither of two outermost
directories is inside the other. -/
theorem Outermost.eq_nil_of_below {rel' inner : List String} (hrel : Outermost t root rel)
    (h : t.locate root = .ok ⟨place, n⟩) (hn : n.isProper = true) (hrel' : Outermost t root rel')
    (hnames : ∀ name ∈ inner, isName name = true)
    (heq : (root.below rel).below inner = root.below rel') : inner = [] := by
  have htop' := (outermost_iff h hn).mp hrel'
  obtain ⟨m, hm, -⟩ := htop'.artifact
  have hlocate := locate_below h hm hrel'.under.names
  have hall := List.forall_mem_append.mpr ⟨hrel.under.names, hnames⟩
  rw [← heq, ← below_append, locate_below_iff h hall] at hlocate
  have hway : rel' = rel ++ inner := List.append_cancel_left hlocate.1
  have hsame : rel = rel' :=
    ((outermost_iff h hn).mp hrel).eq_of_isPrefix htop' ⟨inner, hway.symm⟩
  exact List.self_eq_append_right.mp (hsame.trans hway)

theorem locate_of_mem_artifactsAt (h : t.locate root = .ok ⟨place, n⟩) (hn : n.isProper = true)
    (hd : d ∈ artifactsAt root n) : ∃ rel m, t.locate d = .ok ⟨place ++ rel, m⟩ := by
  obtain ⟨rel, rfl, htop⟩ := (mem_artifactsAt hn).mp hd
  obtain ⟨m, hm, -⟩ := htop.artifact
  have hlocate : t.locate (root.below rel) = .ok ⟨place ++ rel, m⟩ :=
    locate_below h hm (Node.isProper_of_at? hn hm).2
  exact ⟨rel, m, hlocate⟩

/-- The walk comes to no directory twice, however its path is written. -/
theorem pairwise_artifactsAt (h : t.locate root = .ok ⟨place, n⟩) (hn : n.isProper = true) :
    (artifactsAt root n).Pairwise (·.components ≠ ·.components) := by
  induction n using Node.induction generalizing root place with
  | file content =>
    rw [artifactsAt]
    exact List.Pairwise.nil
  | directory entries ih =>
    obtain ⟨hnodup, hproper⟩ := Files.isProper_directory.mp hn
    have hentry : ∀ e ∈ entries, t.locate (root.join ⟨e.1⟩) = .ok ⟨place ++ [e.1], e.2⟩ :=
      fun e he => by
        have hat : (Node.directory entries).at? [e.1] = some e.2 :=
          Node.at?_directory_cons.mpr
            ⟨e.2, (Files.named?_eq_some_iff hnodup).mpr he, Node.at?_nil e.2⟩
        have hall : ∀ x ∈ [e.1], isName x = true := List.forall_mem_singleton.mpr (hproper e he).1
        exact locate_below h hat hall
    rw [artifactsAt]
    split
    · exact List.pairwise_singleton _ _
    · rw [artifactsIn_listing, List.pairwise_flatMap, listing, List.forall_mem_map,
        List.pairwise_map]
      refine ⟨fun e he => ih e he (hentry e he) (hproper e he).2, ?_⟩
      refine List.Pairwise.imp_of_mem (fun {e e'} he he' hne => ?_) (List.pairwise_map.mp hnodup)
      intro d hd d' hd' heq
      obtain ⟨rel, m, hl⟩ := locate_of_mem_artifactsAt (hentry e he) (hproper e he).2 hd
      obtain ⟨rel', m', hl'⟩ := locate_of_mem_artifactsAt (hentry e' he') (hproper e' he').2 hd'
      have hplace := congrArg Located.names (located_eq hl hl' heq)
      simp only [List.append_assoc, List.singleton_append, List.append_cancel_left_eq] at hplace
      exact hne (List.cons.inj hplace).1

/-! ## The search -/

/-- Discovery sorts what a walk over the node of the root gives. -/
theorem discover?_eq (h : t.locate root = .ok ⟨place, n⟩) (hdirectory : n.isDirectory = true) :
    discover? t root = some ((artifactsAt root n).mergeSort Path.le) := by
  cases n with
  | file content => cases hdirectory
  | directory entries => rw [discover?, h]

/-- **Discovery finds the outermost artifacts**: under a directory it finds those directories that
hold a manifest and have above them, up to the root, no other that holds one. They are in order,
each of them once; none lies inside another, and what holds a manifest but is not found lies
inside one of them. They are what the walk gives that leaves the inside of an artifact out. -/
theorem discover?_outermost (ht : t.root.isProper = true) (hroot : t.isDirectory root = true) :
    ∃ found, discover? t root = some found ∧ Discovery t root found := by
  rw [Tree.isDirectory] at hroot
  cases h : t.locate root with
  | error e => simp [h] at hroot
  | ok l =>
    obtain ⟨place, n⟩ := l
    simp only [h] at hroot
    have hn := (Node.isProper_of_at? ht (Tree.at?_of_locate h)).1
    have hmem : ∀ d, d ∈ (artifactsAt root n).mergeSort Path.le ↔
        ∃ rel, d = root.below rel ∧ Outermost t root rel := fun d => by
      rw [List.mem_mergeSort, mem_artifactsAt hn]
      simp only [outermost_iff h hn]
    refine ⟨_, discover?_eq h hroot, hmem, ?_, ?_, ?_, place, n, h, by rw [search_root]⟩
    · -- The order is by components, and no two paths have the same ones.
      have hdistinct := (List.mergeSort_perm (artifactsAt root n) Path.le).symm.pairwise
        (pairwise_artifactsAt h hn) (fun heq => heq.symm)
      exact (Path.pairwise_mergeSort _).and hdistinct |>.imp fun ⟨hle, hne⟩ => ⟨hle, hne⟩
    · intro d hd inner hne hnames hinner
      obtain ⟨rel, rfl, hrel⟩ := (hmem d).mp hd
      obtain ⟨rel', heq, hrel'⟩ := (hmem _).mp hinner
      have hnil : inner = [] := hrel.eq_nil_of_below h hn hrel' hnames heq
      exact hne hnil
    · intro rel hunder hholds
      obtain ⟨m, hm, hartifact⟩ := (holdsManifest_iff h hunder.names).mp hholds
      obtain ⟨above, hpre, htop⟩ := exists_topmost hm hartifact
      have hmem' : root.below above ∈ (artifactsAt root n).mergeSort Path.le :=
        (hmem _).mpr ⟨above, rfl, (outermost_iff h hn).mpr htop⟩
      exact ⟨above, hpre, hmem'⟩

/-- A directory with a manifest and with what else there is in it. -/
def withManifest (others : List (String × Node)) : Node :=
  .directory (("META-INF", .directory [("MANIFEST.MF", .file [])]) :: others)

/-- An artifact with another inside, one that is further down beside it, and between them a
directory in which `META-INF` is a file. -/
def nestedFolder : Node :=
  .directory [
    ("b", withManifest [("inner", withManifest [])]),
    ("empty", .directory [("META-INF", .file [])]),
    ("a", .directory [("deep", withManifest [])])]

/-- A tree with that directory alone. -/
def nestedFlows : Tree :=
  { root := .directory [("flows", nestedFolder)] }

theorem discover?_outermost_nestedFlows :
    (nestedFlows.root.isProper = true ∧ nestedFlows.isDirectory ⟨"/flows"⟩ = true) ∧
      Discovery nestedFlows ⟨"/flows"⟩ [⟨"/flows/a/deep"⟩, ⟨"/flows/b"⟩] := by
  have hproper : nestedFlows.root.isProper = true := by with_unfolding_all rfl
  have hdirectory : nestedFlows.isDirectory ⟨"/flows"⟩ = true := by with_unfolding_all rfl
  obtain ⟨found, hfound, h⟩ := discover?_outermost hproper hdirectory
  have hflows : discover? nestedFlows ⟨"/flows"⟩ = some [⟨"/flows/a/deep"⟩, ⟨"/flows/b"⟩] := by
    have hl : nestedFlows.locate ⟨"/flows"⟩ = .ok ⟨["flows"], nestedFolder⟩ := by
      with_unfolding_all rfl
    have hwalk : artifactsAt ⟨"/flows"⟩ nestedFolder = [⟨"/flows/b"⟩, ⟨"/flows/a/deep"⟩] := by
      with_unfolding_all rfl
    have hle : Path.le ⟨"/flows/b"⟩ ⟨"/flows/a/deep"⟩ = false := by with_unfolding_all rfl
    rw [discover?_eq hl rfl, hwalk]
    simp [List.mergeSort, List.MergeSort.Internal.splitInTwo, hle]
  obtain rfl := Option.some.inj (hfound.symm.trans hflows)
  exact ⟨⟨hproper, hdirectory⟩, h⟩

end FlowLint.Bundle

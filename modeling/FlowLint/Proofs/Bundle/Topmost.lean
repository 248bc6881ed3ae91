import FlowLint.Bundle.Discovery
import FlowLint.Proofs.Files.Places

/-!
# Which directories are discovered

A search from a root comes to every directory that holds a manifest and does not lie inside
another such directory that the search has come to: the artifacts that are topmost below the
root. They are told here by the names on the way from the root, without the walk. That the
names are possible ones is needed only to find an artifact again by its path.
-/

namespace FlowLint

open FlowLint.Files (Node Tree Located named? isName)

/-- The path of what is below a directory under names. -/
def Path.below (p : Path) (rel : List String) : Path :=
  rel.foldl (fun p name => p.join ⟨name⟩) p

namespace Bundle

variable {t : Tree} {root d p : Path} {place rel : List String} {n m : Node}
  {entries : List (String × Node)}

/-- There is an artifact at a place in a node, and none on the way to it. -/
structure Topmost (n : Node) (rel : List String) : Prop where
  artifact : ∃ m, n.at? rel = some m ∧ isArtifact m = true
  first : ∀ above, above <+: rel → above ≠ rel → ∀ m, n.at? above = some m → isArtifact m = false

/-- A path of an artifact that is topmost below a root. -/
def FoundUnder (t : Tree) (root d : Path) : Prop :=
  ∃ l, t.locate root = .ok l ∧ ∃ rel, d = root.below rel ∧ Topmost l.node rel

/-! ## The walk -/

@[simp] theorem isArtifact_file (content : List UInt8) : isArtifact (.file content) = false := by
  simp [isArtifact, manifestNames]

@[simp] theorem topmost_nil : Topmost n [] ↔ isArtifact n = true := by
  constructor
  · rintro ⟨⟨m, hm, hartifact⟩, -⟩
    rw [Node.at?_nil] at hm
    rw [Option.some.inj hm]
    exact hartifact
  · intro h
    exact ⟨⟨n, Node.at?_nil n, h⟩, fun above hpre hne => absurd (List.prefix_nil.mp hpre) hne⟩

theorem topmost_of_isArtifact (h : isArtifact n = true) : Topmost n rel ↔ rel = [] := by
  constructor
  · intro htop
    by_contra hne
    have hnot := htop.first [] List.nil_prefix (Ne.symm hne) n (Node.at?_nil n)
    rw [h] at hnot
    cases hnot
  · rintro rfl
    exact topmost_nil.mpr h

/-- Below a directory that is no artifact, a topmost place is one of an entry. -/
theorem topmost_cons {name : String} (h : isArtifact (.directory entries) = false) :
    Topmost (.directory entries) (name :: rel) ↔
      ∃ child, named? entries name = some child ∧ Topmost child rel := by
  constructor
  · rintro ⟨⟨m, hm, hartifact⟩, hfirst⟩
    obtain ⟨child, hchild, hm⟩ := Node.at?_directory_cons.mp hm
    refine ⟨child, hchild, ⟨m, hm, hartifact⟩, fun above hpre hne m hm => ?_⟩
    have hne : name :: above ≠ name :: rel := fun heq => hne (List.cons.inj heq).2
    have hbegins : name :: above <+: name :: rel := List.prefix_cons_inj name |>.mpr hpre
    exact hfirst (name :: above) hbegins hne m (Node.at?_directory_cons.mpr ⟨child, hchild, hm⟩)
  · rintro ⟨child, hchild, ⟨m, hm, hartifact⟩, hfirst⟩
    refine ⟨⟨m, Node.at?_directory_cons.mpr ⟨child, hchild, hm⟩, hartifact⟩, ?_⟩
    intro above hpre hne m hm
    cases above with
    | nil =>
      rw [Node.at?_nil] at hm
      rw [← Option.some.inj hm]
      exact h
    | cons other above =>
      obtain ⟨rfl, habove⟩ := List.cons_prefix_cons.mp hpre
      obtain ⟨child', hchild', hm⟩ := Node.at?_directory_cons.mp hm
      obtain rfl := Option.some.inj (hchild.symm.trans hchild')
      exact hfirst above habove (fun heq => hne (heq ▸ rfl)) m hm

@[simp] theorem mem_artifactsIn :
    d ∈ artifactsIn p entries ↔ ∃ e ∈ entries, d ∈ artifactsAt (p.join ⟨e.1⟩) e.2 := by
  induction entries with
  | nil => simp [artifactsIn]
  | cons e rest ih => simp [artifactsIn, ih]

/-- The walk comes to the topmost artifacts and to no others. -/
theorem mem_artifactsAt (hn : n.isProper = true) :
    d ∈ artifactsAt p n ↔ ∃ rel, d = p.below rel ∧ Topmost n rel := by
  induction n using Node.induction generalizing p with
  | file content =>
    rw [artifactsAt]
    constructor
    · intro h
      exact absurd h List.not_mem_nil
    · rintro ⟨rel, -, ⟨m, hm, hartifact⟩, -⟩
      cases rel with
      | nil =>
        rw [Node.at?_nil] at hm
        rw [← Option.some.inj hm, isArtifact_file] at hartifact
        cases hartifact
      | cons name rel => simp at hm
  | directory entries ih =>
    obtain ⟨hnodup, hproper⟩ := Files.isProper_directory.mp hn
    rw [artifactsAt]
    cases hartifact : isArtifact (.directory entries) with
    | true => simp [topmost_of_isArtifact hartifact, Path.below]
    | false =>
      rw [if_neg (by simp), mem_artifactsIn]
      constructor
      · rintro ⟨e, he, hd⟩
        obtain ⟨rel, rfl, htop⟩ := (ih e he (hproper e he).2).mp hd
        exact ⟨e.1 :: rel, rfl, (topmost_cons hartifact).mpr
          ⟨e.2, (Files.named?_eq_some_iff hnodup).mpr he, htop⟩⟩
      · rintro ⟨rel, rfl, htop⟩
        cases rel with
        | nil =>
          rw [topmost_nil, hartifact] at htop
          cases htop
        | cons name rel =>
          obtain ⟨child, hchild, htop⟩ := (topmost_cons hartifact).mp htop
          have he := Node.mem_of_named? hchild
          have hmem : p.below (name :: rel) ∈ artifactsAt (p.join ⟨name⟩) child :=
            (ih _ he (hproper _ he).2).mpr ⟨rel, rfl, htop⟩
          exact ⟨(name, child), he, hmem⟩

/-! ## Discovery -/

/-- Discovery fails at a root that is no directory, and only there. -/
@[simp] theorem discover?_isSome : (discover? t root).isSome = t.isDirectory root := by
  unfold discover? Tree.isDirectory
  cases t.locate root with
  | error e => rfl
  | ok l =>
    obtain ⟨names, node⟩ := l
    cases node <;> rfl

/-- What is discovered under a root are the artifacts that are topmost there. -/
theorem mem_discover? (ht : t.root.isProper = true) :
    d ∈ (discover? t root).getD [] ↔ FoundUnder t root d := by
  unfold discover? FoundUnder
  cases hl : t.locate root with
  | error e => simp
  | ok l =>
    have hproper := (Node.isProper_of_at? ht (Tree.at?_of_locate hl)).1
    obtain ⟨names, node⟩ := l
    cases node with
    | file content =>
      have hnone := mem_artifactsAt (d := d) (p := root) hproper
      simpa [artifactsAt] using hnone
    | directory entries =>
      rw [Option.getD_some, List.mem_mergeSort, mem_artifactsAt hproper]
      simp

/-- What lies below a directory is found by its path. -/
theorem locate_below (h : t.locate p = .ok ⟨place, n⟩) (hat : n.at? rel = some m)
    (hnames : ∀ name ∈ rel, isName name = true) :
    t.locate (p.below rel) = .ok ⟨place ++ rel, m⟩ := by
  induction rel generalizing p place n with
  | nil =>
    rw [Node.at?_nil] at hat
    rw [List.append_nil, ← Option.some.inj hat]
    exact h
  | cons name rest ih =>
    obtain ⟨hname, hrest⟩ := List.forall_mem_cons.mp hnames
    obtain ⟨child, hchild, hat⟩ : ∃ child, n.at? [name] = some child ∧ child.at? rest = some m := by
      rw [← List.singleton_append, Node.at?_append] at hat
      exact Option.bind_eq_some_iff.mp hat
    have hjoin : t.locate (p.join ⟨name⟩) = .ok ⟨place ++ [name], child⟩ := by
      have hone := (Tree.locate_join_names (l := ⟨place ++ [name], child⟩) h
        (List.cons_ne_nil name []) (List.forall_mem_singleton.mpr hname)).mpr ⟨rfl, hchild⟩
      rwa [String.intercalate_singleton] at hone
    have hbelow := ih hjoin hat hrest
    rwa [List.append_assoc] at hbelow

/-- An artifact that is found is there. -/
theorem FoundUnder.locate (ht : t.root.isProper = true) (h : FoundUnder t root d) :
    ∃ l, t.locate d = .ok l ∧ isArtifact l.node = true := by
  obtain ⟨⟨place, n⟩, hroot, rel, rfl, ⟨m, hm, hartifact⟩, -⟩ := h
  have hproper := (Node.isProper_of_at? ht (Tree.at?_of_locate hroot)).1
  have hlocate : t.locate (root.below rel) = .ok ⟨place ++ rel, m⟩ :=
    locate_below hroot hm (Node.isProper_of_at? hproper hm).2
  exact ⟨_, hlocate, hartifact⟩

end Bundle

end FlowLint

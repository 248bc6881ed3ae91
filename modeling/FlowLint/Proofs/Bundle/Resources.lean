import FlowLint.Bundle.Reading
import FlowLint.Proofs.Files.Places

/-!
# The resources of an artifact

The resources of an artifact are the files that lie in its resource folders, however deep, and
that their folder and extension give a category. Each is there once, and as its name is the way
to it, no two have the same name. An artifact depends on where its directory is, and not on the
path by which the directory was found.
-/

namespace FlowLint.Bundle

open FlowLint.Files (Node Tree Located named? isName)
open FlowLint.Flow (Artifact Resource)

variable {t : Tree} {d d' : Path} {place rel : List String} {n : Node} {content : List UInt8}
  {entries : List (String × Node)} {folder : String} {r : Resource}

/-- The place of a folder of resources in an artifact. -/
def folderPlace (folder : String) : List String :=
  ["src", "main", "resources", folder]

/-- A resource is a file of an artifact: it lies in a folder of resources, is called by its path
below the folder of all resources, and has the category that its folder and extension say. -/
structure IsResource (n : Node) (r : Resource) : Prop where
  file : ∃ folder ∈ resourceFolders, ∃ rel ≠ [],
    n.at? (folderPlace folder ++ rel) = some (.file r.content) ∧
    r.name = "/".intercalate (folder :: rel) ∧ categorize folder ⟨r.name⟩ = some r.category

/-! ## Files below a node -/

theorem filesIn_eq : filesIn entries =
    entries.flatMap fun e => (filesOf e.2).map fun f => (e.1 :: f.1, f.2) := by
  induction entries with
  | nil => rfl
  | cons e rest ih => rw [filesIn, ih, List.flatMap_cons]

/-- The walk comes to the files of a node by the ways to them. -/
theorem mem_filesOf (hn : n.isProper = true) :
    (rel, content) ∈ filesOf n ↔ n.at? rel = some (.file content) := by
  induction n using Node.induction generalizing rel with
  | file other =>
    rw [filesOf, List.mem_singleton, Prod.mk.injEq]
    cases rel with
    | nil => simp [eq_comm]
    | cons name rest => simp
  | directory entries ih =>
    obtain ⟨hnodup, hproper⟩ := Files.isProper_directory.mp hn
    rw [filesOf, filesIn_eq]
    simp only [List.mem_flatMap, List.mem_map]
    constructor
    · rintro ⟨e, he, ⟨rel', content'⟩, hf, heq⟩
      obtain ⟨rfl, rfl⟩ := Prod.mk.inj heq
      have hat' : e.2.at? rel' = some (Node.file content') := (ih e he (hproper e he).2).mp hf
      exact Node.at?_directory_cons.mpr ⟨e.2, (Files.named?_eq_some_iff hnodup).mpr he, hat'⟩
    · intro hat
      cases rel with
      | nil =>
        rw [Node.at?_nil] at hat
        cases hat
      | cons name rest =>
        obtain ⟨child, hchild, hat⟩ := Node.at?_directory_cons.mp hat
        have he := Node.mem_of_named? hchild
        have hmem : (rest, content) ∈ filesOf child := (ih _ he (hproper _ he).2).mpr hat
        exact ⟨_, he, _, hmem, rfl⟩

/-- The walk comes to each place once. -/
theorem nodup_filesOf (hn : n.isProper = true) : ((filesOf n).map (·.1)).Nodup := by
  induction n using Node.induction with
  | file content => exact List.nodup_singleton _
  | directory entries ih =>
    obtain ⟨hnodup, hproper⟩ := Files.isProper_directory.mp hn
    rw [filesOf, filesIn_eq, List.map_flatMap, List.nodup_flatMap]
    constructor
    · intro e he
      have hchild := (ih e he (hproper e he).2).map (List.cons_injective (a := e.1))
      rw [List.map_map] at hchild ⊢
      exact hchild
    · refine (List.pairwise_map.mp hnodup).imp fun {e e'} hne => ?_
      refine List.disjoint_left.mpr fun rel hrel hrel' => ?_
      simp only [List.map_map, List.mem_map, Function.comp_apply] at hrel hrel'
      obtain ⟨f, -, rfl⟩ := hrel
      obtain ⟨f', -, heq⟩ := hrel'
      exact hne (List.cons.inj heq).1.symm

/-! ## One folder -/

/-- The files below a folder of resources, by the ways from it. -/
def filesUnder (n : Node) (folder : String) : List (List String × List UInt8) :=
  match n.at? (folderPlace folder) with
  | some (.directory entries) => filesIn entries
  | _ => []

theorem isName_of_mem_resourceFolders (h : folder ∈ resourceFolders) : isName folder = true :=
  (by decide : ∀ folder ∈ resourceFolders, isName folder = true) folder h

theorem isName_of_mem_folderPlace (h : folder ∈ resourceFolders) :
    ∀ name ∈ folderPlace folder, isName name = true :=
  (by decide : ∀ folder ∈ resourceFolders, ∀ name ∈ folderPlace folder, isName name = true) folder h

/-- The files under a folder are those at places strictly below it. -/
theorem mem_filesUnder (hn : n.isProper = true) : (rel, content) ∈ filesUnder n folder ↔
    rel ≠ [] ∧ n.at? (folderPlace folder ++ rel) = some (.file content) := by
  unfold filesUnder
  rw [Node.at?_append]
  cases hat : n.at? (folderPlace folder) with
  | none => simp
  | some m =>
    have hm := (Node.isProper_of_at? hn hat).1
    cases m with
    | file other =>
      cases rel with
      | nil => simp
      | cons name rest => simp
    | directory entries =>
      have hfiles : (rel, content) ∈ filesIn entries ↔
          (Node.directory entries).at? rel = some (.file content) := mem_filesOf hm
      simp only [hfiles, Option.bind_some, iff_and_self]
      rintro hfile rfl
      rw [Node.at?_nil] at hfile
      cases hfile

theorem nodup_filesUnder (hn : n.isProper = true) : ((filesUnder n folder).map (·.1)).Nodup := by
  unfold filesUnder
  split
  · next entries hat =>
    have hnodup := nodup_filesOf (Node.isProper_of_at? hn hat).1
    rwa [filesOf] at hnodup
  · exact List.nodup_nil

/-- Entries are listed at a path below a located directory exactly if a directory is there. -/
theorem entries_join_names (h : t.locate d = .ok ⟨place, n⟩) (hne : rel ≠ [])
    (hnames : ∀ name ∈ rel, isName name = true) :
    t.entries (d.join ⟨"/".intercalate rel⟩) = .ok entries ↔
      n.at? rel = some (.directory entries) := by
  have hlocate := fun l => Tree.locate_join_names (l := l) h hne hnames
  constructor
  · intro hentries
    unfold Tree.entries at hentries
    split at hentries
    · cases hentries
    · next names es hl =>
      cases hentries
      exact ((hlocate _).mp hl).2
    · cases hentries
  · intro hat
    rw [Tree.entries, (hlocate ⟨_, _⟩).mpr ⟨rfl, hat⟩]

/-- Reading a folder categorizes the files under it, and no error occurs for a folder that is
missing. -/
theorem readFolder_eq (h : t.locate d = .ok ⟨place, n⟩) (hfolder : folder ∈ resourceFolders) :
    readFolder t d folder = (filesUnder n folder).filterMap (resource? folder) := by
  have hjoin : (d.join resourcesFolder).join ⟨folder⟩ =
      d.join ⟨"/".intercalate (folderPlace folder)⟩ := by
    have hnames : ∀ name ∈ ["src", "main", "resources"], isName name = true := by decide
    have hjoin := Files.join_join_names d (List.cons_ne_nil _ _) (List.cons_ne_nil folder [])
      hnames (List.forall_mem_singleton.mpr (isName_of_mem_resourceFolders hfolder))
    rwa [String.intercalate_singleton] at hjoin
  have hiff : ∀ entries, t.entries (d.join ⟨"/".intercalate (folderPlace folder)⟩) = .ok entries ↔
      n.at? (folderPlace folder) = some (.directory entries) := fun _ =>
    entries_join_names h (List.cons_ne_nil _ _) (isName_of_mem_folderPlace hfolder)
  rw [readFolder, hjoin, filesUnder]
  cases hentries : t.entries (d.join ⟨"/".intercalate (folderPlace folder)⟩) with
  | ok es => rw [(hiff es).mp hentries]
  | error e =>
    cases hat : n.at? (folderPlace folder) with
    | none => rfl
    | some m =>
      cases m with
      | file content => rfl
      | directory es =>
        rw [(hiff es).mpr hat] at hentries
        cases hentries

/-- What a file of a folder becomes, if it becomes a resource at all. -/
theorem resource?_eq_some : resource? folder (rel, content) = some r ↔
    r.content = content ∧ r.name = "/".intercalate (folder :: rel) ∧
      categorize folder ⟨r.name⟩ = some r.category := by
  rw [resource?, Option.map_eq_some_iff]
  constructor
  · rintro ⟨category, hcategory, rfl⟩
    exact ⟨rfl, rfl, hcategory⟩
  · rintro ⟨rfl, hname, hcategory⟩
    rw [hname] at hcategory
    exact ⟨r.category, hcategory, congrArg (Resource.mk · r.category r.content) hname.symm⟩

/-- Membership in a folder's resources, said of the node alone. -/
theorem mem_readFolder (h : t.locate d = .ok ⟨place, n⟩) (hn : n.isProper = true)
    (hfolder : folder ∈ resourceFolders) : r ∈ readFolder t d folder ↔
      ∃ rel ≠ [], n.at? (folderPlace folder ++ rel) = some (.file r.content) ∧
        r.name = "/".intercalate (folder :: rel) ∧
        categorize folder ⟨r.name⟩ = some r.category := by
  rw [readFolder_eq h hfolder, List.mem_filterMap]
  constructor
  · rintro ⟨⟨rel, content⟩, hfile, hr⟩
    obtain ⟨hne, hat⟩ := (mem_filesUnder hn).mp hfile
    obtain ⟨rfl, hname, hcategory⟩ := resource?_eq_some.mp hr
    exact ⟨rel, hne, hat, hname, hcategory⟩
  · rintro ⟨rel, hne, hat, hr⟩
    have hmem : (rel, r.content) ∈ filesUnder n folder := (mem_filesUnder hn).mpr ⟨hne, hat⟩
    exact ⟨(rel, r.content), hmem, resource?_eq_some.mpr ⟨rfl, hr⟩⟩

theorem names_filterMap_sublist (folder : String) (files : List (List String × List UInt8)) :
    ((files.filterMap (resource? folder)).map (·.name)).Sublist
      (files.map fun f => "/".intercalate (folder :: f.1)) := by
  induction files with
  | nil => exact .slnil
  | cons f rest ih =>
    rw [List.map_cons, List.filterMap_cons]
    cases hr : resource? folder f with
    | none => exact .cons _ ih
    | some r =>
      rw [List.map_cons, (resource?_eq_some.mp hr).2.1]
      exact .cons_cons _ ih

theorem nodup_readFolder (h : t.locate d = .ok ⟨place, n⟩) (hn : n.isProper = true)
    (hfolder : folder ∈ resourceFolders) : ((readFolder t d folder).map (·.name)).Nodup := by
  rw [readFolder_eq h hfolder]
  refine (names_filterMap_sublist folder (filesUnder n folder)).nodup ?_
  have hnames : ∀ f ∈ filesUnder n folder, ∀ name ∈ folder :: f.1, isName name = true := by
    intro f hf
    have hat : n.at? (folderPlace folder ++ f.1) = some (.file f.2) := ((mem_filesUnder hn).mp hf).2
    have hproper := (Node.isProper_of_at? hn hat).2
    have hname : isName folder = true := isName_of_mem_resourceFolders hfolder
    exact List.forall_mem_cons.mpr ⟨hname, (List.forall_mem_append.mp hproper).2⟩
  -- Different files are reached by different ways, and so their names differ.
  have hne' : (filesUnder n folder).Pairwise fun a b => a.1 ≠ b.1 :=
    List.pairwise_map.mp (nodup_filesUnder hn)
  refine List.pairwise_map.mpr (hne'.imp_of_mem ?_)
  intro f f' hf hf' hne heq
  have hintercalateInj : folder :: f.1 = folder :: f'.1 :=
    Files.intercalate_inj (List.cons_ne_nil _ _) (List.cons_ne_nil _ _) (hnames f hf)
      (hnames f' hf') heq
  exact hne (List.cons.inj hintercalateInj).2

/-! ## All folders -/

/-- The resources of an artifact are its files that are resources. -/
theorem mem_readResources (h : t.locate d = .ok ⟨place, n⟩) (hn : n.isProper = true) :
    r ∈ readResources t d ↔ IsResource n r := by
  rw [readResources, List.mem_flatMap]
  constructor
  · rintro ⟨folder, hfolder, hr⟩
    exact ⟨folder, hfolder, (mem_readFolder h hn hfolder).mp hr⟩
  · rintro ⟨folder, hfolder, hr⟩
    have hmem : r ∈ readFolder t d folder := (mem_readFolder h hn hfolder).mpr hr
    exact ⟨folder, hfolder, hmem⟩

/-- No two resources of an artifact have the same name. -/
theorem nodup_readResources (h : t.locate d = .ok ⟨place, n⟩) (hn : n.isProper = true) :
    ((readResources t d).map (·.name)).Nodup := by
  rw [readResources, List.map_flatMap, List.nodup_flatMap]
  have hunique : ∀ folder ∈ resourceFolders, ((readFolder t d folder).map (·.name)).Nodup :=
    fun folder hfolder => nodup_readFolder h hn hfolder
  refine ⟨hunique, ?_⟩
  have hfolders : resourceFolders.Pairwise (· ≠ ·) := by decide
  refine hfolders.imp_of_mem fun {folder folder'} hfolder hfolder' hne => ?_
  have hway : ∀ folder ∈ resourceFolders, ∀ name ∈ (readFolder t d folder).map (·.name),
      ∃ rel, name = "/".intercalate (folder :: rel) ∧
        ∀ name ∈ folder :: rel, isName name = true := by
    intro folder hfolder name hname
    obtain ⟨r, hr, rfl⟩ := List.mem_map.mp hname
    obtain ⟨rel, -, hat, hr, -⟩ := (mem_readFolder h hn hfolder).mp hr
    have hproper := (Node.isProper_of_at? hn hat).2
    have hall : ∀ x ∈ folder :: rel, isName x = true :=
      List.forall_mem_cons.mpr ⟨isName_of_mem_resourceFolders hfolder,
        (List.forall_mem_append.mp hproper).2⟩
    exact ⟨rel, hr, hall⟩
  refine List.disjoint_left.mpr fun name hname hname' => ?_
  obtain ⟨rel, rfl, hnames⟩ := hway folder hfolder name hname
  obtain ⟨rel', heq, hnames'⟩ := hway folder' hfolder' _ hname'
  have hintercalateInj : folder :: rel = folder' :: rel' :=
    Files.intercalate_inj (List.cons_ne_nil _ _) (List.cons_ne_nil _ _) hnames hnames' heq
  exact hne (List.cons.inj hintercalateInj).1

/-! ## The node of the directory -/

section Node

variable {t' : Tree}

/-- The place of the documents in an artifact. -/
def documentPlace : List String :=
  ["src", "main", "resources", "scenarioflows", "integrationflow"]

theorem manifestFile_eq : manifestFile = ⟨"/".intercalate manifestNames⟩ := by
  with_unfolding_all rfl

theorem documentFolder_eq : documentFolder = ⟨"/".intercalate documentPlace⟩ := by
  with_unfolding_all rfl

theorem text_join_names_congr (h : t.SameNode t' d d') (hne : rel ≠ [])
    (hnames : ∀ name ∈ rel, isName name = true) {s : String}
    (hs : t.text (d.join ⟨"/".intercalate rel⟩) = .ok s) :
    t'.text (d'.join ⟨"/".intercalate rel⟩) = .ok s := by
  obtain ⟨place, place', n, h, h'⟩ := h
  obtain ⟨names, bytes, hl, hbytes⟩ := Tree.text_eq_ok.mp hs
  have hat := ((Tree.locate_join_names h hne hnames).mp hl).2
  have hl' := (Tree.locate_join_names (l := ⟨_, .file bytes⟩) h' hne hnames).mpr ⟨rfl, hat⟩
  exact Tree.text_eq_ok.mpr ⟨_, bytes, hl', hbytes⟩

theorem readManifest_eq_ok {m : Manifest} : readManifest t d = .ok m ↔
    ∃ s, t.text (d.join manifestFile) = .ok s ∧ Manifest.parse? s = some m := by
  rw [readManifest]
  cases t.text (d.join manifestFile) with
  | error e => simp
  | ok s => cases hm : Manifest.parse? s <;> simp [hm]

theorem documentFile_of_entries {es : List (String × Node)}
    (hes : t.entries (d.join documentFolder) = .ok es) {file : Path} :
    documentFile t d = .ok file ↔ ∃ document, es.filter isDocument = [document] ∧
      file = (d.join documentFolder).join ⟨document.1⟩ := by
  rw [documentFile]
  simp only [hes]
  constructor
  · intro h
    split at h
    · next name n hfilter =>
      cases h
      exact ⟨_, hfilter, rfl⟩
    · cases h
    · cases h
  · rintro ⟨document, hfilter, rfl⟩
    rw [hfilter]

/-- The document of an artifact is the only one at the place of documents. -/
theorem documentFile_eq_ok (h : t.locate d = .ok ⟨place, n⟩) (hn : n.isProper = true)
    {file : Path} : documentFile t d = .ok file ↔ ∃ es document,
      n.at? documentPlace = some (.directory es) ∧ es.filter isDocument = [document] ∧
        isName document.1 = true ∧
        file = d.join ⟨"/".intercalate (documentPlace ++ [document.1])⟩ := by
  have hplace : documentPlace ≠ [] := List.cons_ne_nil _ _
  have hnames : ∀ name ∈ documentPlace, isName name = true := by decide
  have hentries : ∀ {es}, t.entries (d.join documentFolder) = .ok es ↔
      n.at? documentPlace = some (.directory es) := fun {es} =>
    documentFolder_eq ▸ entries_join_names h hplace hnames
  have hjoin : ∀ {name}, isName name = true → (d.join documentFolder).join ⟨name⟩ =
      d.join ⟨"/".intercalate (documentPlace ++ [name])⟩ := by
    intro name hname
    have hjoin := Files.join_join_names d hplace (List.cons_ne_nil name []) hnames
      (List.forall_mem_singleton.mpr hname)
    rwa [String.intercalate_singleton, ← documentFolder_eq] at hjoin
  constructor
  · intro hfile
    cases hes : t.entries (d.join documentFolder) with
    | error e =>
      rw [documentFile] at hfile
      simp only [hes] at hfile
      cases hfile
    | ok es =>
      obtain ⟨document, hfilter, rfl⟩ := (documentFile_of_entries hes).mp hfile
      have hat := hentries.mp hes
      have hmem : document ∈ es :=
        (List.mem_filter.mp (hfilter ▸ List.mem_singleton_self document)).1
      have hname := ((Files.isProper_directory.mp (Node.isProper_of_at? hn hat).1).2 _ hmem).1
      exact ⟨es, document, hat, hfilter, hname, hjoin hname⟩
  · rintro ⟨es, document, hat, hfilter, hname, rfl⟩
    rw [← hjoin hname]
    exact (documentFile_of_entries (hentries.mpr hat)).mpr ⟨document, hfilter, rfl⟩

theorem readDocument_eq_ok {document : Markup.Element} : readDocument t d = .ok document ↔
    ∃ file s, documentFile t d = .ok file ∧ t.text file = .ok s ∧
      Markup.parse s = .ok document := by
  rw [readDocument]
  cases documentFile t d with
  | error e => simp [bind, Except.bind]
  | ok file =>
    cases hs : t.text file with
    | error e => simp [bind, Except.bind, Except.mapError, hs]
    | ok s => cases hx : Markup.parse s <;> simp [bind, Except.bind, Except.mapError, hs, hx]

/-- An artifact is its manifest, its document and its resources. -/
theorem readArtifact_eq_ok {a : Artifact} : readArtifact t d = .ok a ↔
    ∃ manifest, readManifest t d = .ok manifest ∧ ∃ document, readDocument t d = .ok document ∧
      a = ⟨⟨manifest.symbolicName, manifest.name, none⟩, document, readResources t d⟩ := by
  unfold readArtifact
  cases readManifest t d with
  | error e => simp [bind, Except.bind]
  | ok manifest =>
    cases readDocument t d <;> simp [bind, Except.bind, pure, Except.pure, eq_comm]

/-- An artifact that can be read by one path of its directory is read by every other, and in every
tree that has the same directory. -/
theorem readArtifact_congr (ht : t.root.isProper = true) (hsame : t.SameNode t' d d')
    {a : Artifact} (ha : readArtifact t d = .ok a) : readArtifact t' d' = .ok a := by
  have ⟨place, place', n, h, h'⟩ := hsame
  have hn : n.isProper = true := (Node.isProper_of_at? ht (Tree.at?_of_locate h)).1
  obtain ⟨manifest, hmanifest, document, hdocument, rfl⟩ := readArtifact_eq_ok.mp ha
  have hmanifest' : readManifest t' d' = .ok manifest := by
    obtain ⟨s, hs, hparse⟩ := readManifest_eq_ok.mp hmanifest
    rw [manifestFile_eq] at hs
    have hs' := text_join_names_congr hsame (List.cons_ne_nil _ _) (by decide) hs
    exact readManifest_eq_ok.mpr ⟨s, manifestFile_eq ▸ hs', hparse⟩
  have hdocument' : readDocument t' d' = .ok document := by
    obtain ⟨file, s, hfile, hs, hparse⟩ := readDocument_eq_ok.mp hdocument
    obtain ⟨es, entry, hat, hfilter, hname, rfl⟩ := (documentFile_eq_ok h hn).mp hfile
    have hnames : ∀ name ∈ documentPlace ++ [entry.1], isName name = true :=
      List.forall_mem_append.mpr ⟨by decide, List.forall_mem_singleton.mpr hname⟩
    have hs' := text_join_names_congr hsame (List.cons_ne_nil _ _) hnames hs
    have hdocumentFile : documentFile t' d' =
        .ok (d'.join ⟨"/".intercalate (documentPlace ++ [entry.1])⟩) :=
      (documentFile_eq_ok h' hn).mpr ⟨es, entry, hat, hfilter, hname, rfl⟩
    exact readDocument_eq_ok.mpr ⟨_, s, hdocumentFile, hs', hparse⟩
  have hresources : readResources t d = readResources t' d' :=
    List.flatMap_congr fun _ hfolder =>
      (readFolder_eq h hfolder).trans (readFolder_eq h' hfolder).symm
  rw [hresources]
  exact readArtifact_eq_ok.mpr ⟨manifest, hmanifest', document, hdocument', rfl⟩

end Node

end FlowLint.Bundle

import FlowLint.Proofs.Order.Canonical
import FlowLint.Proofs.RulesFile.ImportGraph

/-!
# What a load comes to

Each call of the loader is described once, by what it calls and what it returns. What
follows from success is read off from these descriptions: a load that succeeds has seen
every file that is reached, all of them in order and none of them on a cycle. What such a
load returns, and that it must succeed where all is in order, is not said here.
-/

namespace FlowLint.RulesFile

variable {s : Source} {g : Registry} {ancestors visited : List Path} {p q : Path}

/-! ## The calls -/

theorem loadFile_ancestor {hp : p ∈ s.paths} (ha : p ∈ ancestors) :
    loadFile s g ancestors visited p hp = .error (.circularImport p) := by
  rw [loadFile, dif_pos ha]

theorem loadFile_visited {hp : p ∈ s.paths} (ha : p ∉ ancestors) (hv : p ∈ visited) :
    loadFile s g ancestors visited p hp = .ok { visited } := by
  rw [loadFile, dif_neg ha, if_pos hv]

theorem loadFile_fresh {hp : p ∈ s.paths} (ha : p ∉ ancestors) (hv : p ∉ visited) :
    loadFile s g ancestors visited p hp = (do
      let root ← document s p
      let imported ← loadImports s g (p :: ancestors) (p :: visited) (imports p root)
      let file ← own g root
      return { imported with file := imported.file.merge file }) := by
  rw [loadFile, dif_neg ha, if_neg hv]
  cases document s p with
  | error e => rfl
  | ok root =>
    simp only [bind, Except.bind]
    cases loadImports s g (p :: ancestors) (p :: visited) (imports p root) with
    | error e => rfl
    | ok imported => cases own g root <;> rfl

@[simp] theorem loadImports_nil : loadImports s g ancestors visited [] = .ok { visited } := by
  rw [loadImports]

theorem loadImports_unlocated {reference : Path} {rest : List Path} {e : ConfigurationError}
    (hl : s.locate reference = .error e) :
    loadImports s g ancestors visited (reference :: rest) = .error e := by
  rw [loadImports]
  split
  · next h => rw [Except.error.inj (h.symm.trans hl)]
  · next h => simp [hl] at h

theorem loadImports_located {reference : Path} {rest : List Path}
    (hl : s.locate reference = .ok q) :
    loadImports s g ancestors visited (reference :: rest) = (do
      let first ← loadFile s g ancestors visited q (s.mem_paths_of_locate hl)
      let others ← loadImports s g ancestors first.visited rest
      return { others with file := first.file.merge others.file }) := by
  rw [loadImports]
  split
  · next h => simp [hl] at h
  · next found h =>
    obtain rfl : found = q := Except.ok.inj (h.symm.trans hl)
    cases loadFile s g ancestors visited found (s.mem_paths_of_locate hl) with
    | error e => rfl
    | ok first =>
      simp only [bind, Except.bind]
      cases loadImports s g ancestors first.visited rest <;> rfl

theorem load_unlocated {entry : Path} {e : ConfigurationError} (hl : s.locate entry = .error e) :
    load s g entry = .error e := by
  rw [load]
  split
  · next h => rw [Except.error.inj (h.symm.trans hl)]
  · next h => simp [hl] at h

theorem load_located {entry : Path} (hl : s.locate entry = .ok p) :
    load s g entry = (do
      let loaded ← loadFile s g [] [] p (s.mem_paths_of_locate hl)
      checkLoaded loaded.file) := by
  rw [load]
  split
  · next h => simp [hl] at h
  · next found h =>
    obtain rfl : found = p := Except.ok.inj (h.symm.trans hl)
    cases loadFile s g [] [] found (s.mem_paths_of_locate hl) <;> rfl

/-- A load that succeeds has located its entry, loaded it and passed the final check. -/
theorem load_eq_ok {entry : Path} {result : RulesFile} (h : load s g entry = .ok result) :
    ∃ start hstart loaded, s.locate entry = .ok start ∧
      loadFile s g [] [] start hstart = .ok loaded ∧ checkLoaded loaded.file = .ok result := by
  cases hl : s.locate entry with
  | error e =>
    rw [load_unlocated hl] at h
    cases h
  | ok start =>
    rw [load_located hl] at h
    obtain ⟨loaded, hloaded, h⟩ := bind_eq_ok.mp h
    exact ⟨start, _, loaded, rfl, hloaded, h⟩

/-- All that a successful load of a file can be. -/
theorem loadFile_eq_ok {hp : p ∈ s.paths} {r : Progress}
    (h : loadFile s g ancestors visited p hp = .ok r) :
    p ∉ ancestors ∧ (p ∈ visited ∧ r = { visited } ∨
      p ∉ visited ∧ ∃ root imported file, document s p = .ok root ∧
        loadImports s g (p :: ancestors) (p :: visited) (imports p root) = .ok imported ∧
        own g root = .ok file ∧ r = { imported with file := imported.file.merge file }) := by
  by_cases ha : p ∈ ancestors
  · rw [loadFile_ancestor ha] at h
    cases h
  refine ⟨ha, ?_⟩
  by_cases hv : p ∈ visited
  · rw [loadFile_visited ha hv] at h
    exact .inl ⟨hv, (Except.ok.inj h).symm⟩
  · rw [loadFile_fresh ha hv] at h
    obtain ⟨root, hroot, h⟩ := bind_eq_ok.mp h
    obtain ⟨imported, himported, h⟩ := bind_eq_ok.mp h
    obtain ⟨file, hfile, h⟩ := bind_eq_ok.mp h
    exact .inr ⟨hv, root, imported, file, hroot, himported, hfile, (Except.ok.inj h).symm⟩

theorem loadImports_cons_eq_ok {reference : Path} {rest : List Path} {r : Progress}
    (h : loadImports s g ancestors visited (reference :: rest) = .ok r) :
    ∃ q hq first others, s.locate reference = .ok q ∧
      loadFile s g ancestors visited q hq = .ok first ∧
      loadImports s g ancestors first.visited rest = .ok others ∧
      r = { others with file := first.file.merge others.file } := by
  cases hl : s.locate reference with
  | error e =>
    rw [loadImports_unlocated hl] at h
    cases h
  | ok q =>
    rw [loadImports_located hl] at h
    obtain ⟨first, hfirst, h⟩ := bind_eq_ok.mp h
    obtain ⟨others, hothers, h⟩ := bind_eq_ok.mp h
    exact ⟨q, _, first, others, rfl, hfirst, hothers, (Except.ok.inj h).symm⟩

/-- What holds of a list of files being loaded if it holds of every longer one holds of
all: there are finitely many files to add. -/
theorem ancestors_induction (s : Source) {motive : List Path → Prop}
    (step : ∀ ancestors, (∀ p ∈ s.paths, p ∉ ancestors → motive (p :: ancestors)) →
      motive ancestors) (ancestors : List Path) : motive ancestors := by
  induction h : (idle s ancestors).length using Nat.strongRecOn generalizing ancestors with
  | _ n ih =>
    subst h
    exact step ancestors fun p hp ha => ih _ (length_idle_lt s ancestors p hp ha) _ rfl

theorem document_eq_ok {root : Markup.Element} : document s p = .ok root ↔
    ∃ text, s.text p = .ok text ∧ Markup.parse text = .ok root ∧ check root = .ok () := by
  rw [document, bind_eq_ok]
  refine exists_congr fun text => and_congr_right fun _ => ?_
  rw [bind_eq_ok]
  constructor
  · rintro ⟨found, hfound, h⟩
    obtain ⟨hcheck, h⟩ := check_bind_eq_ok.mp h
    obtain rfl := Except.ok.inj h
    exact ⟨mapError_eq_ok.mp hfound, mapError_eq_ok.mp hcheck⟩
  · rintro ⟨hparse, hcheck⟩
    refine ⟨root, mapError_eq_ok.mpr hparse, ?_⟩
    exact check_bind_eq_ok.mpr ⟨mapError_eq_ok.mpr hcheck, rfl⟩

theorem check_of_document {root : Markup.Element} (h : document s p = .ok root) :
    check root = .ok () := by
  obtain ⟨text, -, -, hcheck⟩ := document_eq_ok.mp h
  exact hcheck

theorem targets_eq {root : Markup.Element} (h : document s p = .ok root) :
    targets s p = (imports p root).filterMap fun r => (s.locate r).toOption := by
  rw [targets, h, imports_eq (check_of_document h), List.filterMap_map]
  rfl

/-- A file imports what the references that loading follows lead to. -/
theorem imports_iff {root : Markup.Element} (h : document s p = .ok root) :
    Imports s p q ↔ ∃ r ∈ imports p root, s.locate r = .ok q := by
  rw [Imports, targets_eq h, List.mem_filterMap]
  refine exists_congr fun r => and_congr_right fun _ => ?_
  cases s.locate r <;> simp [Except.toOption]

/-! ## Files in memory -/

theorem locate_ofFiles {files : List (Path × String)} :
    (Source.ofFiles files).locate p = .ok q ↔
      q = p.normalize ∧ q ∈ files.map (·.1.normalize) := by
  rw [Source.locate, mapError_eq_ok]
  dsimp only [Source.ofFiles]
  split
  · next h =>
    rw [Except.ok.injEq]
    constructor
    · rintro rfl
      exact ⟨rfl, h⟩
    · rintro ⟨rfl, -⟩
      rfl
  · next h =>
    constructor
    · intro h
      cases h
    · rintro ⟨rfl, hq⟩
      exact absurd hq h

theorem text_ofFiles {files : List (Path × String)} {text : String} :
    (Source.ofFiles files).text p = .ok text ↔ stored? files p = some text := by
  rw [Source.text, mapError_eq_ok]
  dsimp only [Source.ofFiles]
  cases stored? files p <;> simp

/-! ## A load that succeeds -/

/-- A file is in order by itself: its document can be read and has the right shape, its
references lead somewhere, and its own rules can be built. -/
def Loadable (s : Source) (g : Registry) (p : Path) : Prop :=
  ∃ root file, document s p = .ok root ∧ (∀ r ∈ imports p root, ∃ q, s.locate r = .ok q) ∧
    own g root = .ok file

/-- Whether a file is in order by itself. -/
def isLoadable (s : Source) (g : Registry) (p : Path) : Bool :=
  match document s p with
  | .error _ => false
  | .ok root => (imports p root).all (fun r => (s.locate r).toBool) && (own g root).toBool

theorem isLoadable_iff : isLoadable s g p = true ↔ Loadable s g p := by
  have htoBool : ∀ {ε α : Type} {x : Except ε α}, x.toBool = true ↔ ∃ a, x = .ok a := by
    intro ε α x
    cases x <;> simp [Except.toBool]
  unfold isLoadable Loadable
  cases document s p with
  | error e => simp
  | ok root => simp [htoBool]

instance : Decidable (Loadable s g p) :=
  decidable_of_iff _ isLoadable_iff

theorem of_mem_cons_of_not_mem_cons (hq : q ∈ p :: visited) (ha : q ∉ p :: ancestors) :
    q ∈ visited ∧ q ∉ ancestors := by
  obtain ⟨hne, ha⟩ := not_or.mp (List.mem_cons.not.mp ha)
  have hmem : q ∈ visited := (List.mem_cons.mp hq).resolve_left hne
  exact ⟨hmem, ha⟩

/-- All that a file imports has been seen with it, unless it is still being loaded. -/
def Closed (s : Source) (ancestors visited : List Path) : Prop :=
  ∀ q ∈ visited, q ∉ ancestors → ∀ c, Imports s q c → c ∈ visited

theorem Closed.enter (h : Closed s ancestors visited) :
    Closed s (p :: ancestors) (p :: visited) := by
  intro q hq ha c hc
  obtain ⟨hq, ha⟩ := of_mem_cons_of_not_mem_cons hq ha
  exact List.mem_cons_of_mem _ (h q hq ha c hc)

theorem Closed.mem_of_reaches (h : Closed s ancestors visited) {c : Path}
    (hidle : ∀ c, Reaches s p c → c ∉ ancestors) (hp : p ∈ visited) (hr : Reaches s p c) :
    c ∈ visited := by
  induction hr with
  | refl => exact hp
  | tail hab hbc ih => exact h _ ih (hidle _ hab) _ hbc

/-- Of the files that have been seen, those that are no longer being loaded are done with:
they are in order, no cycle lies below them, and all they import has been seen as well. -/
structure Settled (s : Source) (g : Registry) (ancestors visited : List Path) : Prop where
  loadable : ∀ q ∈ visited, q ∉ ancestors → Loadable s g q
  grounded : ∀ q ∈ visited, q ∉ ancestors → Grounded s q
  closed : Closed s ancestors visited

theorem Settled.enter (h : Settled s g ancestors visited) :
    Settled s g (p :: ancestors) (p :: visited) := by
  refine ⟨fun q hq ha => ?_, fun q hq ha => ?_, h.closed.enter⟩
  · obtain ⟨hq, ha⟩ := of_mem_cons_of_not_mem_cons hq ha
    exact h.loadable q hq ha
  · obtain ⟨hq, ha⟩ := of_mem_cons_of_not_mem_cons hq ha
    exact h.grounded q hq ha

/-- The files seen are settled once more when the file that was entered last is done with. -/
theorem Settled.leave (h : Settled s g (p :: ancestors) visited) (hload : Loadable s g p)
    (himports : ∀ c, Imports s p c → c ∈ visited ∧ c ∉ p :: ancestors) :
    Settled s g ancestors visited := by
  have hdone : ∀ q, q ∉ ancestors → q = p ∨ q ∉ p :: ancestors := by
    intro q ha
    by_cases hq : q = p
    · exact .inl hq
    · exact .inr fun hmem => (List.mem_cons.mp hmem).elim hq ha
  have hground : Grounded s p :=
    .intro p fun c hc => h.grounded c (himports c hc).1 (himports c hc).2
  constructor
  · intro q hq ha
    rcases hdone q ha with rfl | ha
    · exact hload
    · exact h.loadable q hq ha
  · intro q hq ha
    rcases hdone q ha with rfl | ha
    · exact hground
    · exact h.grounded q hq ha
  · intro q hq ha c hc
    rcases hdone q ha with rfl | ha
    · exact (himports c hc).1
    · exact h.closed q hq ha c hc

/-- What a successful load of a file leaves behind. -/
structure Seen (s : Source) (g : Registry) (ancestors visited : List Path) (p : Path)
    (r : Progress) : Prop where
  idle : p ∉ ancestors
  mem : p ∈ r.visited
  subset : visited ⊆ r.visited
  settled : Settled s g ancestors r.visited

theorem seen_of_loadImports
    (hfile : ∀ visited p hp r, Settled s g ancestors visited →
      loadFile s g ancestors visited p hp = .ok r → Seen s g ancestors visited p r)
    {references : List Path} {r : Progress} (hset : Settled s g ancestors visited)
    (h : loadImports s g ancestors visited references = .ok r) :
    (∀ reference ∈ references, ∃ q, s.locate reference = .ok q ∧ q ∉ ancestors ∧ q ∈ r.visited) ∧
      visited ⊆ r.visited ∧ Settled s g ancestors r.visited := by
  induction references generalizing visited r with
  | nil =>
    rw [loadImports_nil] at h
    cases h
    exact ⟨fun _ hr => absurd hr List.not_mem_nil, List.Subset.refl _, hset⟩
  | cons reference rest ih =>
    obtain ⟨q, hq, first, others, hl, hfirst, hothers, rfl⟩ := loadImports_cons_eq_ok h
    have hseen := hfile visited q hq first hset hfirst
    obtain ⟨hrest, hsub, hset'⟩ := ih hseen.settled hothers
    have hsubset : visited ⊆ others.visited := List.Subset.trans hseen.subset hsub
    refine ⟨fun r hr => ?_, hsubset, hset'⟩
    rcases List.mem_cons.mp hr with rfl | hr
    · exact ⟨q, hl, hseen.idle, hsub hseen.mem⟩
    · exact hrest r hr

/-- A successful load has visited its file besides what was visited before, and all of it is
settled. -/
theorem seen_of_loadFile (ancestors : List Path) :
    ∀ visited p hp r, Settled s g ancestors visited →
      loadFile s g ancestors visited p hp = .ok r → Seen s g ancestors visited p r := by
  induction ancestors using ancestors_induction s with
  | step ancestors ih =>
    intro visited p hp r hset h
    obtain ⟨ha, ⟨hv, rfl⟩ | ⟨-, root, imported, file, hroot, himported, hown, rfl⟩⟩ :=
      loadFile_eq_ok h
    · exact ⟨ha, hv, List.Subset.refl _, hset⟩
    · obtain ⟨hrefs, hsub, hset'⟩ := seen_of_loadImports (ih p hp ha) hset.enter himported
      have hload : Loadable s g p := by
        refine ⟨root, file, hroot, fun r hr => ?_, hown⟩
        obtain ⟨q, hq, -⟩ := hrefs r hr
        exact ⟨q, hq⟩
      have hsubset : visited ⊆ imported.visited :=
        List.Subset.trans (List.subset_cons_self _ _) hsub
      refine ⟨ha, hsub List.mem_cons_self, hsubset, hset'.leave hload fun c hc => ?_⟩
      obtain ⟨r, hr, hl⟩ := (imports_iff hroot).mp hc
      obtain ⟨q, hq, hidle, hmem⟩ := hrefs r hr
      obtain rfl := Except.ok.inj (hl.symm.trans hq)
      exact ⟨hmem, hidle⟩

theorem settled_nil : Settled s g ancestors [] := by
  constructor <;> intro q hq <;> exact absurd hq List.not_mem_nil

/-- Only a file below which all is in order is loaded. -/
theorem loadable_of_loadFile {hp : p ∈ s.paths} {r : Progress}
    (h : loadFile s g [] [] p hp = .ok r) :
    Grounded s p ∧ ∀ q, Reaches s p q → Loadable s g q := by
  have hseen := seen_of_loadFile [] [] p hp r settled_nil h
  have hreach : ∀ q, Reaches s p q → q ∈ r.visited := fun q hq =>
    hseen.settled.closed.mem_of_reaches (fun _ _ => List.not_mem_nil) hseen.mem hq
  have hgrounded : Grounded s p := hseen.settled.grounded p hseen.mem List.not_mem_nil
  have hloadable : ∀ q, Reaches s p q → Loadable s g q :=
    fun q hq => hseen.settled.loadable q (hreach q hq) List.not_mem_nil
  exact ⟨hgrounded, hloadable⟩

end FlowLint.RulesFile

import FlowLint.Proofs.RulesFile.Loading

/-!
# The calls of the loader

Loading a file calls for loading others, and these calls nest. One step of loading is said here with
the calls it makes left open. What it comes to depends on nothing but the calls for the files that the
file imports, made while it is itself being loaded; so that these are the calls that nest, and since
there are finitely many files, they do not nest for ever. Loading is what the step leaves no choice
about: whatever obeys it loads as the loader does.
-/

namespace FlowLint.RulesFile

variable {s : Source} {g : Registry} {ancestors visited : List Path} {p q : Path}

/-! ## Nested calls -/

/-- A call for a file, while some files are being loaded, calls for each file it imports;
the file itself is then being loaded as well. -/
inductive Nested (s : Source) : List Path × Path → List Path × Path → Prop
  | intro {ancestors : List Path} {p q : Path} (hp : p ∈ s.paths) (ha : p ∉ ancestors)
      (hi : Imports s p q) : Nested s (p :: ancestors, q) (ancestors, p)

theorem wellFounded_nested (s : Source) : WellFounded (Nested s) := by
  have hlt : ∀ a b, Nested s a b → (idle s a.1).length < (idle s b.1).length := by
    intro a b h
    cases h with
    | intro hp ha _ => exact length_idle_lt s _ _ hp ha
  exact Subrelation.wf (fun {a b} h => hlt a b h)
    (InvImage.wf (fun f : List Path × Path => (idle s f.1).length) Nat.lt_wfRel.wf)

/-! ## One step -/

/-- A way to load a file, given the files that are being loaded and those that have been. -/
abbrev Loads (s : Source) : Type :=
  List Path → List Path → (p : Path) → p ∈ s.paths → Except ConfigurationError Progress

/-- Loads the files that are referred to in order, each by a call. -/
def importsBy (s : Source) (call : Loads s) (ancestors visited : List Path) :
    List Path → Except ConfigurationError Progress
  | [] => .ok { visited }
  | reference :: rest =>
    match hl : s.locate reference with
    | .error e => .error e
    | .ok p => do
      let first ← call ancestors visited p (s.mem_paths_of_locate hl)
      let others ← importsBy s call ancestors first.visited rest
      return { others with file := first.file.merge others.file }

/-- Loads a file, and all it imports by calls. -/
def loadStep (s : Source) (g : Registry) (call : Loads s) : Loads s :=
  fun ancestors visited p _ =>
    if p ∈ ancestors then .error (.circularImport p)
    else if p ∈ visited then .ok { visited }
    else do
      let root ← document s p
      let imported ← importsBy s call (p :: ancestors) (p :: visited) (imports p root)
      let file ← own g root
      return { imported with file := imported.file.merge file }

theorem importsBy_unlocated {call : Loads s} {reference : Path} {rest : List Path}
    {e : ConfigurationError} (hl : s.locate reference = .error e) :
    importsBy s call ancestors visited (reference :: rest) = .error e := by
  rw [importsBy]
  split
  · next h => rw [Except.error.inj (h.symm.trans hl)]
  · next h => simp [hl] at h

theorem importsBy_located {call : Loads s} {reference : Path} {rest : List Path}
    (hl : s.locate reference = .ok q) :
    importsBy s call ancestors visited (reference :: rest) = (do
      let first ← call ancestors visited q (s.mem_paths_of_locate hl)
      let others ← importsBy s call ancestors first.visited rest
      return { others with file := first.file.merge others.file }) := by
  rw [importsBy]
  split
  · next h => simp [hl] at h
  · next found h =>
    obtain rfl : found = q := Except.ok.inj (h.symm.trans hl)
    rfl

/-- The loader goes through references as the open step does, calling itself. -/
theorem loadImports_eq_importsBy (references : List Path) :
    loadImports s g ancestors visited references =
      importsBy s (loadFile s g) ancestors visited references := by
  induction references generalizing visited with
  | nil => rw [loadImports_nil, importsBy]
  | cons reference rest ih =>
    cases hl : s.locate reference with
    | error e => rw [loadImports_unlocated hl, importsBy_unlocated hl]
    | ok q =>
      rw [loadImports_located hl, importsBy_located hl]
      simp only [ih]

/-- Loading a file is one step in which the calls are for loading files. -/
theorem loadFile_eq_loadStep (hp : p ∈ s.paths) :
    loadFile s g ancestors visited p hp = loadStep s g (loadFile s g) ancestors visited p hp := by
  by_cases ha : p ∈ ancestors
  · rw [loadFile_ancestor ha, loadStep, if_pos ha]
  by_cases hv : p ∈ visited
  · rw [loadFile_visited ha hv, loadStep, if_neg ha, if_pos hv]
  rw [loadFile_fresh ha hv, loadStep, if_neg ha, if_neg hv]
  simp only [loadImports_eq_importsBy]

/-! ## What a step depends on -/

/-- Two ways to load agree on the calls for a file while some files are being loaded. -/
def AgreeOn (call other : Loads s) (nested : List Path × Path) : Prop :=
  ∀ visited hq, call nested.1 visited nested.2 hq = other nested.1 visited nested.2 hq

variable {call other : Loads s}

/-- Loaders that agree on the files referred to import the same. -/
theorem importsBy_congr {references : List Path}
    (h : ∀ reference ∈ references, ∀ q, s.locate reference = .ok q →
      AgreeOn call other (ancestors, q)) :
    importsBy s call ancestors visited references =
      importsBy s other ancestors visited references := by
  induction references generalizing visited with
  | nil => rw [importsBy, importsBy]
  | cons reference rest ih =>
    obtain ⟨hfirst, hrest⟩ := List.forall_mem_cons.mp h
    cases hl : s.locate reference with
    | error e => rw [importsBy_unlocated hl, importsBy_unlocated hl]
    | ok q =>
      have hcall := hfirst q hl visited (s.mem_paths_of_locate hl)
      rw [importsBy_located hl, importsBy_located hl, hcall]
      simp only [ih hrest]

/-- A step makes no calls but those that nest in its own. -/
theorem loadStep_congr (hp : p ∈ s.paths)
    (h : ∀ nested, Nested s nested (ancestors, p) → AgreeOn call other nested) :
    loadStep s g call ancestors visited p hp = loadStep s g other ancestors visited p hp := by
  by_cases ha : p ∈ ancestors
  · rw [loadStep, loadStep, if_pos ha, if_pos ha]
  rw [loadStep, loadStep, if_neg ha, if_neg ha]
  cases hroot : document s p with
  | error e => rfl
  | ok root =>
    have hcalls : ∀ reference ∈ imports p root, ∀ q, s.locate reference = .ok q →
        AgreeOn call other (p :: ancestors, q) := by
      intro reference hreference q hl
      have hi : Imports s p q := (imports_iff hroot).mpr ⟨reference, hreference, hl⟩
      exact h _ (.intro hp ha hi)
    simp only [bind, Except.bind, importsBy_congr hcalls]

/-- Whatever obeys the step loads as the loader does: the calls that nest end, and each is settled by
those below it. -/
theorem eq_loadFile_of_step
    (hstep : ∀ ancestors visited p hp,
      call ancestors visited p hp = loadStep s g call ancestors visited p hp) :
    call = loadFile s g := by
  have hagree : ∀ nested : List Path × Path, AgreeOn call (loadFile s g) nested := by
    intro nested
    induction nested using (wellFounded_nested s).induction with
    | _ nested ih =>
      intro visited hq
      rw [hstep, loadFile_eq_loadStep]
      exact loadStep_congr hq ih
  funext ancestors visited p hp
  exact hagree (ancestors, p) visited hp

end FlowLint.RulesFile

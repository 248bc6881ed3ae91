import FlowLint.Proofs.RulesFile.Calls
import FlowLint.Proofs.RulesFile.Failures
import FlowLint.Proofs.RulesFile.MergeOrder

/-!
# Circular imports

A cycle below the entry keeps a load from succeeding, and a circular import is reported only
for a file of such a cycle. The error can come from one place, the check for files that are
being loaded: reading, checking and building a file fail in other ways. This needs that no
factory answers with the error, which the built-in ones and extensions never do. That a cycle is
what is reported needs files that are otherwise in order, since another of them may fail first.
-/

namespace FlowLint.RulesFile

open Relation (ReflTransGen TransGen)

variable {s : Source} {g : Registry} {ancestors visited : List Path} {p c : Path}

/-! ## Errors of other kinds -/

/-- A step that may fail, but not because of a circular import. -/
def Straight {α : Type} (x : Except ConfigurationError α) : Prop :=
  ∀ c, x ≠ .error (.circularImport c)

theorem straight_of_failsLocally {α : Type} {x : Except ConfigurationError α}
    (h : FailsWith IsLocal x) : Straight x :=
  fun c hc => h (.circularImport c) hc

theorem straight_iff {α : Type} {x : Except ConfigurationError α} :
    Straight x ↔ FailsWith (fun e => ∀ c, e ≠ .circularImport c) x :=
  ⟨fun h _ he c hc => h c (hc ▸ he), fun h c hc => h _ hc c rfl⟩

/-- After a step that does not fail so, the fault lies with what follows. -/
theorem Straight.exists_of_bind {α β : Type} {x : Except ConfigurationError α}
    {f : α → Except ConfigurationError β} (hx : Straight x)
    (h : (x >>= f) = .error (.circularImport c)) :
    ∃ a, x = .ok a ∧ f a = .error (.circularImport c) :=
  (bind_eq_error h).resolve_left (hx c)

theorem straight_locate (reference : Path) : Straight (s.locate reference) :=
  straight_of_failsLocally (failsLocally_locate reference)

theorem straight_document (p : Path) : Straight (document s p) :=
  straight_of_failsLocally (failsLocally_document p)

theorem straight_own (hg : ∀ e, Straight (g.create e)) (root : Markup.Element) :
    Straight (own g root) := by
  have hfailsWith : FailsWith (fun e => ∀ c, e ≠ ConfigurationError.circularImport c)
      (own g root) :=
    failsWith_own (fun _ _ _ h => by cases h) (fun e => straight_iff.mp (hg e)) root
  exact straight_iff.mpr hfailsWith

theorem straight_offered (builtIns : Bool) (extensions : List ExtensionFactory)
    (e : Markup.Element) : Straight ((Registry.offered builtIns extensions).create e) :=
  straight_of_failsLocally (failsLocally_offered builtIns extensions e)

theorem straight_checkLoaded (file : RulesFile) : Straight (checkLoaded file) := by
  intro c h
  unfold checkLoaded at h
  split at h
  · cases h
  · split at h <;> cases h

/-! ## Where the error comes from -/

theorem circular_of_loadImports {references : List Path}
    (h : loadImports s g ancestors visited references = .error (.circularImport c)) :
    ∃ r ∈ references, ∃ q hq visited, s.locate r = .ok q ∧
      loadFile s g ancestors visited q hq = .error (.circularImport c) := by
  induction references generalizing visited with
  | nil =>
    rw [loadImports_nil] at h
    cases h
  | cons r rest ih =>
    cases hl : s.locate r with
    | error e =>
      rw [loadImports_unlocated hl] at h
      rw [Except.error.inj h] at hl
      have hne : s.locate r ≠ .error (.circularImport c) := straight_locate r c
      exact absurd hl hne
    | ok q =>
      rw [loadImports_located hl] at h
      rcases bind_eq_error h with hfile | ⟨first, -, h⟩
      · exact ⟨r, List.mem_cons_self, q, _, visited, hl, hfile⟩
      · rcases bind_eq_error h with hrest | ⟨others, -, h⟩
        · obtain ⟨r', hr', hfound⟩ := ih hrest
          exact ⟨r', List.mem_cons_of_mem _ hr', hfound⟩
        · cases h

/-- While every file that is being loaded leads to the one that is entered, a circular import
is reported only for a file that leads back to itself. -/
theorem circular_of_loadFile (hg : ∀ e, Straight (g.create e)) (ancestors : List Path) :
    ∀ visited p hp, (∀ a ∈ ancestors, TransGen (Imports s) a p) →
      loadFile s g ancestors visited p hp = .error (.circularImport c) →
      Reaches s p c ∧ OnCycle s c := by
  induction ancestors using ancestors_induction s with
  | step ancestors ih =>
    intro visited p hp hleads h
    by_cases ha : p ∈ ancestors
    · rw [loadFile_ancestor ha] at h
      cases h
      exact ⟨.refl, hleads _ ha⟩
    by_cases hv : p ∈ visited
    · rw [loadFile_visited ha hv] at h
      cases h
    rw [loadFile_fresh ha hv] at h
    obtain ⟨root, hroot, h⟩ := (straight_document p).exists_of_bind h
    rcases bind_eq_error h with himports | ⟨imported, -, h⟩
    · obtain ⟨r, hr, q, hq, seen, hl, hfile⟩ := circular_of_loadImports himports
      have hi : Imports s p q := (imports_iff hroot).mpr ⟨r, hr, hl⟩
      have hleads' : ∀ a ∈ p :: ancestors, TransGen (Imports s) a q := by
        intro a ha'
        rcases List.mem_cons.mp ha' with rfl | ha'
        · exact .single hi
        · exact (hleads a ha').tail hi
      obtain ⟨hreach, hcycle⟩ := ih p hp ha seen q hq hleads' hfile
      exact ⟨hreach.head hi, hcycle⟩
    · obtain ⟨file, -, h⟩ := (straight_own hg root).exists_of_bind h
      cases h

/-- A cycle that is reported is reachable and is one. -/
theorem circular_of_load (hg : ∀ e, Straight (g.create e)) {entry : Path}
    (h : load s g entry = .error (.circularImport c)) :
    ∃ start, s.locate entry = .ok start ∧ Reaches s start c ∧ OnCycle s c := by
  cases hl : s.locate entry with
  | error e =>
    rw [load_unlocated hl] at h
    rw [Except.error.inj h] at hl
    have hne : s.locate entry ≠ .error (.circularImport c) := straight_locate entry c
    exact absurd hl hne
  | ok start =>
    rw [load_located hl] at h
    rcases bind_eq_error h with hfile | ⟨loaded, -, h⟩
    · have hcircular : Reaches s start c ∧ OnCycle s c :=
        circular_of_loadFile hg [] [] start _ (fun a ha => absurd ha List.not_mem_nil) hfile
      exact ⟨start, rfl, hcircular⟩
    · have hne : loaded.file.checkLoaded ≠ .error (.circularImport c) :=
        straight_checkLoaded loaded.file c
      exact absurd h hne

/-! ## Where nothing else fails -/

/-- An error about an import that leads back. -/
def IsCircular : ConfigurationError → Prop
  | .circularImport _ => True
  | _ => False

theorem circularImport_of_isCircular {e : ConfigurationError} (h : IsCircular e) :
    ∃ d, e = .circularImport d := by
  cases e with
  | circularImport d => exact ⟨d, rfl⟩
  | _ => cases h

theorem failsWith_loadImports {kind : ConfigurationError → Prop} {references : List Path}
    (hlocated : ∀ r ∈ references, ∃ q, s.locate r = .ok q)
    (hfile : ∀ r ∈ references, ∀ q, s.locate r = .ok q → ∀ visited hq,
      FailsWith kind (loadFile s g ancestors visited q hq)) :
    FailsWith kind (loadImports s g ancestors visited references) := by
  induction references generalizing visited with
  | nil =>
    rw [loadImports_nil]
    exact failsWith_ok _
  | cons r rest ih =>
    obtain ⟨⟨q, hq⟩, hlocated⟩ := List.forall_mem_cons.mp hlocated
    obtain ⟨hfirst, hrest⟩ := List.forall_mem_cons.mp hfile
    rw [loadImports_located hq]
    refine (hfirst q hq visited _).bind fun first => ?_
    have hfailsWith : FailsWith kind (loadImports s g ancestors first.visited rest) :=
      ih hlocated hrest
    exact hfailsWith.bind fun others => failsWith_ok _

/-- Where every file is in order by itself, a file is loaded or an import leads back. -/
theorem failsWith_loadFile (ancestors : List Path) :
    ∀ visited p hp, (∀ q, Reaches s p q → Loadable s g q) →
      FailsWith IsCircular (loadFile s g ancestors visited p hp) := by
  induction ancestors using ancestors_induction s with
  | step ancestors ih =>
    intro visited p hp hload
    by_cases ha : p ∈ ancestors
    · rw [loadFile_ancestor ha]
      exact failsWith_error trivial
    by_cases hv : p ∈ visited
    · rw [loadFile_visited ha hv]
      exact failsWith_ok _
    obtain ⟨root, file, hroot, hlocated, hown⟩ := hload p .refl
    have himports : FailsWith IsCircular
        (loadImports s g (p :: ancestors) (p :: visited) (imports p root)) := by
      refine failsWith_loadImports hlocated fun r hr q hl visited hq => ?_
      have hi : Imports s p q := (imports_iff hroot).mpr ⟨r, hr, hl⟩
      exact ih p hp ha visited q hq fun q' hq' => hload q' (hq'.head hi)
    rw [loadFile_fresh ha hv, hroot]
    refine himports.bind fun imported => ?_
    rw [hown]
    exact failsWith_ok _

/-- If all files below the entry are in order and one of them leads back to itself, this is what is
reported. -/
theorem circular_of_onCycle {start entry : Path} (hl : s.locate entry = .ok start)
    (hload : ∀ q, Reaches s start q → Loadable s g q) (hr : Reaches s start c)
    (hc : OnCycle s c) : ∃ d, load s g entry = .error (.circularImport d) := by
  rw [load_located hl]
  cases hfile : loadFile s g [] [] start (s.mem_paths_of_locate hl) with
  | error e =>
    have hcircular : IsCircular e := failsWith_loadFile [] _ _ _ hload e hfile
    obtain ⟨d, rfl⟩ := circularImport_of_isCircular hcircular
    exact ⟨d, rfl⟩
  | ok loaded =>
    obtain ⟨hground, -⟩ := loadable_of_loadFile hfile
    have hnotCycle : ¬OnCycle s c := not_onCycle_of_reaches hground hr
    exact absurd hc hnotCycle

/-! ## Exactness -/

/-- No load succeeds over a reachable cycle. -/
theorem load_ne_ok {start entry : Path} {result : RulesFile} (hl : s.locate entry = .ok start)
    (hr : Reaches s start c) (hc : OnCycle s c) : load s g entry ≠ .ok result := by
  intro h
  obtain ⟨start', l, hl', hu, -⟩ := load_eq_ok_iff.mp h
  obtain rfl := Except.ok.inj (hl.symm.trans hl')
  exact not_onCycle_of_reaches hu.grounded hr hc

/-- Circular imports are detected exactly: no load succeeds over a cycle, a circular import is
reported for a file on a cycle below the entry, never where there is no cycle, and always where there
is one and all files are otherwise in order; and calls, of which `loadFile_eq_loadStep` and
`loadStep_congr` say that they nest like this, do not nest for ever. -/
theorem load_circular_exact (s : Source) (builtIns : Bool) (extensions : List ExtensionFactory)
    (entry : Path) :
    (∀ start c result, s.locate entry = .ok start → Reaches s start c → OnCycle s c →
      load s (Registry.offered builtIns extensions) entry ≠ .ok result) ∧
    (∀ c, load s (Registry.offered builtIns extensions) entry = .error (.circularImport c) →
      ∃ start, s.locate entry = .ok start ∧ Reaches s start c ∧ OnCycle s c) ∧
    (∀ start, s.locate entry = .ok start → (∀ c, Reaches s start c → ¬ OnCycle s c) →
      ∀ c, load s (Registry.offered builtIns extensions) entry ≠ .error (.circularImport c)) ∧
    (∀ start c, s.locate entry = .ok start →
      (∀ q, Reaches s start q → Loadable s (Registry.offered builtIns extensions) q) →
      Reaches s start c → OnCycle s c →
      ∃ d, load s (Registry.offered builtIns extensions) entry = .error (.circularImport d) ∧
        Reaches s start d ∧ OnCycle s d) ∧
    WellFounded (Nested s) := by
  have hsound : ∀ c, load s (Registry.offered builtIns extensions) entry =
      .error (.circularImport c) →
      ∃ start, s.locate entry = .ok start ∧ Reaches s start c ∧ OnCycle s c :=
    fun c h => circular_of_load (straight_offered builtIns extensions) h
  refine ⟨fun start c result hl hr hc => load_ne_ok hl hr hc, hsound, ?_, ?_, wellFounded_nested s⟩
  · intro start hl hacyclic c h
    obtain ⟨start', hl', hr, hc⟩ := hsound c h
    obtain rfl := Except.ok.inj (hl.symm.trans hl')
    exact hacyclic c hr hc
  · intro start c hl hload hr hc
    obtain ⟨d, hd⟩ := circular_of_onCycle hl hload hr hc
    obtain ⟨start', hl', hr', hc'⟩ := hsound d hd
    obtain rfl := Except.ok.inj (hl.symm.trans hl')
    exact ⟨d, hd, hr', hc'⟩

/-- Two files that import each other, below an entry that does not lie on the cycle. -/
def ring : List (Path × String) :=
  [(⟨"top"⟩, "<cpilint><imports><import>d/left</import></imports></cpilint>"),
    (⟨"d/left"⟩, "<cpilint><imports><import>right</import></imports></cpilint>"),
    (⟨"d/right"⟩, "<cpilint><imports><import>../d/left</import></imports></cpilint>")]

theorem reaches_ring {q : Path} (h : Reaches (.ofFiles ring) ⟨"top"⟩ q) :
    q ∈ ring.map (·.1) := by
  have htargets : ∀ p ∈ ring.map (·.1), ∀ q ∈ targets (.ofFiles ring) p, q ∈ ring.map (·.1) := by
    decide +kernel
  induction h with
  | refl => decide
  | tail _ hi ih => exact htargets _ ih _ hi

theorem load_ring : OnCycle (.ofFiles ring) ⟨"d/left"⟩ ∧
    ∃ d, load (.ofFiles ring) (Registry.offered true []) ⟨"./top"⟩ = .error (.circularImport d) ∧
      Reaches (.ofFiles ring) ⟨"top"⟩ d ∧ OnCycle (.ofFiles ring) d := by
  have hentry : (Source.ofFiles ring).locate ⟨"./top"⟩ = .ok ⟨"top"⟩ := by decide +kernel
  have htop : Imports (.ofFiles ring) ⟨"top"⟩ ⟨"d/left"⟩ := by unfold Imports; decide +kernel
  have hleft : Imports (.ofFiles ring) ⟨"d/left"⟩ ⟨"d/right"⟩ := by unfold Imports; decide +kernel
  have hright : Imports (.ofFiles ring) ⟨"d/right"⟩ ⟨"d/left"⟩ := by unfold Imports; decide +kernel
  have hfiles : ∀ q ∈ ring.map (·.1), Loadable (.ofFiles ring) (Registry.offered true []) q := by
    decide +kernel
  have hload : ∀ q, Reaches (.ofFiles ring) ⟨"top"⟩ q →
      Loadable (.ofFiles ring) (Registry.offered true []) q :=
    fun q hq => hfiles q (reaches_ring hq)
  have hcycle : OnCycle (.ofFiles ring) ⟨"d/left"⟩ := (TransGen.single hleft).tail hright
  obtain ⟨-, -, -, hcircular, -⟩ := load_circular_exact (.ofFiles ring) true [] ⟨"./top"⟩
  exact ⟨hcycle, hcircular _ _ hentry hload (.single htop) hcycle⟩

end FlowLint.RulesFile

import FlowLint.Proofs.Path.Resolution
import FlowLint.Proofs.RulesFile.MergeOrder

/-!
# References to files in memory

Two references resolve to one path exactly if they are spellings of one place at which a file is
stored. What is read, what a file imports and what a load comes to depend on the place alone, so
that a file is found, and found once, whichever way it is referred to.

A source that follows links may resolve references otherwise; nothing is said of it here.
-/

namespace FlowLint.RulesFile

variable {files : List (Path × String)} {p q : Path}

/-- The text is the one stored last for the place of the path. -/
def IsLatest (files : List (Path × String)) (p : Path) (text : String) : Prop :=
  ∃ before spelling after, files = before ++ (spelling, text) :: after ∧ spelling.SamePlace p ∧
    ∀ f ∈ after, ¬ f.1.SamePlace p

/-- What two references come to, as far as they name one place. -/
structure References (files : List (Path × String)) (p q : Path) : Prop where
  /-- Both resolve to one path exactly if they name one place and a file is stored there. -/
  identity : (∃ r, (Source.ofFiles files).resolve p = .ok r ∧
    (Source.ofFiles files).resolve q = .ok r) ↔ p.SamePlace q ∧ ∃ f ∈ files, f.1.SamePlace p
  /-- What is read is what was stored last for the place. -/
  latest : ∀ text, (Source.ofFiles files).read p = .ok text ↔ IsLatest files p text
  /-- A reference that resolves can be read. -/
  readable : (∃ r, (Source.ofFiles files).resolve p = .ok r) ↔
    ∃ text, (Source.ofFiles files).read p = .ok text
  /-- Spellings of one place read alike. -/
  text : p.SamePlace q → (Source.ofFiles files).read p = (Source.ofFiles files).read q
  /-- A reference resolves alike from spellings of one directory. -/
  relative : p.SamePlace q → ∀ reference : Path,
    (Source.ofFiles files).resolve (p.join reference) =
      (Source.ofFiles files).resolve (q.join reference)
  /-- A document imports the same files under each spelling of its file. -/
  imported : p.SamePlace q → p.fileName?.isSome → q.fileName?.isSome →
    ∀ root, (imports p root).map (Source.ofFiles files).resolve =
      (imports q root).map (Source.ofFiles files).resolve
  /-- A load comes to the same from each spelling of its entry. -/
  loaded : p.SamePlace q → ∀ g result,
    load (.ofFiles files) g p = .ok result ↔ load (.ofFiles files) g q = .ok result

theorem resolve_ofFiles {r : Path} : (Source.ofFiles files).resolve p = .ok r ↔
    r = p.normalize ∧ ∃ f ∈ files, f.1.SamePlace p := by
  rw [← mapError_eq_ok (f := ConfigurationError.unreadable p), ← Source.locate, locate_ofFiles]
  refine and_congr_right fun hr => ?_
  simp only [hr, List.mem_map, Path.normalize_eq_iff]

theorem resolve_congr (h : p.normalize = q.normalize) :
    (Source.ofFiles files).resolve p = (Source.ofFiles files).resolve q := by
  simp only [Source.ofFiles, h]

/-- The last file stored at a place counts. -/
theorem stored?_eq_some_iff {text : String} :
    stored? files p = some text ↔ IsLatest files p text := by
  simp only [stored?, Option.map_eq_some_iff, List.find?_eq_some_iff_append, IsLatest,
    decide_eq_true_eq, Bool.not_eq_true', decide_eq_false_iff_not, Path.normalize_eq_iff]
  constructor
  · rintro ⟨⟨spelling, text⟩, ⟨hplace, after, before, heq, hafter⟩, rfl⟩
    refine ⟨before.reverse, spelling, after.reverse, ?_, hplace, fun f hf => ?_⟩
    · rw [← List.reverse_eq_iff.mpr heq.symm]
      simp
    · exact hafter f (List.mem_reverse.mp hf)
  · rintro ⟨before, spelling, after, rfl, hplace, hafter⟩
    refine ⟨(spelling, text), ⟨hplace, after.reverse, before.reverse, by simp, fun f hf => ?_⟩, rfl⟩
    exact hafter f (List.mem_reverse.mp hf)

theorem read_ofFiles {text : String} :
    (Source.ofFiles files).read p = .ok text ↔ stored? files p = some text := by
  dsimp only [Source.ofFiles]
  cases stored? files p <;> simp

theorem exists_stored? : (∃ text, stored? files p = some text) ↔ ∃ f ∈ files, f.1.SamePlace p := by
  rw [← Option.isSome_iff_exists, stored?, Option.isSome_map, List.find?_isSome]
  simp only [List.mem_reverse, decide_eq_true_eq, Path.normalize_eq_iff]

/-- How references behave in a project kept in memory. -/
theorem references (files : List (Path × String)) (p q : Path) : References files p q where
  identity := by
    simp only [resolve_ofFiles]
    constructor
    · rintro ⟨r, ⟨hp, hf⟩, hq, -⟩
      have hsamePlace : p.SamePlace q := Path.normalize_eq_iff.mp (hp.symm.trans hq)
      exact ⟨hsamePlace, hf⟩
    · rintro ⟨hpq, f, hf, hfp⟩
      refine ⟨p.normalize, ⟨rfl, f, hf, hfp⟩, Path.normalize_eq_iff.mpr hpq, f, hf, ?_⟩
      exact hfp.trans _ _ _ hpq
  latest text := by rw [read_ofFiles, stored?_eq_some_iff]
  readable := by
    simp only [resolve_ofFiles, read_ofFiles, exists_stored?, exists_eq_left]
  text h := by
    have hnormalize := Path.normalize_eq_iff.mpr h
    simp only [Source.ofFiles, stored?, hnormalize]
  relative h reference := resolve_congr (Path.normalize_join_congr h reference)
  imported h hp hq root := by
    obtain ⟨name, hp⟩ := Option.isSome_iff_exists.mp hp
    obtain ⟨name', hq⟩ := Option.isSome_iff_exists.mp hq
    have hdirectory := Path.samePlace_parent h hp hq
    unfold imports
    cases root.child? "imports" with
    | none => rfl
    | some e =>
      simp only [List.map_map]
      exact List.map_congr_left fun i _ =>
        resolve_congr (Path.normalize_join_congr hdirectory ⟨i.text⟩)
  loaded h g result := by
    have hlocate : ∀ start, (Source.ofFiles files).locate p = .ok start ↔
        (Source.ofFiles files).locate q = .ok start := by
      intro start
      rw [locate_ofFiles, locate_ofFiles, Path.normalize_eq_iff.mpr h]
    simp only [load_eq_ok_iff, hlocate]

/-- **References are told apart by the places they name.** Every path has a resolved form: the
root or some `..`, then names only; resolving it again changes nothing. Two paths have the same
one exactly if rewriting leads from one to the other, a path may be resolved before another is
joined to it, and references to files in memory come to the same exactly if they name the same
place. -/
theorem references_by_place (files : List (Path × String)) (p q : Path) :
    p.HasNormalForm ∧ (p.normalize = q.normalize ↔ p.SamePlace q) ∧
      (p.join q).normalize = (p.normalize.join q).normalize ∧ References files p q := by
  refine ⟨p.hasNormalForm, Path.normalize_eq_iff, ?_, references files p q⟩
  exact (Path.normalize_join_congr p.hasNormalForm.samePlace q).symm

/-- A file stored twice, under two spellings of its path. -/
def respelled : List (Path × String) :=
  [(⟨"rules/base.xml"⟩, "<cpilint><rules/></cpilint>"), (⟨"./rules//base.xml"⟩, "<cpilint/>")]

/-- A third spelling and a fourth find it, with the text that was stored last. -/
theorem references_by_place_respelled :
    (∃ r, (Source.ofFiles respelled).resolve ⟨"rules/sub/../base.xml"⟩ = .ok r ∧
      (Source.ofFiles respelled).resolve ⟨"x/../rules/./base.xml"⟩ = .ok r) ∧
    (Source.ofFiles respelled).read ⟨"rules/sub/../base.xml"⟩ = .ok "<cpilint/>" := by
  obtain ⟨-, -, -, hrefs⟩ :=
    references_by_place respelled ⟨"rules/sub/../base.xml"⟩ ⟨"x/../rules/./base.xml"⟩
  have hlast : Path.SamePlace ⟨"./rules//base.xml"⟩ ⟨"rules/sub/../base.xml"⟩ :=
    Path.normalize_eq_iff.mp (by decide +kernel)
  have hsame : Path.SamePlace ⟨"rules/sub/../base.xml"⟩ ⟨"x/../rules/./base.xml"⟩ :=
    Path.normalize_eq_iff.mp (by decide +kernel)
  have hfiles : respelled = [(⟨"rules/base.xml"⟩, "<cpilint><rules/></cpilint>")] ++
      (⟨"./rules//base.xml"⟩, "<cpilint/>") :: [] := rfl
  constructor
  · refine hrefs.identity.mpr ⟨hsame, (⟨"./rules//base.xml"⟩, "<cpilint/>"), ?_, hlast⟩
    rw [hfiles]
    exact List.mem_append_right _ List.mem_cons_self
  · exact (hrefs.latest _).mpr ⟨_, _, [], hfiles, hlast, fun f hf => absurd hf List.not_mem_nil⟩

end FlowLint.RulesFile

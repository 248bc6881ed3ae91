import FlowLint.Command.Execute
import FlowLint.Proofs.Bundle.Corpus
import FlowLint.Proofs.Rule.Independence
import FlowLint.Proofs.Rule.Suppression
import FlowLint.Proofs.RulesFile.MergeOrder

/-!
# Reports agree with their runs

The numbers of a report come from the rules file, from the engine and from the sink, and its
verdict from one of the numbers. They are told here by what the tree holds: the artifacts that
are found under the directories, the rules and exemptions that the rules files declare, and
the issues that each rule raises when it is shown the artifacts. There is a report only if
nothing fails on the way. A count above the largest one that a report can show is not told.
-/

namespace FlowLint.Command

open FlowLint.Bundle (bothFlows loadArtifacts_twoFlows rulesText twoFlows)
open FlowLint.Files (Tree)
open FlowLint.Flow (Artifact)
open FlowLint.RulesFile (Source Reaches DeclaresExemption Merges)

variable {t : Tree} {g : Registry} {l : Lint} {span : Span} {result : LintResult}
  {file : RulesFile} {rules : List Rule} {exemptions : List Exemption} {artifacts : List Artifact}
  {summary : Summary} {n : Nat}

/-- A count shows a number, unless the number is too large for it. -/
def Shows (count : UInt32) (n : Nat) : Prop :=
  n < UInt32.size → count.toNat = n

/-- The issues that rules raise when they are shown artifacts, rule by rule. -/
def raised (rules : List Rule) (artifacts : List Artifact) : List Issue :=
  rules.flatMap (·.issuesAlong (hooksOf artifacts))

/-- The exemptions that the rules files declare to which an entry leads. -/
def declaredExemptions (s : Source) (start : Path) : Set Exemption :=
  {x | ∃ p, Reaches s start p ∧ DeclaresExemption s p x}

/-- How a report agrees with the run that it is about. -/
structure Agrees (t : Tree) (g : Registry) (l : Lint) (file : RulesFile) (artifacts : List Artifact)
    (result : LintResult) : Prop where
  loaded : RulesFile.load (.ofTree t) g l.rules = .ok file
  read : Bundle.loadArtifacts t l.directories = .ok artifacts
  issuesFound : Shows result.report.totals.issuesFound result.report.issues.length
  raised : result.report.issues.length + result.suppressed = (raised file.rules artifacts).length
  pass_iff : result.report.verdict = .pass ↔ result.report.issues = []
  exitCode : result.report.verdict.exitCode = if result.report.issues = [] then 0 else 2
  artifactsInspected : Shows result.report.totals.artifactsInspected
    (Bundle.artifactPlaces t l.directories).ncard
  rulesLoaded : Shows result.report.totals.rulesLoaded file.rules.length
  some_rule : 1 ≤ result.report.totals.rulesLoaded.toNat
  merged : ∃ start order, (Source.ofTree t).locate l.rules = .ok start ∧
    Merges (.ofTree t) g start order file ∧
    Shows result.report.totals.exemptionsConfigured (declaredExemptions (.ofTree t) start).ncard

/-- What leaves a run without a report: rules that cannot be loaded, an artifact that is found and
cannot be read, artifacts that make no corpus, or a hook that fails. -/
inductive Fails (t : Tree) (g : Registry) (l : Lint) : Prop
  | rules {e : ConfigurationError} (unloadable : RulesFile.load (.ofTree t) g l.rules = .error e)
  | artifact {root d : Path} {e : Bundle.ReadingError} (named : root ∈ l.directories)
      (found : Bundle.FoundUnder t root d) (unreadable : Bundle.readArtifact t d = .error e)
  | corpus {e : Bundle.CorpusError} (unreadable : Bundle.loadArtifacts t l.directories = .error e)
  | hook {file : RulesFile} {artifacts : List Artifact} {r : Rule}
      (loaded : RulesFile.load (.ofTree t) g l.rules = .ok file)
      (read : Bundle.loadArtifacts t l.directories = .ok artifacts)
      (configured : r ∈ file.rules) (failing : ¬ r.Passes (hooksOf artifacts))

/-! ## Counts -/

@[simp] theorem toNat_counter (n : Nat) : (counter n).toNat = min n (UInt32.size - 1) := by
  have hsize : UInt32.size = 4294967296 := rfl
  rw [counter, UInt32.toNat_ofNat']
  exact Nat.mod_eq_of_lt (by omega)

/-- A counter shows the number itself up to the greatest it can show. -/
theorem shows_counter (n : Nat) : Shows (counter n) n := by
  intro h
  rw [toNat_counter]
  omega

@[simp] theorem counter_eq_zero_iff : counter n = 0 ↔ n = 0 := by
  have hsize : UInt32.size = 4294967296 := rfl
  rw [← UInt32.toNat_inj, toNat_counter, UInt32.toNat_zero]
  omega

/-- The verdict does not depend on where the counter stops. -/
@[simp] theorem ofCount_counter (n : Nat) :
    Verdict.ofCount (counter n) = if n = 0 then .pass else .fail := by
  simp [Verdict.ofCount]

/-! ## The run -/

/-- A sink that keeps what is not exempt, as yet empty. -/
def emptySink (exemptions : List Exemption) : ExemptionFilter Collector :=
  { exemptions, inner := {} }

/-- The run of the rules of a file, with the file's exemptions. -/
def runOf (file : RulesFile) (artifacts : List Artifact) : Outcome (ExemptionFilter Collector) :=
  FlowLint.run file.rules (artifacts.map .ok) (emptySink file.exemptions)

@[simp] theorem readable_map_ok (artifacts : List Artifact) :
    readable (artifacts.map .ok) = artifacts := by
  rw [readable, List.filterMap_map]
  exact List.filterMap_some

/-- A run over artifacts that were all read fails only by a rule. -/
theorem runOf_succeeds_iff :
    (runOf file artifacts).Succeeds ↔ ∀ r ∈ file.rules, r.Passes (hooksOf artifacts) := by
  have hreadable : ∀ item ∈ (artifacts.map .ok : List (Except Markup.Error Artifact)),
      ∃ a, item = .ok a := by
    simp
  rw [runOf, run_succeeds_iff, and_iff_right hreadable, readable_map_ok]

/-- How the summary and the sink of a run that came to its end agree with what was raised. -/
structure Accounts (rules : List Rule) (artifacts : List Artifact)
    (sink : ExemptionFilter Collector) (summary : Summary) : Prop where
  artifactsInspected : summary.artifactsInspected = artifacts.length
  issuesFound : summary.issuesFound = sink.inner.issues.length
  raised : sink.inner.issues.length + sink.suppressed = (raised rules artifacts).length

/-- The counts of a successful run, each against what it counts. -/
theorem accounts_of_run (h : (runOf file artifacts).summary = .ok summary) :
    Accounts file.rules artifacts (runOf file artifacts).sink summary := by
  have hbare : (FlowLint.run file.rules (artifacts.map .ok) ({} : Collector)).failure = none := by
    have hfailure := Outcome.succeeds_iff.mp ⟨summary, h⟩
    rwa [runOf, run_into] at hfailure
  have hinspected := artifactsInspected_run hbare
  have hraised := (interleaving_issues_run (Outcome.succeeds_iff.mpr hbare)).perm.length_eq
  rw [List.length_map] at hinspected
  rw [readable_map_ok, ← List.flatMap_def] at hraised
  rw [runOf, run_into] at h ⊢
  generalize FlowLint.run file.rules (artifacts.map .ok) ({} : Collector) = bare at *
  rw [Outcome.summary, Outcome.into, hbare] at h
  cases h
  rw [Outcome.into, emptySink, ExemptionFilter.acceptAll_new]
  refine ⟨hinspected, rfl, ?_⟩
  -- Each issue is either kept or counted.
  have hsplit := List.length_eq_length_filter_add (l := bare.sink.issues)
    fun i => decide (Exempted file.exemptions i)
  rw [raised, ← hraised]
  simp only [decide_not]
  omega

/-- A run is a load of the rules, a load of the artifacts and a successful pass of the rules over
them. -/
theorem run_eq_ok : l.run t g span = .ok result ↔
    ∃ file, RulesFile.load (.ofTree t) g l.rules = .ok file ∧
      ∃ artifacts, Bundle.loadArtifacts t l.directories = .ok artifacts ∧
        ∃ summary, (runOf file artifacts).summary = .ok summary ∧
          result = ⟨reportOf file summary (runOf file artifacts).sink.inner.issues span,
            (runOf file artifacts).sink.suppressed⟩ := by
  unfold Lint.run
  simp only [RulesFile.bind_eq_ok, RulesFile.mapError_eq_ok]
  simp only [pure, Except.pure, Except.ok.injEq, eq_comm (b := result), runOf,
    emptySink]

/-- The result of a run that nothing keeps from its end. -/
theorem exists_run (span : Span) (hload : RulesFile.load (.ofTree t) g l.rules = .ok file)
    (hartifacts : Bundle.loadArtifacts t l.directories = .ok artifacts)
    (hsummary : (runOf file artifacts).summary = .ok summary) :
    ∃ result, l.run t g span = .ok result ∧
      result.report.issues = (runOf file artifacts).sink.inner.issues ∧
      result.suppressed = (runOf file artifacts).sink.suppressed :=
  ⟨_, run_eq_ok.mpr ⟨file, hload, artifacts, hartifacts, summary, hsummary, rfl⟩, rfl, rfl⟩

/-! ## Failures -/

/-- Where the artifacts make a corpus, each that is found can be read. -/
theorem readArtifact_of_load (ht : t.root.isProper = true)
    (h : Bundle.loadArtifacts t l.directories = .ok artifacts) {root d : Path}
    (hroot : root ∈ l.directories) (hd : Bundle.FoundUnder t root d) :
    ∃ a, Bundle.readArtifact t d = .ok a := by
  obtain ⟨directories, delivered, hdirectories, hdelivered, hids, -⟩ :=
    Bundle.loadArtifacts_eq_ok.mp h
  have hcorpus := Bundle.corpus_of_load ht hdirectories hdelivered hids
  obtain ⟨x, hx, _, hl, hlx⟩ := hcorpus.exists_located ht hroot hd
  have hreadArtifact : Bundle.readArtifact t d = .ok x.artifact :=
    Bundle.readArtifact_congr ht ⟨_, _, _, hlx, hl⟩ (hcorpus.read x hx)
  exact ⟨x.artifact, hreadArtifact⟩

/-- There is an error exactly if one of the stages fails. -/
theorem run_eq_error_iff (ht : t.root.isProper = true) :
    (∃ e, l.run t g span = .error e) ↔ Fails t g l := by
  have hnone : (∃ e, l.run t g span = .error e) ↔ ¬ ∃ result, l.run t g span = .ok result := by
    cases l.run t g span <;> simp
  rw [hnone]
  constructor
  · intro hfailed
    cases hfile : RulesFile.load (.ofTree t) g l.rules with
    | error e => exact .rules hfile
    | ok file =>
      cases hartifacts : Bundle.loadArtifacts t l.directories with
      | error e => exact .corpus hartifacts
      | ok artifacts =>
        have hhooks : ¬ ∀ r ∈ file.rules, r.Passes (hooksOf artifacts) := by
          intro hpasses
          obtain ⟨summary, hsummary⟩ := runOf_succeeds_iff.mpr hpasses
          exact hfailed ⟨_, run_eq_ok.mpr
            ⟨file, hfile, artifacts, hartifacts, summary, hsummary, rfl⟩⟩
        push Not at hhooks
        obtain ⟨r, hr, hfails⟩ := hhooks
        exact .hook hfile hartifacts hr hfails
  · rintro hfails ⟨result, hresult⟩
    obtain ⟨file, hfile, artifacts, hartifacts, summary, hsummary, -⟩ := run_eq_ok.mp hresult
    cases hfails with
    | rules hunloadable => cases hfile.symm.trans hunloadable
    | artifact hroot hd hunreadable =>
      obtain ⟨a, ha⟩ := readArtifact_of_load ht hartifacts hroot hd
      cases ha.symm.trans hunreadable
    | corpus hunreadable => cases hartifacts.symm.trans hunreadable
    | hook hfile' hartifacts' hr hfails =>
      cases hfile.symm.trans hfile'
      cases hartifacts.symm.trans hartifacts'
      exact hfails (runOf_succeeds_iff.mp ⟨summary, hsummary⟩ _ hr)

/-! ## Reports -/

/-- The exemptions are counted once each, however often they are declared. -/
theorem ncard_declaredExemptions {s : Source} {start : Path} {order : List Path}
    (h : Merges s g start order file) :
    (declaredExemptions s start).ncard = file.exemptions.length := by
  refine Bundle.ncard_eq_length (h.sorted.imp ne_of_irrefl) fun x => ?_
  rw [h.exemptions]
  refine exists_congr fun p => and_congr_left fun _ => ?_
  exact (h.mem_iff p).symm

/-- A result agrees with the rules, the artifacts and the issues it was made from. -/
theorem agrees_of_run (ht : t.root.isProper = true) (h : l.run t g span = .ok result) :
    ∃ file artifacts, Agrees t g l file artifacts result := by
  obtain ⟨file, hfile, artifacts, hartifacts, summary, hsummary, rfl⟩ := run_eq_ok.mp h
  obtain ⟨hinspected, hfound, hraised⟩ := accounts_of_run hsummary
  have hverdict : Verdict.ofCount (counter summary.issuesFound) =
      if (runOf file artifacts).sink.inner.issues = [] then .pass else .fail := by
    rw [ofCount_counter, hfound]
    simp only [List.length_eq_zero_iff]
  obtain ⟨start, order, hstart, hu, hload, hmerged, -, hrules⟩ :=
    RulesFile.load_eq_ok_iff.mp hfile
  have hmerges := hmerged ▸ RulesFile.merges_of_unfolding hu hload
  obtain ⟨directories, delivered, hdirectories, hdelivered, hids, hread⟩ :=
    Bundle.loadArtifacts_eq_ok.mp hartifacts
  have hcorpus := Bundle.corpus_of_load ht hdirectories hdelivered hids
  have hplaces : (Bundle.artifactPlaces t l.directories).ncard = summary.artifactsInspected := by
    rw [hcorpus.ncard_artifactPlaces ht, hinspected, hread, List.length_map]
  refine ⟨file, artifacts,
    { loaded := hfile
      read := hartifacts
      issuesFound := hfound ▸ shows_counter _
      raised := hraised
      pass_iff := ?_
      exitCode := ?_
      artifactsInspected := hplaces ▸ shows_counter _
      rulesLoaded := shows_counter _
      some_rule := ?_
      merged := ⟨start, _, hstart, hmerges, ncard_declaredExemptions hmerges ▸ shows_counter _⟩ }⟩
  · simp only [reportOf, hverdict]
    split <;> simp_all
  · simp only [reportOf, hverdict]
    split <;> rfl
  · have hpos := List.length_pos_iff.mpr hrules
    have hsize : UInt32.size = 4294967296 := rfl
    simp only [reportOf, toNat_counter]
    omega

/-- **Reports are consistent**: a report agrees with the run that it is about, and there is none
exactly if something fails, whatever has been raised by then. -/
theorem run_reportAgrees (ht : t.root.isProper = true) :
    (∀ result, l.run t g span = .ok result → ∃ file artifacts, Agrees t g l file artifacts result) ∧
      ((∃ e, l.run t g span = .error e) ↔ Fails t g l) :=
  ⟨fun _ h => agrees_of_run ht h, run_eq_error_iff ht⟩

/-- The document of the rules file beside two artifacts. -/
def rulesDocument : Markup.Element :=
  (Markup.parse rulesText).toOption.getD default

/-- What the rules file holds. -/
def flowRules : RulesFile :=
  (RulesFile.own Catalog.registry rulesDocument).toOption.getD {}

/-- The rules file and the run over both artifacts, evaluated at once so that the text is read but
once. -/
theorem runOf_bothFlows :
    (Markup.parse rulesText).toBool = true ∧ RulesFile.check rulesDocument = .ok () ∧
      RulesFile.imports ⟨"/rules.xml"⟩ rulesDocument = [] ∧
      (RulesFile.own Catalog.registry rulesDocument).toBool = true ∧
      RulesFile.duplicateIds flowRules.rules = [] ∧ flowRules.rules.isEmpty = false ∧
      (runOf flowRules bothFlows).summary = .ok ⟨2, 1⟩ ∧
      (runOf flowRules bothFlows).sink.inner.issues.length = 1 ∧
      (runOf flowRules bothFlows).sink.suppressed = 1 := by
  decide +kernel

theorem ok_getD {ε α : Type} {x : Except ε α} (h : x.toBool = true) (y : α) :
    x = .ok (x.toOption.getD y) := by
  cases x with
  | error e => cases h
  | ok a => rfl

theorem imports_rulesDocument (p : Path) : RulesFile.imports p rulesDocument = [] := by
  obtain ⟨-, hcheck, himports, -⟩ := runOf_bothFlows
  rw [RulesFile.imports_eq hcheck, List.map_eq_nil_iff] at himports ⊢
  exact himports

theorem document_rulesText {p : Path} (h : (Source.ofTree t).text p = .ok rulesText) :
    RulesFile.document (.ofTree t) p = .ok rulesDocument := by
  obtain ⟨hparse, hcheck, -⟩ := runOf_bothFlows
  have hown : Markup.parse rulesText = .ok ((Markup.parse rulesText).toOption.getD default) :=
    ok_getD hparse _
  exact RulesFile.document_eq_ok.mpr ⟨_, h, hown, hcheck⟩

/-- Where the rules file is, its rules are loaded. -/
theorem load_rulesText {entry p : Path} (hlocate : (Source.ofTree t).locate entry = .ok p)
    (htext : (Source.ofTree t).text p = .ok rulesText) :
    RulesFile.load (.ofTree t) Catalog.registry entry = .ok flowRules := by
  obtain ⟨-, -, -, hown, hids, hempty, -⟩ := runOf_bothFlows
  have hdocument : RulesFile.document (Source.ofTree t) p = .ok rulesDocument :=
    document_rulesText htext
  have hnil : RulesFile.imports p rulesDocument = [] := imports_rulesDocument p
  exact RulesFile.load_of_leaf hlocate hdocument hnil
    (ok_getD hown _) hids (List.isEmpty_eq_false_iff.mp hempty)

theorem load_twoFlows :
    RulesFile.load (.ofTree twoFlows) Catalog.registry ⟨"/rules.xml"⟩ = .ok flowRules := by
  have hl : twoFlows.locate ⟨"/rules.xml"⟩ =
      .ok ⟨["rules.xml"], .file (Text.toBytes rulesText)⟩ := by
    with_unfolding_all rfl
  have htext : twoFlows.text ⟨"/rules.xml"⟩ = .ok rulesText := Tree.text_of_locate hl
  exact load_rulesText (by with_unfolding_all rfl) (RulesFile.mapError_eq_ok.mpr htext)

/-- Two artifacts without descriptions, of which one is exempt: one issue is reported. -/
theorem run_reportAgrees_exempt :
    let l : Lint := ⟨⟨"/rules.xml"⟩, [⟨"/flows"⟩, ⟨"/flows/b"⟩]⟩
    ∃ result, l.run twoFlows Catalog.registry default = .ok result ∧
      result.report.issues.length = 1 ∧ result.suppressed = 1 ∧
      ∃ file artifacts, Agrees twoFlows Catalog.registry l file artifacts result := by
  intro l
  obtain ⟨-, -, -, -, -, -, hsummary, hissues, hsuppressed⟩ := runOf_bothFlows
  obtain ⟨result, hrun, hreported, hleft⟩ :=
    exists_run (l := l) default load_twoFlows loadArtifacts_twoFlows hsummary
  rw [← hreported] at hissues
  have hexists : ∃ file artifacts, Agrees twoFlows Catalog.registry l file artifacts result :=
    (run_reportAgrees (by with_unfolding_all rfl)).1 result hrun
  exact ⟨result, hrun, hissues, hleft.trans hsuppressed, hexists⟩

/-! ## The program -/

theorem executeCheck_of_ok (h : l.run t Catalog.registry span = .ok result) (reportOut : Path)
    (markdownOut : Option Path) :
    let r := executeCheck t span l reportOut markdownOut
    r.code = 1 ∨ r.code = result.report.verdict.exitCode := by
  simp only [executeCheck, h]
  split
  · exact .inl rfl
  · split
    · exact .inr rfl
    · split
      · exact .inl rfl
      · exact .inr rfl

/-- The program ends with 0 or with 2 only after a report without or with issues; where
something fails it ends with 1 and writes nothing. -/
theorem executeCheck_code (ht : t.root.isProper = true) (reportOut : Path)
    (markdownOut : Option Path) :
    let r := executeCheck t span l reportOut markdownOut
    (r.code = 0 → ∃ result, l.run t Catalog.registry span = .ok result ∧
        result.report.issues = []) ∧
      (r.code = 2 → ∃ result, l.run t Catalog.registry span = .ok result ∧
        result.report.issues ≠ []) ∧
      (Fails t Catalog.registry l → r.code = 1 ∧ r.tree = t) := by
  intro r
  cases hrun : l.run t Catalog.registry span with
  | error e =>
    have hr : r = lintFailure "" t e.chain := by
      simp only [r, executeCheck, hrun]
    rw [hr]
    exact ⟨fun h => (nomatch h), fun h => (nomatch h), fun _ => ⟨rfl, rfl⟩⟩
  | ok result =>
    obtain ⟨file, artifacts, hagrees⟩ := agrees_of_run ht hrun
    have hcode : r.code = 1 ∨ r.code = result.report.verdict.exitCode :=
      executeCheck_of_ok hrun reportOut markdownOut
    rw [hagrees.exitCode] at hcode
    refine ⟨fun h => ⟨result, rfl, ?_⟩, fun h => ⟨result, rfl, ?_⟩, fun hfails => ?_⟩
    · by_contra hissues
      rw [if_neg hissues] at hcode
      omega
    · intro hissues
      rw [if_pos hissues] at hcode
      omega
    · obtain ⟨e, he⟩ : ∃ e, l.run t Catalog.registry span = .error e :=
        (run_eq_error_iff ht).mpr hfails
      cases hrun.symm.trans he

end FlowLint.Command

import FlowLint.Command.Golden
import FlowLint.Proofs.Catalog.BuiltInIssues
import FlowLint.Proofs.Command.LintReport
import FlowLint.Proofs.Path.Resolution
import FlowLint.Proofs.Report.Masking
import FlowLint.Proofs.Report.ReadBack
import FlowLint.Proofs.RulesFile.Unchanged

/-!
# Recorded reports

A report is recorded with all masked that may change from run to run, and compared in that form. A
comparison succeeds exactly if every record differs from the report of now at most in times and in
the version of the tool; when it is made does not matter. What was recorded is accepted as long as
what the record is about is the same: the files that the rules lead to and the directories of
artifacts. Recording changes neither of them, unless the rules lead to the record.

Only reports without extensions are recorded. Their numbers are whole, so it does not matter that
values are compared with the two floating-point zeros apart. Nothing is said of what keeps a report
from being recorded, or of how a comparison that fails is explained.
-/

namespace FlowLint

open FlowLint.Json (DifferAtMost Legible lookup textMember)

namespace Report

variable {r : Report}

/-! ## Masked reports -/

/-- A masked report: version and times replaced, everything else as it was. -/
theorem mask_toJson (r : Report) : mask r.toJson =
    .obj [textMember "schema" schema,
      ("tool", .obj [textMember "name" r.tool.name, ("version", versionMark)]),
      ("started_at", timeMark), ("finished_at", timeMark),
      textMember "verdict" r.verdict.word, ("issues", maskTimes (.arr (r.issues.map Issue.toJson))),
      ("data", r.totals.toJson)] := by
  with_unfolding_all rfl

theorem isEnvelope_toJson (r : Report) : IsEnvelope r.toJson := by
  constructor
  · intro key hkey
    simp only [List.mem_cons, List.not_mem_nil, or_false] at hkey
    rcases hkey with rfl | rfl | rfl | rfl | rfl <;> rfl
  · refine ⟨r.tool.toJson, rfl, fun key hkey => ?_⟩
    simp only [List.mem_cons, List.not_mem_nil, or_false] at hkey
    rcases hkey with rfl | rfl <;> rfl

/-- The report of a run at another time, by another version of the tool. -/
def rerun (r : Report) (span : Command.Span) (version : String) : Report :=
  { r with
    tool := { r.tool with version }
    startedAt := span.started
    finishedAt := span.finished }

/-- Running again at another time with another version does not show in a masked report. -/
@[simp] theorem mask_rerun (r : Report) (span : Command.Span) (version : String) :
    mask (r.rerun span version).toJson = mask r.toJson := by
  rw [mask_toJson, mask_toJson]
  rfl

end Report

namespace Command

open FlowLint.Catalog (registry)
open FlowLint.Files (Located Node Tree)
open FlowLint.Report (IsEnvelope IsVolatile mask)
open FlowLint.RulesFile (Source Reaches Kept)

variable {t t' : Tree} {l : Lint} {span span' : Span} {fixtures : Path} {result : LintResult}
  {x : Golden} {v w : Json} {place : List String} {content : List UInt8}

/-- What a lint reads is the same in two trees. -/
structure Lint.Unchanged (l : Lint) (t t' : Tree) : Prop where
  rules : ∃ start, (Source.ofTree t).locate l.rules = .ok start ∧
    (Source.ofTree t').locate l.rules = .ok start ∧ Kept (.ofTree t) (.ofTree t') start
  directories : ∀ d ∈ l.directories, t.SameNode t' d d

/-- A report is recorded that differs from the report of now at most in what changes from run to
run. -/
def Golden.UpToDate (x : Golden) (t : Tree) (span : Span) (fixtures : Path) : Prop :=
  ∃ result text recorded, (x.lint fixtures).run t registry span = .ok result ∧
    t.text (fixtures.join ⟨x.expected⟩) = .ok text ∧ Json.parse? text = some recorded ∧
    DifferAtMost IsVolatile result.report.toJson recorded

/-- The rules of a recorded report do not lead to its record, which is in the later tree. -/
def Golden.Apart (x : Golden) (t t' : Tree) (fixtures : Path) : Prop :=
  ∀ start p, (Source.ofTree t).locate (x.lint fixtures).rules = .ok start →
    Reaches (.ofTree t) start p → t'.locate p ≠ t'.locate (fixtures.join ⟨x.expected⟩)

/-! ## The comparison -/

/-- A golden report is a run's report, masked and sorted. -/
theorem report_eq_ok : x.report t span fixtures = .ok v ↔
    ∃ result, (x.lint fixtures).run t registry span = .ok result ∧
      v = (mask result.report.toJson).sorted := by
  rw [Golden.report]
  simp only [RulesFile.bind_eq_ok, RulesFile.mapError_eq_ok]
  simp only [pure, Except.pure, Except.ok.injEq, eq_comm (b := v)]

/-- A recorded report is read as JSON and masked again. -/
theorem recorded_eq_ok : x.recorded t fixtures = .ok v ↔
    ∃ text, t.text (fixtures.join ⟨x.expected⟩) = .ok text ∧
      ∃ recorded, Json.parse? text = some recorded ∧ v = (mask recorded.sorted).sorted := by
  rw [Golden.recorded]
  simp only [RulesFile.bind_eq_ok, RulesFile.mapError_eq_ok]
  refine exists_congr fun text => and_congr_right fun _ => ?_
  cases Json.parse? text <;> simp [pure, Except.pure, eq_comm]

/-- The comparison of masked forms. -/
theorem upToDate_iff : x.UpToDate t span fixtures ↔
    ∃ v, x.report t span fixtures = .ok v ∧ x.recorded t fixtures = .ok v := by
  have hcompare : ∀ (r : Report) (recorded : Json),
      (mask r.toJson).sorted = (mask recorded.sorted).sorted ↔
        DifferAtMost IsVolatile r.toJson recorded := by
    intro r recorded
    rw [Report.sorted_mask_eq_iff r.isEnvelope_toJson, Json.differAtMost_sorted_right]
  constructor
  · rintro ⟨result, text, recorded, hrun, htext, hparse, hdiffer⟩
    have hreport' : x.report t span fixtures = .ok (mask result.report.toJson).sorted :=
      report_eq_ok.mpr ⟨result, hrun, rfl⟩
    have hrecorded' : x.recorded t fixtures = .ok (mask result.report.toJson).sorted :=
      recorded_eq_ok.mpr ⟨text, htext, recorded, hparse, (hcompare _ _).mpr hdiffer⟩
    exact ⟨_, hreport', hrecorded'⟩
  · rintro ⟨v, hreport, hrecorded⟩
    obtain ⟨result, hrun, rfl⟩ := report_eq_ok.mp hreport
    obtain ⟨text, htext, recorded, hparse, heq⟩ := recorded_eq_ok.mp hrecorded
    exact ⟨result, text, recorded, hrun, htext, hparse, (hcompare _ _).mp heq⟩

/-- Nothing is stale exactly if every report is up to date. -/
theorem stale_eq_nil_iff {xs : List Golden} : stale t span fixtures xs = .ok [] ↔
    ∀ x ∈ xs, x.UpToDate t span fixtures := by
  induction xs with
  | nil => simp [stale]
  | cons x rest ih =>
    rw [List.forall_mem_cons, ← ih, upToDate_iff, stale]
    cases hreport : x.report t span fixtures with
    | error e => simp [bind, Except.bind]
    | ok v =>
      cases hrecorded : x.recorded t fixtures with
      | error e => simp [bind, Except.bind]
      | ok w =>
        cases hothers : stale t span fixtures rest with
        | error e => simp [bind, Except.bind]
        | ok others =>
          simp only [bind, Except.bind, pure, Except.pure, Except.ok.injEq, exists_eq_left']
          split
          · next hsame =>
            obtain rfl := Json.same_iff.mp hsame
            simp
          · next hsame =>
            have hne : w ≠ v := mt Json.same_iff.mpr hsame
            simp [hne]

/-- The comparison succeeds exactly if all records are up to date. -/
theorem code_executeCompare : (executeCompare t span fixtures).code = 0 ↔
    ∀ x ∈ goldens, x.UpToDate t span fixtures := by
  rw [← stale_eq_nil_iff, executeCompare]
  cases stale t span fixtures goldens with
  | error chain => simp [upkeepFailure]
  | ok files => cases files <;> simp [upkeepFailure]

/-! ## Other times -/

/-- A run at another time comes to the same, its times apart. -/
theorem run_at (l : Lint) (t : Tree) (g : Registry) (span span' : Span) :
    l.run t g span' = (l.run t g span).map fun result =>
      { result with report := result.report.rerun span' result.report.tool.version } := by
  unfold Lint.run
  cases RulesFile.load (.ofTree t) g l.rules with
  | error e => rfl
  | ok file =>
    cases Bundle.loadArtifacts t l.directories with
    | error e => simp only [bind, Except.bind, Except.mapError, Except.map]
    | ok artifacts =>
      simp only [bind, Except.bind, Except.mapError]
      generalize FlowLint.run file.rules (artifacts.map .ok) (_ : ExemptionFilter Collector) = o
      cases o.summary <;> rfl

/-- The time of a run does not show in a golden report. -/
theorem report_at (x : Golden) (t : Tree) (span span' : Span) (fixtures : Path) :
    x.report t span' fixtures = x.report t span fixtures := by
  rw [Golden.report, Golden.report, run_at (x.lint fixtures) t registry span span']
  cases (x.lint fixtures).run t registry span with
  | error e => rfl
  | ok result =>
    simp [Except.map, Except.mapError, bind, Except.bind]

theorem stale_at (t : Tree) (span span' : Span) (fixtures : Path) (xs : List Golden) :
    stale t span' fixtures xs = stale t span fixtures xs := by
  induction xs with
  | nil => rfl
  | cons x rest ih => rw [stale, stale, report_at x t span span', ih]

/-- It does not matter when reports are compared. -/
theorem executeCompare_at (t : Tree) (span span' : Span) (fixtures : Path) :
    executeCompare t span' fixtures = executeCompare t span fixtures := by
  rw [executeCompare, executeCompare, stale_at t span span']

/-! ## Unchanged inputs -/

/-- What is reported of unchanged inputs is the same at every time. -/
theorem Lint.Unchanged.run (h : l.Unchanged t t') (ht : t.root.isProper = true) {g : Registry}
    (hrun : l.run t g span = .ok result) (span' : Span) :
    ∃ result', l.run t' g span' = .ok result' ∧
      result'.report = result.report.rerun span' result.report.tool.version := by
  obtain ⟨file, hfile, artifacts, hartifacts, summary, hsummary, rfl⟩ := run_eq_ok.mp hrun
  obtain ⟨start, hstart, hstart', hkept⟩ := h.rules
  have hfile' := hkept.load hstart hstart' hfile
  have hartifacts' := Bundle.loadArtifacts_unchanged ht h.directories hartifacts
  exact ⟨_, run_eq_ok.mpr ⟨file, hfile', artifacts, hartifacts', summary, hsummary, rfl⟩, rfl⟩

/-- A report that was made is made again as long as the inputs are the same. -/
theorem report_unchanged (ht : t.root.isProper = true) (h : (x.lint fixtures).Unchanged t t')
    (hreport : x.report t span fixtures = .ok v) (span' : Span) :
    x.report t' span' fixtures = .ok v := by
  obtain ⟨result, hrun, rfl⟩ := report_eq_ok.mp hreport
  obtain ⟨result', hrun', heq⟩ := h.run ht hrun span'
  exact report_eq_ok.mpr ⟨result', hrun', by rw [heq, Report.mask_rerun]⟩

/-! ## Records -/

/-- The report of a run without extensions is legible, and stays so when it is masked. -/
theorem legible_report (h : x.report t span fixtures = .ok v) : Legible Json.depthLimit v := by
  obtain ⟨result, hrun, rfl⟩ := report_eq_ok.mp h
  obtain ⟨file, hfile, artifacts, -, summary, hsummary, rfl⟩ := run_eq_ok.mp hrun
  have hbuiltIn : ∀ i ∈ (runOf file artifacts).sink.inner.issues, i.detail.IsBuiltIn :=
    fun i hi => Catalog.isBuiltIn_of_mem_run hfile ⟨summary, hsummary⟩ hi
  have hproper : ∀ d : Detail, d.IsBuiltIn → d.Proper ∧ d.LegibleData 123 := by
    intro d hd
    cases d <;> first | exact hd.elim | exact ⟨trivial, trivial⟩
  have hlegible : Legible (121 + 6)
      (reportOf file summary (runOf file artifacts).sink.inner.issues span).toJson :=
    Report.legible_toJson_of_details (fun i hi => (hproper _ (hbuiltIn i hi)).1)
      fun i hi => (hproper _ (hbuiltIn i hi)).2
  have hlegibleMask : Legible Json.depthLimit
      (mask (reportOf file summary (runOf file artifacts).sink.inner.issues span).toJson) :=
    Report.legible_mask hlegible
  exact Json.legible_sorted hlegibleMask

/-- What is recorded is read back as it was recorded. -/
theorem recorded_of_text (hv : x.report t span fixtures = .ok v)
    (htext : t'.text (fixtures.join ⟨x.expected⟩) = .ok (v.pretty ++ "\n")) :
    x.recorded t' fixtures = .ok v := by
  have hgap : ∀ c ∈ ['\n'], Json.isGap c = true := List.forall_mem_singleton.mpr rfl
  have hparse : Json.parse? (v.pretty ++ "\n") = some v :=
    Json.parse?_pretty_append (legible_report hv) hgap
  refine recorded_eq_ok.mpr ⟨_, htext, v, hparse, ?_⟩
  obtain ⟨result, -, rfl⟩ := report_eq_ok.mp hv
  rw [Json.sorted_sorted, Report.sorted_mask_eq_iff result.report.isEnvelope_toJson,
    Json.differAtMost_sorted_right]
  have hmasks : Json.Masks IsVolatile Report.markAt result.report.toJson
      (mask result.report.toJson) :=
    Report.masks_mask result.report.isEnvelope_toJson
  exact hmasks.differAtMost

/-- A record is up to date as long as it and what it is about are unchanged. -/
theorem upToDate_of_text (ht : t.root.isProper = true) (hv : x.report t span fixtures = .ok v)
    (hsame : (x.lint fixtures).Unchanged t t')
    (htext : t'.text (fixtures.join ⟨x.expected⟩) = .ok (v.pretty ++ "\n")) :
    x.UpToDate t' span' fixtures :=
  upToDate_iff.mpr ⟨v, report_unchanged ht hsame hv span', recorded_of_text hv htext⟩

-- Stated here because the equation that comes with the definition takes too long to check.
theorem update_cons (span : Span) (fixtures : Path) (p : Progress) (x : Golden)
    (rest : List Golden) : update span fixtures p (x :: rest) =
      match x.report p.tree span fixtures with
      | .error chain => (p, some chain)
      | .ok v =>
        match p.tree.write (fixtures.join ⟨x.expected⟩) (Text.toBytes (v.pretty ++ "\n")) with
        | .error e => (p, some [s!"write {(fixtures.join ⟨x.expected⟩).text}", e.message])
        | .ok tree =>
          update span fixtures { p with tree, output := p.output ++ [s!"Updated {x.expected}"] }
            rest := by
  rfl

/-- To record one report is to write it. -/
theorem update_singleton_eq_none {p : Progress}
    (h : update span fixtures { tree := t } [x] = (p, none)) :
    ∃ v, x.report t span fixtures = .ok v ∧
      t.write (fixtures.join ⟨x.expected⟩) (Text.toBytes (v.pretty ++ "\n")) = .ok p.tree := by
  rw [update_cons] at h
  cases hreport : x.report t span fixtures with
  | error chain =>
    rw [hreport] at h
    cases h
  | ok v =>
    rw [hreport] at h
    dsimp only at h
    cases hwrite : t.write (fixtures.join ⟨x.expected⟩) (Text.toBytes (v.pretty ++ "\n")) with
    | error e =>
      rw [hwrite] at h
      cases h
    | ok t' =>
      rw [hwrite] at h
      cases h
      exact ⟨v, rfl, hwrite⟩

/-- The report that is recorded; there is only one. -/
def cleanReport : Golden :=
  ⟨"rules/baseline.xml", "flows/clean", "expected/clean.report.json"⟩

theorem goldens_eq : goldens = [cleanReport] :=
  rfl

/-- A successful update has written the report that was made. -/
theorem write_of_executeUpdate (h : (executeUpdate t span fixtures).code = 0) :
    ∃ v, cleanReport.report t span fixtures = .ok v ∧
      t.write (fixtures.join ⟨cleanReport.expected⟩) (Text.toBytes (v.pretty ++ "\n")) =
        .ok (executeUpdate t span fixtures).tree := by
  rw [executeUpdate, goldens_eq] at h ⊢
  generalize hp : update span fixtures { tree := t } [cleanReport] = outcome at h ⊢
  obtain ⟨p, _ | chain⟩ := outcome
  · exact update_singleton_eq_none hp
  · cases h

/-! ## Recording changes nothing else -/

theorem names_of_locate_join {p q : Path} (hq : q.isAbsolute = false) {found : Located}
    (h : t.locate (p.join q) = .ok found) :
    found.names = q.course.foldl Tree.move (p.components.foldl Tree.move t.current) := by
  rw [Tree.names_of_locate h]
  rcases Path.components_join_cases (p := p) hq with heq | ⟨hnil, heq⟩
  · rw [heq, List.foldl_append]
  · rw [heq, hnil]
    rfl

/-- The artifacts and the record lie in different folders. -/
theorem not_prefix_record {found : Located} {n : Node} (hcurrent : t'.current = t.current)
    (hflows : t.locate (fixtures.join ⟨cleanReport.flows⟩) = .ok found)
    (hrecord : t'.locate (fixtures.join ⟨cleanReport.expected⟩) = .ok ⟨place, n⟩) :
    ¬ found.names <+: place := by
  have hflows := names_of_locate_join (by decide) hflows
  have hrecord := names_of_locate_join (by decide) hrecord
  have hcourse : Path.course ⟨cleanReport.flows⟩ = [.normal "flows", .normal "clean"] := by
    with_unfolding_all rfl
  have hcourse' : Path.course ⟨cleanReport.expected⟩ =
      [.normal "expected", .normal "clean.report.json"] := by
    with_unfolding_all rfl
  rw [hcurrent, hcourse'] at hrecord
  rw [hcourse] at hflows
  dsimp only [List.foldl_cons, List.foldl_nil, Tree.move] at hflows hrecord
  rw [hflows, hrecord, List.append_assoc, List.append_assoc, List.prefix_append_right_inj]
  decide

theorem exists_locate_of_isDirectory {p : Path} (h : t.isDirectory p = true) :
    ∃ found, t.locate p = .ok found := by
  rw [Tree.isDirectory] at h
  cases hl : t.locate p with
  | error e =>
    rw [hl] at h
    cases h
  | ok found => exact ⟨found, rfl⟩

/-- What a recorded report is about is unchanged by the record. -/
theorem unchanged_of_executeUpdate (h : (executeUpdate t span fixtures).code = 0)
    (hapart : cleanReport.Apart t (executeUpdate t span fixtures).tree fixtures) :
    (cleanReport.lint fixtures).Unchanged t (executeUpdate t span fixtures).tree := by
  obtain ⟨v, hv, hwrite⟩ := write_of_executeUpdate h
  obtain ⟨place, hwrote, hrecord⟩ := Tree.wrote_of_write hwrite
  obtain ⟨result, hrun, -⟩ := report_eq_ok.mp hv
  obtain ⟨file, hfile, artifacts, hartifacts, -⟩ := run_eq_ok.mp hrun
  constructor
  · obtain ⟨start, -, hstart, -⟩ := RulesFile.load_eq_ok_iff.mp hfile
    have hlocate : (Source.ofTree (executeUpdate t span fixtures).tree).locate
        (cleanReport.lint fixtures).rules = .ok start :=
      RulesFile.locate_of_wrote hwrote hstart
    refine ⟨start, hstart, hlocate,
      RulesFile.kept_of_wrote hwrote fun p hp n hn => hapart start p hstart hp ?_⟩
    rw [hn, hrecord, Bundle.located_eq_of_names hn hrecord rfl]
  · intro d hd
    obtain rfl := List.mem_singleton.mp hd
    obtain ⟨directories, -, hdirectories, -⟩ := Bundle.loadArtifacts_eq_ok.mp hartifacts
    have hdirectory := (Bundle.discoverAll_eq_ok.mp hdirectories).1 _ (List.mem_singleton_self _)
    obtain ⟨found, hfound⟩ := exists_locate_of_isDirectory hdirectory
    obtain ⟨n, hn, hnode⟩ := hwrote.locate hfound
    have hsame := hnode (not_prefix_record hwrote.current hfound hrecord)
    exact ⟨_, _, found.node, hfound, hsame ▸ hn⟩

/-- The records in a tree are what an update has written, and what they are about has been the same
since. -/
structure Recorded (t t' : Tree) (span : Span) (fixtures : Path) : Prop where
  succeeded : (executeUpdate t span fixtures).code = 0
  record : ∀ x ∈ goldens, t'.text (fixtures.join ⟨x.expected⟩) =
    (executeUpdate t span fixtures).tree.text (fixtures.join ⟨x.expected⟩)
  unchanged : ∀ x ∈ goldens, (x.lint fixtures).Unchanged t t'

/-- What has been recorded is accepted. -/
theorem code_executeCompare_recorded (ht : t.root.isProper = true)
    (h : Recorded t t' span fixtures) (span' : Span) :
    (executeCompare t' span' fixtures).code = 0 := by
  obtain ⟨v, hv, hwrite⟩ := write_of_executeUpdate h.succeeded
  rw [code_executeCompare]
  intro x hx
  obtain rfl : x = cleanReport := List.mem_singleton.mp (goldens_eq ▸ hx)
  have hunchanged : (cleanReport.lint fixtures).Unchanged t t' := h.unchanged _ hx
  refine upToDate_of_text ht hv hunchanged ?_
  rw [h.record _ hx]
  exact Tree.text_of_write hwrite

/-- **Recorded reports**: masking is idempotent and leaves out of account what may change from run
to run, and nothing else. So a comparison succeeds exactly if all records are up to date, at
whatever time it is made and whatever version made the record; and it accepts what was recorded as
long as what the records are about is unchanged, and so right after recording, unless the rules
lead to a record. -/
theorem goldenReports_compared :
    (∀ v, mask (mask v) = mask v) ∧
    (∀ v w, IsEnvelope v → (mask v.sorted = mask w.sorted ↔ DifferAtMost IsVolatile v w)) ∧
    (∀ (r : Report) span version, mask (r.rerun span version).toJson = mask r.toJson) ∧
    (∀ t span fixtures, ((executeCompare t span fixtures).code = 0 ↔
        ∀ x ∈ goldens, x.UpToDate t span fixtures) ∧
      ∀ span', executeCompare t span' fixtures = executeCompare t span fixtures) ∧
    ∀ t span fixtures, t.root.isProper = true →
      (∀ t' span', Recorded t t' span fixtures → (executeCompare t' span' fixtures).code = 0) ∧
      ((executeUpdate t span fixtures).code = 0 →
        (∀ x ∈ goldens, x.Apart t (executeUpdate t span fixtures).tree fixtures) →
        Recorded t (executeUpdate t span fixtures).tree span fixtures) := by
  have hsame : ∀ v w, IsEnvelope v →
      (mask v.sorted = mask w.sorted ↔ DifferAtMost IsVolatile v w) :=
    fun v w hv => Report.mask_sorted_eq_iff hv
  refine ⟨Report.mask_mask, hsame, Report.mask_rerun,
    fun t span fixtures => ⟨code_executeCompare, fun span' => executeCompare_at t span span' _⟩,
    fun t span fixtures ht => ⟨fun t' span' h => code_executeCompare_recorded ht h span', ?_⟩⟩
  intro h hapart
  refine ⟨h, fun _ _ => rfl, fun x hx => ?_⟩
  obtain rfl := List.mem_singleton.mp (goldens_eq ▸ hx)
  exact unchanged_of_executeUpdate h (hapart _ hx)

/-- A project with one artifact, and a place for the report. -/
def project : Tree :=
  { root := .directory [("fixtures", .directory [
      ("expected", .directory []),
      ("flows", .directory [("clean", Bundle.flowDirectory "B")]),
      ("rules", .directory [("baseline.xml", .file (Text.toBytes Bundle.rulesText))])])] }

theorem summary_flowArtifact :
    (runOf flowRules [Bundle.flowArtifact "B"]).summary = .ok ⟨1, 1⟩ := by
  decide +kernel

theorem loadArtifacts_project : Bundle.loadArtifacts project
    (cleanReport.lint ⟨"/fixtures"⟩).directories = .ok [Bundle.flowArtifact "B"] := by
  have hdirectories : (cleanReport.lint ⟨"/fixtures"⟩).directories =
      [⟨"/fixtures/flows/clean"⟩] := by
    with_unfolding_all rfl
  have hl : project.locate ⟨"/fixtures/flows/clean"⟩ =
      .ok ⟨["fixtures", "flows", "clean"], Bundle.flowDirectory "B"⟩ := by
    with_unfolding_all rfl
  rw [hdirectories]
  have hreadArtifact : Bundle.readArtifact project ⟨"/fixtures/flows/clean"⟩ =
      .ok (Bundle.flowArtifact "B") :=
    Bundle.readArtifact_flowDirectory hl (by with_unfolding_all rfl)
  exact Bundle.loadArtifacts_of_isArtifact hl (by with_unfolding_all rfl) hreadArtifact

/-- The place of the rules file. -/
def baseline : Path :=
  ⟨"/fixtures/rules/baseline.xml"⟩

theorem locate_baseline : (Source.ofTree project).locate (cleanReport.lint ⟨"/fixtures"⟩).rules =
    .ok baseline := by
  with_unfolding_all rfl

theorem text_baseline : (Source.ofTree project).text baseline = .ok Bundle.rulesText := by
  have hl : project.locate baseline =
      .ok ⟨["fixtures", "rules", "baseline.xml"], .file (Text.toBytes Bundle.rulesText)⟩ := by
    with_unfolding_all rfl
  have htext : project.text baseline = .ok Bundle.rulesText := Tree.text_of_locate hl
  exact RulesFile.text_ofTree.mpr htext

theorem code_executeUpdate_project (span : Span) :
    (executeUpdate project span ⟨"/fixtures"⟩).code = 0 := by
  have hload : RulesFile.load (Source.ofTree project) registry
      (cleanReport.lint ⟨"/fixtures"⟩).rules = .ok flowRules :=
    load_rulesText locate_baseline text_baseline
  obtain ⟨result, hrun, -⟩ := exists_run (l := cleanReport.lint ⟨"/fixtures"⟩) span
    hload loadArtifacts_project summary_flowArtifact
  have hreport := report_eq_ok.mpr ⟨result, hrun, rfl⟩
  obtain ⟨t', hwrite⟩ : ∃ t', project.write ((⟨"/fixtures"⟩ : Path).join ⟨cleanReport.expected⟩)
      (Text.toBytes ((mask result.report.toJson).sorted.pretty ++ "\n")) = .ok t' :=
    ⟨_, by with_unfolding_all rfl⟩
  rw [executeUpdate, goldens_eq, update_cons, hreport]
  dsimp only
  rw [hwrite]
  rfl

/-- The rules file has no imports. -/
theorem apart_project (t' : Tree) (hcurrent : t'.current = []) {n : Node}
    (hrecord : t'.locate ((⟨"/fixtures"⟩ : Path).join ⟨cleanReport.expected⟩) = .ok ⟨place, n⟩) :
    cleanReport.Apart project t' ⟨"/fixtures"⟩ := by
  intro start p hstart hreaches heq
  obtain rfl := Except.ok.inj (locate_baseline.symm.trans hstart)
  obtain rfl | ⟨q, himports, -⟩ := hreaches.cases_head
  · have hnames := Tree.names_of_locate hrecord
    have hnames' := Tree.names_of_locate (heq.trans hrecord)
    rw [hnames', hcurrent] at hnames
    revert hnames
    with_unfolding_all decide
  · have hdocument : RulesFile.document (Source.ofTree project) baseline = .ok rulesDocument :=
      document_rulesText text_baseline
    obtain ⟨r, hr, -⟩ := (RulesFile.imports_iff hdocument).mp himports
    rw [imports_rulesDocument] at hr
    exact absurd hr List.not_mem_nil

/-- The report of the project is recorded and accepted, at whatever times; and two reports of
different times and versions are the same when masked. -/
theorem goldenReports_compared_project :
    (∀ span span', (executeCompare (executeUpdate project span ⟨"/fixtures"⟩).tree span'
      ⟨"/fixtures"⟩).code = 0) ∧
    let r : Report := ⟨tool, .epoch, .epoch, .pass, [], ⟨1, 0, 1, 1⟩⟩
    IsEnvelope r.toJson ∧ mask r.toJson.sorted = mask (r.rerun default "0.2.0").toJson.sorted := by
  obtain ⟨-, hiff, hmask, -, hupdate⟩ := goldenReports_compared
  constructor
  · intro span span'
    obtain ⟨hcompare, hrecorded⟩ := hupdate project span ⟨"/fixtures"⟩ (by with_unfolding_all rfl)
    have hcode := code_executeUpdate_project span
    refine hcompare _ span' (hrecorded hcode fun x hx => ?_)
    obtain rfl : x = cleanReport := List.mem_singleton.mp (goldens_eq ▸ hx)
    obtain ⟨v, -, hwrite⟩ := write_of_executeUpdate hcode
    obtain ⟨place, hwrote, hrecord⟩ := Tree.wrote_of_write hwrite
    exact apart_project _ hwrote.current hrecord
  · intro r
    have hdiffer := (Report.sorted_mask_eq_iff r.isEnvelope_toJson).mp
      (congrArg Json.sorted (hmask r default "0.2.0").symm)
    have hmask' : mask r.toJson.sorted = mask (r.rerun default "0.2.0").toJson.sorted :=
      (hiff _ _ r.isEnvelope_toJson).mpr hdiffer
    exact ⟨r.isEnvelope_toJson, hmask'⟩

end Command

end FlowLint

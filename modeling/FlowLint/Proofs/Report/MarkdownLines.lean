import FlowLint.Report.Markdown
import Mathlib.Data.List.Infix
import Mathlib.Data.List.TakeWhile

/-!
# Lines of a report in Markdown

The Markdown of a report is planned line by line: a header, and for each issue a bullet and, if it
names artifacts, one line with them. It is read here as lines, that is by its line breaks, and
compared with the plan. Messages never disturb it, since their breaks are replaced. Rule ids,
codes, artifacts and the note are pasted as they are, and every line break in one of them is one
more line than planned; without any, what is read is the plan.

How a reader of Markdown understands the lines is not looked at.
-/

namespace FlowLint

/-! ## Lines -/

/-- Whether a line ends at the character. -/
def isBreak (c : Char) : Bool :=
  c = '\r' ∨ c = '\n'

/-- The number of line breaks in a text. -/
def breaks (s : String) : Nat :=
  s.toList.countP isBreak

/-- The lines of a text. The last one is empty where the text ends with a break. -/
def linesOf (s : String) : List String :=
  (s.toList.splitOnP isBreak).map String.ofList

variable {s t : String} {texts : List String}

@[simp]
theorem breaks_append (s t : String) : breaks (s ++ t) = breaks s + breaks t := by
  rw [breaks, String.toList_append, List.countP_append]
  rfl

@[simp]
theorem breaks_empty : breaks "" = 0 :=
  rfl

@[simp] theorem breaks_join_cons (s : String) (texts : List String) :
    breaks (String.join (s :: texts)) = breaks s + breaks (String.join texts) := by
  rw [String.join_cons, breaks_append]

@[simp] theorem breaks_join_append (texts more : List String) :
    breaks (String.join (texts ++ more)) = breaks (String.join texts) + breaks (String.join more) := by
  induction texts with
  | nil => simp
  | cons s rest ih => rw [List.cons_append, breaks_join_cons, breaks_join_cons, ih, Nat.add_assoc]

/-- Joined texts hold no break exactly if none of them does. -/
@[simp]
theorem breaks_join_eq_zero : breaks (String.join texts) = 0 ↔ ∀ s ∈ texts, breaks s = 0 := by
  induction texts with
  | nil => simp
  | cons s rest ih => rw [breaks_join_cons, Nat.add_eq_zero_iff, ih, List.forall_mem_cons]

@[simp] theorem breaks_intercalate (texts : List String) :
    breaks (", ".intercalate texts) = breaks (String.join texts) := by
  induction texts with
  | nil => rfl
  | cons s rest ih =>
    cases rest with
    | nil => rw [String.intercalate_singleton, breaks_join_cons]; rfl
    | cons t rest =>
      have hseparator : breaks ", " = 0 := rfl
      simp [ih, hseparator]

@[simp] theorem breaks_toString (n : Nat) : breaks (toString n) = 0 := by
  refine List.countP_eq_zero.mpr fun c hc hbreak => ?_
  have hdigit : c.isDigit = true := by
    have hrepr : (toString n).toList = Nat.toDigits 10 n := Nat.toList_repr
    rw [hrepr] at hc
    exact Nat.isDigit_of_mem_toDigits (by decide) (by decide) hc
  rcases of_decide_eq_true hbreak with rfl | rfl <;> exact absurd hdigit (by decide)

@[simp] theorem length_linesOf (s : String) : (linesOf s).length = breaks s + 1 := by
  rw [linesOf, List.length_map, breaks]
  induction s.toList with
  | nil => rfl
  | cons c rest ih =>
    rw [List.splitOnP_cons_eq_if_modifyHead, List.countP_cons]
    by_cases hc : isBreak c = true
    · rw [if_pos hc, if_pos hc, List.length_cons, ih]
    · rw [if_neg hc, if_neg hc, List.length_modifyHead, ih, Nat.add_zero]

theorem linesOf_of_unbroken (h : breaks s = 0) : linesOf s = [s] := by
  have hnone : ∀ c ∈ s.toList, isBreak c = false := fun c hc =>
    Bool.eq_false_iff.mpr (List.countP_eq_zero.mp h c hc)
  rw [linesOf, List.splitOnP_eq_singleton hnone, List.map_singleton, String.ofList_toList]

theorem linesOf_line (s t : String) : linesOf (s ++ "\n" ++ t) = linesOf s ++ linesOf t := by
  have htext : (s ++ "\n" ++ t).toList = s.toList ++ '\n' :: t.toList := by
    rw [String.toList_append, String.toList_append, List.append_assoc]
    rfl
  rw [linesOf, htext, List.splitOnP_append_cons _ _ rfl, List.map_append]
  rfl

/-- Texts that each end in a break are split into their own lines and an empty one. -/
theorem linesOf_join (texts : List String) :
    linesOf (String.join (texts.map (· ++ "\n"))) = texts.flatMap linesOf ++ [""] := by
  induction texts with
  | nil => rfl
  | cons s rest ih =>
    rw [List.map_cons, String.join_cons, linesOf_line, ih, List.flatMap_cons, List.append_assoc]

theorem length_flatMap_linesOf (texts : List String) :
    (texts.flatMap linesOf).length = texts.length + breaks (String.join texts) := by
  induction texts with
  | nil => rfl
  | cons s rest ih =>
    rw [List.flatMap_cons, List.length_append, length_linesOf, ih, breaks_join_cons,
      List.length_cons]
    omega

theorem flatMap_linesOf (h : ∀ s ∈ texts, breaks s = 0) : texts.flatMap linesOf = texts := by
  rw [List.flatMap_congr fun s hs => linesOf_of_unbroken (h s hs)]
  exact List.flatMap_singleton' texts

/-! ## What is pasted -/

/-- The texts of an issue that are pasted as they are. -/
def ShownIssue.pasted (i : ShownIssue) : List String :=
  i.ruleId.toList ++ i.code :: i.artifacts

namespace View

variable {v : View} {i : ShownIssue}

/-- The texts of a report that are pasted as they are. -/
def pasted (v : View) : List String :=
  v.note.toList ++ v.issues.flatMap ShownIssue.pasted

/-- The lines as they are planned. -/
def planned (v : View) : List String :=
  v.header ++ v.bodyLines

@[simp] theorem breaks_oneLine (message : String) : breaks (oneLine message) = 0 := by
  refine List.countP_eq_zero.mpr fun c hc hbreak => ?_
  rw [oneLine, String.toList_ofList] at hc
  obtain ⟨d, -, rfl⟩ := List.mem_map.mp hc
  by_cases hd : d = '\r' ∨ d = '\n'
  · rw [if_pos hd] at hbreak
    exact absurd hbreak (by decide)
  · rw [if_neg hd] at hbreak
    exact hd (of_decide_eq_true hbreak)

/-- Literal texts between what is pasted have no breaks. -/
@[simp] theorem breaks_bullet (i : ShownIssue) :
    breaks (bullet i) = breaks (String.join (i.ruleId.toList ++ [i.code])) := by
  have hopen : breaks "- `" = 0 := rfl
  have hbetween : breaks "` / `" = 0 := rfl
  have hclose : breaks "`: " = 0 := rfl
  cases hrule : i.ruleId with
  | none => simp [bullet, hrule, hopen, hclose, toString]
  | some rule => simp [bullet, hrule, hopen, hbetween, hclose, toString]

/-- The breaks in the lines of an issue are those of what is pasted into them. -/
@[simp] theorem breaks_issueLines (i : ShownIssue) :
    breaks (String.join (issueLines i)) = breaks (String.join i.pasted) := by
  have hnamed : breaks (String.join (if i.artifacts.isEmpty then []
      else ["  - artifacts: " ++ ", ".intercalate i.artifacts])) =
      breaks (String.join i.artifacts) := by
    cases hartifacts : i.artifacts with
    | nil => rfl
    | cons a rest =>
      have hlead : breaks "  - artifacts: " = 0 := rfl
      rw [List.isEmpty_cons, if_neg Bool.false_ne_true, breaks_join_cons, breaks_append, hlead,
        breaks_intercalate]
      exact Nat.zero_add _
  have hpasted : i.pasted = (i.ruleId.toList ++ [i.code]) ++ i.artifacts := by
    rw [ShownIssue.pasted, List.append_assoc, List.singleton_append]
  rw [issueLines, breaks_join_cons, hnamed, breaks_bullet, hpasted,
    breaks_join_append (i.ruleId.toList ++ [i.code])]

@[simp] theorem breaks_header (v : View) :
    breaks (String.join v.header) = breaks (String.join v.note.toList) := by
  have hfixed : breaks (String.join ["# cpilint report", "",
      s!"- Verdict: **{verdictText v.verdict}**",
      s!"- Artifacts inspected: {v.artifactsInspected}", s!"- Issues: {v.issuesFound}", ""]) = 0 := by
    have hverdict : breaks s!"- Verdict: **{verdictText v.verdict}**" = 0 := by
      cases v.verdict <;> rfl
    have hinspected : breaks s!"- Artifacts inspected: {v.artifactsInspected}" = 0 := by
      rw [breaks_append, breaks_toString]
      rfl
    have hfound : breaks s!"- Issues: {v.issuesFound}" = 0 := by
      rw [breaks_append, breaks_toString]
      rfl
    rw [breaks_join_eq_zero]
    simp only [List.forall_mem_cons]
    exact ⟨rfl, rfl, hverdict, hinspected, hfound, rfl, nofun⟩
  rw [header, breaks_join_append, hfixed, Nat.zero_add]
  cases v.note with
  | none => rfl
  | some note =>
    have hlead : breaks "> Note: " = 0 := rfl
    simp [toString, String.join_cons, hlead]

theorem breaks_issues (issues : List ShownIssue) :
    breaks (String.join (issues.flatMap issueLines)) =
      breaks (String.join (issues.flatMap ShownIssue.pasted)) := by
  induction issues with
  | nil => rfl
  | cons i rest ih =>
    simp [ih]

/-- The breaks in the planned lines are those of what is pasted into them. -/
@[simp] theorem breaks_planned (v : View) :
    breaks (String.join v.planned) = breaks (String.join v.pasted) := by
  have hbody : breaks (String.join v.bodyLines) =
      breaks (String.join (v.issues.flatMap ShownIssue.pasted)) := by
    rw [bodyLines]
    cases v.issues with
    | nil => rfl
    | cons i rest =>
      have htitle : breaks (String.join ["## Issues", ""]) = 0 := rfl
      rw [List.isEmpty_cons, if_neg Bool.false_ne_true, breaks_join_append, htitle, Nat.zero_add,
        breaks_issues]
  simp [planned, pasted, hbody]

/-! ## The plan and what is read -/

/-- The document consists of the planned lines, cut at the breaks pasted into them. -/
theorem linesOf_markdown (v : View) : linesOf v.markdown = v.planned.flatMap linesOf ++ [""] :=
  linesOf_join v.planned

theorem length_linesOf_markdown (v : View) :
    (linesOf v.markdown).length = v.planned.length + breaks (String.join v.pasted) + 1 := by
  rw [linesOf_markdown, List.length_append, length_flatMap_linesOf, breaks_planned,
    List.length_singleton]

/-- The document has the planned lines exactly if nothing that is pasted holds a break. -/
theorem linesOf_markdown_iff (v : View) :
    linesOf v.markdown = v.planned ++ [""] ↔ ∀ s ∈ v.pasted, breaks s = 0 := by
  rw [← breaks_join_eq_zero]
  constructor
  · intro h
    have hlength := length_linesOf_markdown v
    rw [h, List.length_append, List.length_singleton] at hlength
    omega
  · intro h
    rw [← breaks_planned, breaks_join_eq_zero] at h
    rw [linesOf_markdown, flatMap_linesOf h]

/-- How many lines are planned depends on how many issues there are and name artifacts, and on
whether there is a note. -/
theorem length_planned (v : View) :
    v.planned.length = 6 + 2 * v.note.toList.length +
      if v.issues = [] then 1
      else 2 + v.issues.length + v.issues.countP (fun i => i.artifacts ≠ []) := by
  have hheader : v.header.length = 6 + 2 * v.note.toList.length := by
    rw [header, List.length_append]
    cases v.note <;> rfl
  have hissues : ∀ issues : List ShownIssue, (issues.flatMap issueLines).length =
      issues.length + issues.countP (fun i => i.artifacts ≠ []) := by
    intro issues
    induction issues with
    | nil => rfl
    | cons i rest ih =>
      rw [List.flatMap_cons, List.length_append, ih, List.countP_cons, List.length_cons, issueLines]
      cases i.artifacts with
      | nil => simp; omega
      | cons a more => simp; omega
  rw [planned, List.length_append, hheader, bodyLines]
  cases hv : v.issues with
  | nil => rfl
  | cons i rest =>
    rw [List.isEmpty_cons, if_neg Bool.false_ne_true, if_neg (List.cons_ne_nil i rest),
      List.length_append, hissues, ← Nat.add_assoc ["## Issues", ""].length]
    rfl

/-- An issue without breaks in its own texts is shown as planned, whatever the others hold. -/
theorem issueLines_infix (hi : i ∈ v.issues) (h : ∀ s ∈ i.pasted, breaks s = 0) :
    issueLines i <:+: linesOf v.markdown := by
  obtain ⟨before, after, hsplit⟩ := List.append_of_mem hi
  have hown : (issueLines i).flatMap linesOf = issueLines i := by
    rw [← breaks_join_eq_zero, ← breaks_issueLines, breaks_join_eq_zero] at h
    exact flatMap_linesOf h
  have hbody : v.bodyLines = ["## Issues", ""] ++ before.flatMap issueLines ++ issueLines i ++
      after.flatMap issueLines := by
    rw [bodyLines, if_neg (by simp [hsplit]), hsplit]
    simp [List.flatMap_append]
  refine ⟨(v.header ++ ["## Issues", ""] ++ before.flatMap issueLines).flatMap linesOf,
    (after.flatMap issueLines).flatMap linesOf ++ [""], ?_⟩
  rw [linesOf_markdown, planned, hbody]
  simp only [List.flatMap_append, List.append_assoc, hown]

end View

/-! ## Reports -/

/-- No line break gets from an issue into the Markdown of its report. -/
structure Issue.Unbroken (i : Issue) : Prop where
  rule : ∀ id, i.ruleId = some id → breaks id = 0
  code : ∀ code data, i.detail = .extension code data → breaks code = 0
  tags : ∀ t ∈ i.tags, breaks t.name = 0 ∧ breaks t.id = 0

/-- The codes of built-in issues have no breaks. -/
theorem breaks_code (d : Detail) :
    breaks d.code = 0 ↔ ∀ code data, d = .extension code data → breaks code = 0 := by
  cases d with
  | extension code data =>
    refine ⟨fun h code' data' heq => ?_, fun h => h code data rfl⟩
    rw [← (Detail.extension.inj heq).1]
    exact h
  | _ =>
    refine iff_of_true ?_ nofun
    simp only [Detail.code]
    rfl

@[simp] theorem breaks_display (t : Flow.Tag) :
    breaks t.display = 0 ↔ breaks t.name = 0 ∧ breaks t.id = 0 := by
  have hquote : breaks "'" = 0 := rfl
  have hid : breaks "' (ID '" = 0 := rfl
  have hclose : breaks "')" = 0 := rfl
  by_cases h : t.name = t.id
  · simp [Flow.Tag.display, h, toString, hquote]
  · simp [Flow.Tag.display, h, toString, hquote, hid, hclose]

theorem unbroken_iff (i : Issue) : (∀ s ∈ i.shown.pasted, breaks s = 0) ↔ i.Unbroken := by
  have hpasted : i.shown.pasted = i.ruleId.toList ++ i.detail.code :: i.tags.map (·.display) := rfl
  rw [hpasted, List.forall_mem_append, List.forall_mem_cons, List.forall_mem_map, breaks_code]
  simp only [Option.mem_toList, breaks_display]
  constructor
  · rintro ⟨hrule, hcode, htags⟩
    exact ⟨hrule, hcode, htags⟩
  · rintro ⟨hrule, hcode, htags⟩
    exact ⟨hrule, hcode, htags⟩

/-- Nothing pasted from a report holds a break exactly if no issue does. -/
theorem view_pasted_iff (r : Report) :
    (∀ s ∈ r.view.pasted, breaks s = 0) ↔ ∀ i ∈ r.issues, i.Unbroken := by
  have hpasted : r.view.pasted = r.issues.flatMap fun i => i.shown.pasted := by
    rw [View.pasted, Report.view, List.flatMap_map]
    rfl
  have hof : ∀ s, s ∈ r.view.pasted ↔ ∃ i ∈ r.issues, s ∈ i.shown.pasted := by
    intro s
    rw [hpasted, List.mem_flatMap]
  constructor
  · intro hnone i hi
    refine (unbroken_iff i).mp fun s hs => ?_
    have hmem : s ∈ r.view.pasted := (hof s).mpr ⟨i, hi, hs⟩
    exact hnone s hmem
  · intro hunbroken s hmem
    obtain ⟨i, hi, hs⟩ := (hof s).mp hmem
    have hissue : ∀ s ∈ i.shown.pasted, breaks s = 0 := (unbroken_iff i).mpr (hunbroken i hi)
    exact hissue s hs

/-- The lines of the Markdown of what is shown, compared with the plan. -/
structure MarkdownLines (v : View) : Prop where
  planned : v.planned.length = 6 + 2 * v.note.toList.length +
    if v.issues = [] then 1
    else 2 + v.issues.length + v.issues.countP (fun i => i.artifacts ≠ [])
  read : linesOf v.markdown = v.planned.flatMap linesOf ++ [""]
  count : (linesOf v.markdown).length = v.planned.length + breaks (String.join v.pasted) + 1
  exact : linesOf v.markdown = v.planned ++ [""] ↔ ∀ s ∈ v.pasted, breaks s = 0
  issues : ∀ i ∈ v.issues, (∀ s ∈ i.pasted, breaks s = 0) →
    View.issueLines i <:+: linesOf v.markdown

/-- The Markdown of a report has the planned lines, and one more for each line break in a rule id,
the code of an extension, a tag or the note. Breaks in messages count for nothing. -/
theorem markdown_lines (v : View) (r : Report) :
    MarkdownLines v ∧
      (linesOf r.view.markdown = r.view.planned ++ [""] ↔ ∀ i ∈ r.issues, i.Unbroken) := by
  have hlines : MarkdownLines v :=
    { planned := v.length_planned
      read := v.linesOf_markdown
      count := v.length_linesOf_markdown
      exact := v.linesOf_markdown_iff
      issues := fun _ hi h => View.issueLines_infix hi h }
  have hexact : linesOf r.view.markdown = r.view.planned ++ [""] ↔ ∀ i ∈ r.issues, i.Unbroken := by
    rw [r.view.linesOf_markdown_iff, view_pasted_iff]
  exact ⟨hlines, hexact⟩

/-! ## Breaks that are pasted -/

/-- One issue whose rule id, and the name of whose artifact, go on in another line. -/
def twoLined : View :=
  { verdict := .fail
    issues := [⟨some "r1\n- `fake", "missing_description", "no\ndescription",
      ["'Orders'\n## Nothing else (ID 'O')"]⟩]
    artifactsInspected := 1
    issuesFound := 1 }

/-- One bullet and one line of artifacts are planned, and four lines are read. -/
theorem markdown_twoLined :
    twoLined.planned.drop 8 =
        ["- `r1\n- `fake` / `missing_description`: no description",
          "  - artifacts: 'Orders'\n## Nothing else (ID 'O')"] ∧
      (linesOf twoLined.markdown).drop 8 =
        ["- `r1", "- `fake` / `missing_description`: no description", "  - artifacts: 'Orders'",
          "## Nothing else (ID 'O')", ""] := by
  rw [View.linesOf_markdown]
  decide +kernel

end FlowLint

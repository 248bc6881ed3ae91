import FlowLint.Report.Annotation
import FlowLint.Proofs.Report.MarkdownLines

/-!
# Annotations are read back

A build service takes each line of output for itself. A line that begins with two colons is a
command: its name goes up to the next two colons, and in the text behind them three escapes stand
for a percent sign and for the two characters that end a line. Read like this, the annotations of
a report give back its first issues in order, each with all of its text, and then the number of
those that are left out. A text can hold anything, colons, escapes and line breaks among them.

Parameters, which a command could have between its name and the colons, are never written and
are not told apart from the name here.
-/

namespace FlowLint

/-- A command with its text. -/
structure Announcement where
  command : String
  text : String
deriving DecidableEq

namespace Annotation

/-! ## Reading a line -/

/-- Characters with each escape replaced by what it stands for, from left to right. -/
def unescapeChars : List Char → List Char
  | '%' :: '2' :: '5' :: rest => '%' :: unescapeChars rest
  | '%' :: '0' :: 'D' :: rest => '\r' :: unescapeChars rest
  | '%' :: '0' :: 'A' :: rest => '\n' :: unescapeChars rest
  | c :: rest => c :: unescapeChars rest
  | [] => []

/-- What stands before and after the first two colons. -/
def splitAtColons? : List Char → Option (List Char × List Char)
  | ':' :: ':' :: rest => some ([], rest)
  | c :: rest => (splitAtColons? rest).map fun (before, after) => (c :: before, after)
  | [] => none

/-- The command that a line is. -/
def read? (line : String) : Option Announcement :=
  match line.toList with
  | ':' :: ':' :: rest =>
    (splitAtColons? rest).map fun parts =>
      ⟨String.ofList parts.1, String.ofList (unescapeChars parts.2)⟩
  | _ => none

/-- Whether a line is read as the command with a name. -/
def isCommand (name : String) (read : Option Announcement) : Bool :=
  read.any (·.command = name)

/-! ## Escapes -/

variable {c : Char} {cs : List Char}

theorem unescapeChars_of_ne (h : c ≠ '%') (cs : List Char) :
    unescapeChars (c :: cs) = c :: unescapeChars cs := by
  rw [unescapeChars] <;> intros <;> contradiction

/-- An escape is undone whatever follows it. -/
@[simp] theorem unescapeChars_escapeChar (c : Char) (cs : List Char) :
    unescapeChars (escapeChar c ++ cs) = c :: unescapeChars cs := by
  rw [escapeChar]
  split_ifs with hpercent hreturn hfeed
  · rw [hpercent]
    rfl
  · rw [hreturn]
    rfl
  · rw [hfeed]
    rfl
  · exact unescapeChars_of_ne hpercent cs

/-- Escaping is undone, whatever the text looks like. -/
@[simp] theorem unescapeChars_escape (s : String) : unescapeChars (escape s).toList = s.toList := by
  rw [escape, Text.toList_escapeBy]
  induction s.toList with
  | nil => rfl
  | cons c cs ih => rw [List.flatMap_cons, unescapeChars_escapeChar, ih]

theorem isBreak_of_mem_escapeChar {d : Char} (hd : d ∈ escapeChar c) : isBreak d = false := by
  have hwritten : ∀ cs : List Char, cs.any isBreak = false → d ∈ cs → isBreak d = false := by
    intro cs hcs hd
    rw [← Bool.not_eq_true]
    exact List.any_eq_false.mp hcs d hd
  rw [escapeChar] at hd
  split_ifs at hd with hpercent hreturn hfeed
  · exact hwritten ['%', '2', '5'] (by decide) hd
  · exact hwritten ['%', '0', 'D'] (by decide) hd
  · exact hwritten ['%', '0', 'A'] (by decide) hd
  · rw [List.mem_singleton.mp hd]
    exact decide_eq_false (not_or.mpr ⟨hreturn, hfeed⟩)

@[simp] theorem breaks_escape (s : String) : breaks (escape s) = 0 := by
  refine List.countP_eq_zero.mpr fun d hd => ?_
  rw [escape, Text.toList_escapeBy] at hd
  obtain ⟨c, -, hd⟩ := List.mem_flatMap.mp hd
  rw [Bool.not_eq_true _]
  exact isBreak_of_mem_escapeChar hd

/-! ## Escaping step by step -/

/-- A text with each occurrence of one character replaced. -/
def replaceChar (c : Char) (new : List Char) (cs : List Char) : List Char :=
  cs.flatMap fun d => if d = c then new else [d]

/-- Escaping in one pass is replacing one character after the other, if the percent sign is the
first: it stands in the escapes of the others. -/
theorem toList_escape (s : String) :
    (escape s).toList = replaceChar '\n' ['%', '0', 'A']
      (replaceChar '\r' ['%', '0', 'D'] (replaceChar '%' ['%', '2', '5'] s.toList)) := by
  rw [escape, Text.toList_escapeBy, replaceChar, replaceChar, replaceChar, List.flatMap_assoc,
    List.flatMap_assoc]
  refine List.flatMap_congr fun c _ => ?_
  rw [escapeChar]
  split_ifs with hpercent hreturn hfeed
  · rfl
  · subst hreturn
    rfl
  · subst hfeed
    rfl
  · simp [hreturn, hfeed]

/-! ## Lines -/

/-- The command ends at the first two colons. -/
theorem splitAtColons?_append (before after : List Char) (h : ':' ∉ before) :
    splitAtColons? (before ++ ':' :: ':' :: after) = some (before, after) := by
  induction before with
  | nil => rfl
  | cons c rest ih =>
    obtain ⟨hc, hrest⟩ := not_or.mp (mt List.mem_cons.mpr h)
    rw [List.cons_append, splitAtColons?]
    · rw [ih hrest]
      rfl
    · rintro rest' rfl
      exact absurd rfl hc

/-- A command is read back with its text, however the text begins. -/
theorem read?_escape (name text : String) (h : ':' ∉ name.toList) :
    read? ("::" ++ name ++ "::" ++ escape text) = some ⟨name, text⟩ := by
  have hline : ("::" ++ name ++ "::" ++ escape text).toList =
      ':' :: ':' :: (name.toList ++ ':' :: ':' :: (escape text).toList) := by
    simp
  rw [read?, hline]
  change (splitAtColons? _).map _ = _
  simp [splitAtColons?_append _ _ h]

@[simp] theorem read?_error (i : ShownIssue) : read? (error i) = some ⟨"error", message i⟩ :=
  read?_escape "error" (message i) (by decide)

example : read? (error ⟨none, "x", "100%0A\n::error::no", ["'A'"]⟩) =
    some ⟨"error", "[cpilint:x] 100%0A\n::error::no (artifacts: 'A')"⟩ := by decide +kernel

@[simp] theorem read?_notice (note : String) : read? (notice note) = some ⟨"notice", note⟩ :=
  read?_escape "notice" note (by decide)

@[simp] theorem breaks_error (i : ShownIssue) : breaks (error i) = 0 := by
  have hlead : breaks "::error::" = 0 := rfl
  simp [error, hlead]

@[simp] theorem breaks_notice (note : String) : breaks (notice note) = 0 := by
  have hlead : breaks "::notice::" = 0 := rfl
  simp [notice, hlead]

end Annotation

/-! ## Reports -/

open Annotation

/-- What is said of an issue: the rule or the tool, the code, the message, and the artifacts. -/
def Issue.announced (i : Issue) : String :=
  "[" ++ i.ruleId.getD "cpilint" ++ ":" ++ i.detail.code ++ "] " ++ i.message ++
    " (artifacts: " ++ ", ".intercalate (i.tags.map (·.display)) ++ ")"

/-- Artifacts are always named, since no issue is about nothing. -/
@[simp] theorem message_shown (i : Issue) : message i.shown = i.announced := by
  have hartifacts : (i.tags.map (·.display)).isEmpty = false := by
    rw [List.isEmpty_eq_false_iff, ne_eq, List.map_eq_nil_iff]
    exact i.tags_ne_nil
  rw [message, Issue.shown, Issue.announced]
  dsimp only
  rw [hartifacts, if_neg Bool.false_ne_true]
  simp only [toString, String.append_assoc]

/-- What the annotations of a report are read as if at most `limit` issues are annotated. -/
structure Announces (r : Report) (limit : Nat) (lines : List String) : Prop where
  read : lines.map read? =
    ((r.issues.take limit).map fun i => some ⟨"error", i.announced⟩) ++
      if limit < r.issues.length then
        [some ⟨"notice", toString (r.issues.length - limit) ++ " more issue(s) not annotated"⟩]
      else []
  errors : (lines.map read?).countP (isCommand "error") = min r.issues.length limit
  length : lines.length = min r.issues.length limit + if limit < r.issues.length then 1 else 0
  unbroken : ∀ line ∈ lines, breaks line = 0

/-- What is written: a line for each of the first issues, and one for the number of the others. -/
theorem annotationsUpTo_view (r : Report) (limit : Nat) :
    r.view.annotationsUpTo limit = (r.issues.take limit).map (fun i => error i.shown) ++
      if limit < r.issues.length then
        [notice (toString (r.issues.length - limit) ++ " more issue(s) not annotated")]
      else [] := by
  have hissues : r.view.issues = r.issues.map Issue.shown := rfl
  have hnote : r.view.note = none := rfl
  rw [View.annotationsUpTo, View.annotations, View.truncated]
  simp only [hissues, hnote, List.length_map, ← List.map_take, List.map_map]
  congr 1
  by_cases h : limit < r.issues.length
  · rw [if_pos h, if_neg (by omega)]
    rfl
  · rw [if_neg h, if_pos (by omega)]
    rfl

/-- The lines read back are the first issues and, if some are left out, the notice. -/
theorem map_read?_annotations (r : Report) (limit : Nat) :
    (r.view.annotationsUpTo limit).map read? =
      ((r.issues.take limit).map fun i => some ⟨"error", i.announced⟩) ++
        if limit < r.issues.length then
          [some ⟨"notice", toString (r.issues.length - limit) ++ " more issue(s) not annotated"⟩]
        else [] := by
  have herror : (read? ∘ fun i : Issue => error i.shown) =
      fun i => some ⟨"error", i.announced⟩ := funext fun i => by
    simp
  rw [annotationsUpTo_view, List.map_append, List.map_map, herror]
  split
  · rw [List.map_singleton, read?_notice]
  · rfl

/-- **Annotations are read back**: the first issues in order, with all of their texts, and then how
many are left out, if any are. -/
theorem annotations_readBack (r : Report) (limit : Nat) :
    Announces r limit (r.view.annotationsUpTo limit) := by
  have hread := map_read?_annotations r limit
  have hlimit : (r.issues.take limit).length = min r.issues.length limit := by
    rw [List.length_take, Nat.min_comm]
  refine { read := hread, errors := ?_, length := ?_, unbroken := ?_ }
  · have herrors : ((r.issues.take limit).map fun i =>
        some (⟨"error", i.announced⟩ : Announcement)).countP (isCommand "error") =
        (r.issues.take limit).length := by
      rw [List.countP_map]
      exact List.countP_eq_length.mpr fun _ _ => by simp [isCommand]
    rw [hread, List.countP_append, herrors, hlimit]
    split <;> rfl
  · rw [← List.length_map (f := read?), hread, List.length_append, List.length_map, hlimit]
    split <;> rfl
  · rw [annotationsUpTo_view, List.forall_mem_append, List.forall_mem_map]
    refine ⟨fun i _ => breaks_error i.shown, ?_⟩
    split
    · have hbreaks : breaks
          (notice (toString (r.issues.length - limit) ++ " more issue(s) not annotated")) = 0 :=
        breaks_notice _
      exact List.forall_mem_singleton.mpr hbreaks
    · nofun

end FlowLint

import FlowLint.Proofs.Markup.Contents

/-!
# Runs and tags

Cutting takes one character at a time, so what it makes of a text is found by going through the
text. A run of text grows until a bracket ends it; a tag ends at the first bracket outside of
quotes. Places are left out: they do not decide what is cut.
-/

namespace FlowLint.Markup

/-! ## Runs -/

/-- The lexemes of the rest of a text, without their places. -/
def cut (mode : Mode) : List Char → List Lexeme
  | [] => mode.finish.toList
  | c :: cs =>
    match mode.step c with
    | (mode', none) => cut mode' cs
    | (mode', some lexeme) => if lexeme.isBroken then [lexeme] else lexeme :: cut mode' cs

/-- Where a lexeme starts has no influence on what it is. -/
theorem map_scan (mode : Mode) (start offset : Nat) (cs : List Char) :
    (Lexeme.scan mode start offset cs).map (·.2) = cut mode cs := by
  induction cs generalizing mode start offset with
  | nil =>
    rw [Lexeme.scan, cut]
    cases mode.finish <;> rfl
  | cons c cs ih =>
    rw [Lexeme.scan, cut]
    rcases mode.step c with ⟨mode', _ | lexeme⟩
    · exact ih ..
    · dsimp only
      split
      · rfl
      · rw [List.map_cons, ih]

theorem pieces_eq_cut (text : String) : pieces text = cut (.text []) (dropMark text.toList) :=
  map_scan ..

theorem cut_on {mode mode' : Mode} {c : Char} (h : mode.step c = (mode', none)) (rest : List Char) :
    cut mode (c :: rest) = cut mode' rest := by
  rw [cut, h]

theorem cut_found {mode mode' : Mode} {c : Char} {lexeme : Lexeme}
    (h : mode.step c = (mode', some lexeme)) (hwhole : lexeme.isBroken = false) (rest : List Char) :
    cut mode (c :: rest) = lexeme :: cut mode' rest := by
  rw [cut, h]
  simp only [hwhole, Bool.false_eq_true, ↓reduceIte]

/-- The lexeme of a run of text, if there is one. -/
def flush (raw : List Char) : List Lexeme :=
  (Lexeme.ofText? raw).toList

/-- Up to the next bracket everything is one text. -/
theorem cut_run {raw : List Char} (h : ∀ c ∈ raw, c ≠ '<') (read rest : List Char) :
    cut (.text read) (raw ++ rest) = cut (.text (raw.reverse ++ read)) rest := by
  induction raw generalizing read with
  | nil => rfl
  | cons c raw ih =>
    obtain ⟨hc, hraw⟩ := List.forall_mem_cons.mp h
    have hstep : Mode.step (.text read) c = (.text (c :: read), none) := if_neg hc
    rw [List.cons_append, cut_on hstep, ih hraw, List.reverse_cons, List.append_assoc,
      List.singleton_append]

@[simp] theorem cut_bracket (read rest : List Char) :
    cut (.text read) ('<' :: rest) = flush read.reverse ++ cut .bracket rest := by
  have hstep : Mode.step (.text read) '<' = (.bracket, Lexeme.ofText? read.reverse) := rfl
  by_cases hempty : read.reverse.isEmpty = true
  · rw [Lexeme.ofText?, if_pos hempty] at hstep
    rw [cut_on hstep, flush, Lexeme.ofText?, if_pos hempty]
    rfl
  · rw [Lexeme.ofText?, if_neg hempty] at hstep
    rw [cut_found hstep rfl, flush, Lexeme.ofText?, if_neg hempty]
    rfl

/-! ## Tags -/

/-- Characters between the brackets of a tag in which every quoted value is closed. -/
inductive IsClosed : List Char → Prop
  | nil : IsClosed []
  | plain {c : Char} {cs : List Char} :
    c ≠ '>' → c ≠ '"' → c ≠ '\'' → IsClosed cs → IsClosed (c :: cs)
  | quoted {q : Char} {raw cs : List Char} :
    q = '"' ∨ q = '\'' → (∀ c ∈ raw, c ≠ q) → IsClosed cs → IsClosed (q :: (raw ++ q :: cs))

theorem IsClosed.append {xs ys : List Char} (hxs : IsClosed xs) (hys : IsClosed ys) :
    IsClosed (xs ++ ys) := by
  induction hxs with
  | nil => exact hys
  | plain hgt hquote happos _ ih => exact .plain hgt hquote happos ih
  | quoted hq hraw _ ih =>
    rw [List.cons_append, List.append_assoc, List.cons_append]
    exact .quoted hq hraw ih

theorem step_inTag {c : Char} (hgt : c ≠ '>') (hquote : c ≠ '"') (happos : c ≠ '\'')
    (read : List Char) : Mode.step (.tag none read) c = (.tag none (c :: read), none) := by
  have hopen : ¬ (c = '"' ∨ c = '\'') := not_or.mpr ⟨hquote, happos⟩
  simp only [Mode.step, Mode.inTag, if_neg hgt, if_neg hopen]

theorem step_inValue {c q : Char} (h : c ≠ q) (read : List Char) :
    Mode.step (.tag (some q) read) c = (.tag (some q) (c :: read), none) := by
  simp only [Mode.step, Mode.inTag, if_neg h]

/-- Within quotation marks a bracket ends nothing. -/
theorem cut_value {q : Char} {raw : List Char} (h : ∀ c ∈ raw, c ≠ q) (read rest : List Char) :
    cut (.tag (some q) read) (raw ++ q :: rest) =
      cut (.tag none (q :: (raw.reverse ++ read))) rest := by
  induction raw generalizing read with
  | nil =>
    have hstep : Mode.step (.tag (some q) read) q = (.tag none (q :: read), none) := by
      simp only [Mode.step, Mode.inTag, if_pos]
    exact cut_on hstep rest
  | cons c raw ih =>
    obtain ⟨hc, hraw⟩ := List.forall_mem_cons.mp h
    have hstepInValue : (Mode.tag (some q) read).step c = (Mode.tag (some q) (c :: read), none) :=
      step_inValue hc read
    rw [List.cons_append, cut_on hstepInValue, ih hraw, List.reverse_cons,
      List.append_assoc, List.singleton_append]

/-- A tag with closed quotations runs to the first bracket behind them. -/
theorem cut_closed {content : List Char} (h : IsClosed content) (read rest : List Char) :
    cut (.tag none read) (content ++ '>' :: rest) =
      .tag (read.reverse ++ content) :: cut (.text []) rest := by
  induction h generalizing read with
  | nil =>
    rw [List.nil_append, List.append_nil]
    rfl
  | @plain c cs hgt hquote happos _ ih =>
    have hstepInTag : (Mode.tag none read).step c = (Mode.tag none (c :: read), none) :=
      step_inTag hgt hquote happos read
    rw [List.cons_append, cut_on hstepInTag, ih, List.reverse_cons,
      List.append_assoc, List.singleton_append]
  | @quoted q raw cs hq hraw _ ih =>
    have hstep : Mode.step (.tag none read) q = (.tag (some q) (q :: read), none) := by
      rcases hq with rfl | rfl <;> rfl
    rw [List.cons_append, List.append_assoc, List.cons_append, cut_on hstep, cut_value hraw, ih]
    simp

/-- A tag that is no comment or instruction is cut out whole. -/
theorem cut_tag {content : List Char} (h : IsClosed content) (hbang : content.head? ≠ some '!')
    (hmark : content.head? ≠ some '?') (rest : List Char) :
    cut .bracket (content ++ '>' :: rest) = .tag content :: cut (.text []) rest := by
  have hinside : cut .bracket (content ++ '>' :: rest) =
      cut (.tag none []) (content ++ '>' :: rest) := by
    cases content with
    | nil => rfl
    | cons c content =>
      have hbang' : c ≠ '!' := fun heq => hbang (congrArg some heq)
      have hmark' : c ≠ '?' := fun heq => hmark (congrArg some heq)
      have hstep : Mode.step .bracket c = Mode.step (.tag none []) c := by
        rw [Mode.step, if_neg hbang', if_neg hmark']
        rfl
      rw [List.cons_append, cut, cut, hstep]
  rw [hinside, cut_closed h]
  rfl

end FlowLint.Markup

import FlowLint.Proofs.Markup.AttributeOrder
import Mathlib.Logic.Relation

/-!
# Turning tags in a text

A tag can be turned where its bracket stands outside of other markup, since only there the reader
takes it for a tag. All that is cut before the tag and after it stays, so a document with a turned
tag is a document, and its elements are alike. The places are not scarce: every start tag of a
document stands at one of them. Of texts that are no documents nothing is said.
-/

namespace FlowLint.Markup

/-! ## Texts -/

/-- Where the reader stands after characters. -/
def reading (cs : List Char) : Mode :=
  cs.foldl (fun mode c => (mode.step c).1) (.text [])

/-- Texts of which one start tag or empty tag is turned. What stands before it leaves the reader
outside of markup. If `P` holds, the tag does not declare the default namespace twice. -/
inductive TagTurned (P : Prop) : String → String → Prop
  | of {before after : List Char} {w w' : WrittenTag} {slash : List Char} :
    (reading (dropMark before)).isText = true → slash = [] ∨ slash = ['/'] → Turned P w w' →
    TagTurned P (String.ofList (before ++ '<' :: (w.chars ++ slash ++ '>' :: after)))
      (String.ofList (before ++ '<' :: (w'.chars ++ slash ++ '>' :: after)))

/-- The beginning of a text is cut into lexemes before the rest is seen. -/
theorem cut_append (mode : Mode) (xs : List Char) :
    (∃ found, ∀ rest, cut mode (xs ++ rest) = found) ∨
      ∃ found, ∀ rest, cut mode (xs ++ rest) =
        found ++ cut (xs.foldl (fun mode c => (mode.step c).1) mode) rest := by
  induction xs generalizing mode with
  | nil => exact .inr ⟨[], fun rest => rfl⟩
  | cons c xs ih =>
    rcases hstep : mode.step c with ⟨mode', _ | lexeme⟩
    · rcases ih mode' with ⟨found, h⟩ | ⟨found, h⟩
      · exact .inl ⟨found, fun rest => (cut_on hstep _).trans (h rest)⟩
      · refine .inr ⟨found, fun rest => ?_⟩
        rw [List.cons_append, cut_on hstep, h, List.foldl_cons, hstep]
    · cases hbroken : lexeme.isBroken with
      | true =>
        refine .inl ⟨[lexeme], fun rest => ?_⟩
        rw [List.cons_append, cut, hstep]
        exact if_pos hbroken
      | false =>
        rcases ih mode' with ⟨found, h⟩ | ⟨found, h⟩
        · refine .inl ⟨lexeme :: found, fun rest => ?_⟩
          rw [List.cons_append, cut_found hstep hbroken, h]
        · refine .inr ⟨lexeme :: found, fun rest => ?_⟩
          rw [List.cons_append, cut_found hstep hbroken, h, List.foldl_cons, hstep]
          rfl

section Texts

variable {P : Prop} {text text' : String} {e e' : Element}

/-- A written tag is cut out whole, with or without a slash. -/
theorem cut_written {w : WrittenTag} {slash : List Char} (hslash : slash = [] ∨ slash = ['/'])
    (rest : List Char) : cut .bracket (w.chars ++ slash ++ '>' :: rest) =
      .tag (w.chars ++ slash) :: cut (.text []) rest := by
  have hclosed : IsClosed (w.chars ++ slash) := by
    refine w.isClosed_chars.append ?_
    rcases hslash with rfl | rfl
    · exact .nil
    · exact .plain (by decide) (by decide) (by decide) .nil
  exact cut_tag hclosed (WrittenTag.head?_chars (by decide) w.name_starts.2.1 slash)
    (WrittenTag.head?_chars (by decide) w.name_starts.2.2 slash) rest

theorem LexemeTurned.tag {w w' : WrittenTag} {slash : List Char}
    (hslash : slash = [] ∨ slash = ['/']) (h : Turned P w w') :
    LexemeTurned P (.tag (w.chars ++ slash)) (.tag (w'.chars ++ slash)) := by
  rcases hslash with rfl | rfl
  · rw [List.append_nil, List.append_nil]
    exact .start h
  · exact .empty h

theorem dropMark_append (before after : List Char) :
    dropMark (before ++ '<' :: after) = dropMark before ++ '<' :: after := by
  cases before with
  | nil => rfl
  | cons c cs =>
    rw [List.cons_append, dropMark, dropMark]
    split <;> rfl

theorem forall₂_same (ls : List Lexeme) : List.Forall₂ (LexemeTurned P) ls ls :=
  List.forall₂_same.mpr fun l _ => .same l

/-- Turning one tag in a text turns at most that tag among its pieces. -/
theorem TagTurned.pieces (h : TagTurned P text text') :
    List.Forall₂ (LexemeTurned P) (pieces text) (Markup.pieces text') := by
  obtain @⟨before, after, w, w', slash, hmode, hslash, hturned⟩ := h
  rw [pieces_eq_cut, pieces_eq_cut, String.toList_ofList, String.toList_ofList, dropMark_append,
    dropMark_append]
  rcases cut_append (.text []) (dropMark before) with ⟨found, hcut⟩ | ⟨found, hcut⟩
  · rw [hcut, hcut]
    exact forall₂_same found
  · rw [hcut, hcut, ← reading]
    cases hread : reading (dropMark before) with
    | text read =>
      rw [cut_bracket, cut_bracket, cut_written hslash, cut_written hslash]
      have hsame : ∀ lexemes, List.Forall₂ (LexemeTurned P) lexemes lexemes := forall₂_same
      refine List.rel_append (hsame found) (List.rel_append (hsame _) ?_)
      exact .cons (.tag hslash hturned) (hsame _)
    | _ =>
      rw [hread] at hmode
      cases hmode

theorem isDocument_of_parse (h : parse text = .ok e) : IsDocument (pieces text) e := by
  have houtcome : Outcome (pieces text) (parse text) := outcome_grow (lexemes text)
  rw [h] at houtcome
  cases houtcome with
  | document hdocument => exact hdocument

/-- A text with one tag turned is parsed as well, into an alike element. -/
theorem TagTurned.parse (h : TagTurned P text text') (hparse : parse text = .ok e) :
    ∃ e', Markup.parse text' = .ok e' ∧ Alike P e e' := by
  have hisDocument : IsDocument (Markup.pieces text) e := isDocument_of_parse hparse
  obtain ⟨e', hdocument, halike⟩ := hisDocument.turned h.pieces
  exact ⟨e', parse_of_document hdocument, halike⟩

end Texts

/-! ## Places of tags -/

/-- The last of these characters stand between the brackets of a tag that opens outside of
markup. -/
def Opened (pre content : List Char) : Prop :=
  ∃ before, pre = before ++ '<' :: content ∧ (reading before).isText = true ∧
    content.head? ≠ some '!' ∧ content.head? ≠ some '?'

/-- What a tag in progress holds has been read last. -/
def Holds (pre : List Char) : Mode → Prop
  | .bracket => Opened pre []
  | .tag _ read => Opened pre read.reverse ∧ read ≠ []
  | _ => True

/-- Whether the reader stands in markup that is no tag. -/
def Mode.isBeside : Mode → Bool
  | bang | comment _ | cdata _ | doctype _ _ | instruction _ => true
  | text _ | bracket | tag _ _ => false

section Places

variable {pre content cs : List Char} {mode : Mode} {c : Char}

theorem Opened.push (h : Opened pre content) (hc : content = [] → c ≠ '!' ∧ c ≠ '?') :
    Opened (pre ++ [c]) (content ++ [c]) := by
  obtain ⟨before, rfl, hbefore, hbang, hmark⟩ := h
  refine ⟨before, by simp, hbefore, ?_⟩
  cases content with
  | nil =>
    obtain ⟨hbang', hmark'⟩ := hc rfl
    exact ⟨fun heq => hbang' (Option.some.inj heq), fun heq => hmark' (Option.some.inj heq)⟩
  | cons first rest => exact ⟨hbang, hmark⟩

/-- Inside a tag the characters since the bracket are those read. -/
theorem holds_inTag {quote : Option Char} {read : List Char} (h : Opened pre read.reverse)
    (hc : read = [] → c ≠ '!' ∧ c ≠ '?') : Holds (pre ++ [c]) (Mode.inTag quote read c).1 ∧
      ∀ content, (Mode.inTag quote read c).2 = some (.tag content) →
        c = '>' ∧ Opened pre content := by
  have hpush : Opened (pre ++ [c]) (c :: read).reverse := by
    rw [List.reverse_cons]
    exact h.push fun hnil => hc (List.reverse_eq_nil_iff.mp hnil)
  cases quote with
  | some q =>
    rw [Mode.inTag]
    exact ⟨⟨hpush, List.cons_ne_nil c read⟩, by simp⟩
  | none =>
    by_cases hend : c = '>'
    · rw [Mode.inTag, if_pos hend]
      refine ⟨trivial, fun content heq => ⟨hend, ?_⟩⟩
      obtain rfl := Lexeme.tag.inj (Option.some.inj heq)
      exact h
    · rw [Mode.inTag, if_neg hend]
      exact ⟨⟨hpush, List.cons_ne_nil c read⟩, by simp⟩

/-- Of markup that is no tag comes no lexeme of a tag. -/
theorem holds_beside (h : mode.isBeside = true) :
    Holds pre (mode.step c).1 ∧ ∀ content, (mode.step c).2 ≠ some (.tag content) := by
  cases mode with
  | text | bracket | tag => cases h
  | bang =>
    simp only [Mode.step]
    split_ifs <;> simp [Holds]
  | comment read =>
    simp only [Mode.step, Lexeme.ofComment]
    split_ifs <;> simp [Holds]
  | cdata read =>
    simp only [Mode.step, Lexeme.ofCdata]
    split_ifs <;> simp [Holds]
  | doctype depth read =>
    simp only [Mode.step, Lexeme.ofDoctype]
    split_ifs <;> simp [Holds]
  | instruction read =>
    simp only [Mode.step, Lexeme.ofInstruction]
    split_ifs <;> simp [Holds]

/-- Only the end of a tag makes a lexeme of a tag. -/
theorem holds_step (hmode : reading pre = mode) (h : Holds pre mode) :
    Holds (pre ++ [c]) (mode.step c).1 ∧
      ∀ content, (mode.step c).2 = some (.tag content) → c = '>' ∧ Opened pre content := by
  by_cases hbeside : mode.isBeside = true
  · obtain ⟨hholds, hnone⟩ := holds_beside hbeside
    exact ⟨hholds, fun content heq => absurd heq (hnone content)⟩
  cases mode with
  | tag quote read => exact holds_inTag h.1 fun hnil => absurd hnil h.2
  | bracket =>
    by_cases hbang : c = '!'
    · rw [Mode.step, if_pos hbang]
      exact ⟨trivial, by simp⟩
    by_cases hmark : c = '?'
    · rw [Mode.step, if_neg hbang, if_pos hmark]
      exact ⟨trivial, by simp⟩
    rw [Mode.step, if_neg hbang, if_neg hmark]
    exact holds_inTag h fun _ => ⟨hbang, hmark⟩
  | text read =>
    by_cases hopen : c = '<'
    · rw [Mode.step, if_pos hopen]
      refine ⟨⟨pre, by rw [hopen], by rw [hmode]; rfl, by simp, by simp⟩, fun content heq => ?_⟩
      unfold Lexeme.ofText? at heq
      split at heq <;> cases heq
    · rw [Mode.step, if_neg hopen]
      exact ⟨trivial, by simp⟩
  | bang | comment _ | cdata _ | doctype _ _ | instruction _ => exact absurd rfl hbeside

/-- A tag that is cut stands in the text, and its bracket opens it. -/
theorem exists_place (pre : List Char) (h : Holds pre (reading pre))
    (hmem : .tag content ∈ cut (reading pre) cs) :
    ∃ opened after, pre ++ cs = opened ++ '>' :: after ∧ Opened opened content := by
  induction cs generalizing pre with
  | nil =>
    rw [cut] at hmem
    exfalso
    revert hmem
    cases reading pre with
    | text read =>
      unfold Mode.finish Lexeme.ofText?
      split <;> simp
    | _ => simp [Mode.finish]
  | cons c cs ih =>
    obtain ⟨hnext, hfound⟩ := holds_step (c := c) rfl h
    have hreading : reading (pre ++ [c]) = ((reading pre).step c).1 := by
      rw [reading, List.foldl_append]
      rfl
    rw [← hreading] at hnext
    have hpre : pre ++ c :: cs = pre ++ [c] ++ cs := by
      rw [List.append_assoc, List.singleton_append]
    have hlater : .tag content ∈ cut (reading (pre ++ [c])) cs →
        ∃ opened after, pre ++ c :: cs = opened ++ '>' :: after ∧ Opened opened content := by
      rw [hpre]
      exact ih _ hnext
    rw [cut] at hmem
    rw [hreading] at hlater
    rcases hstep : (reading pre).step c with ⟨mode', _ | lexeme⟩
    · rw [hstep] at hmem hlater
      exact hlater hmem
    · rw [hstep] at hmem hlater hfound
      have hhere : lexeme = .tag content →
          ∃ opened after, pre ++ c :: cs = opened ++ '>' :: after ∧ Opened opened content := by
        rintro rfl
        obtain ⟨rfl, hopened⟩ := hfound content rfl
        exact ⟨pre, cs, rfl, hopened⟩
      dsimp only at hmem
      split at hmem
      · exact hhere (List.mem_singleton.mp hmem).symm
      · rcases List.mem_cons.mp hmem with heq | hmem
        · exact hhere heq.symm
        · exact hlater hmem

end Places

/-! ## Every start tag of a document -/

/-- The keys of the attributes of a tag, in order. -/
def keysOf (content : List Char) : List (List Char) :=
  (attributeItems content).filterMap fun
    | .pair _ key _ => some key
    | _ => none

/-- A tag of a text, split from the slash of an empty tag, can be turned in every way: it stands in
the text, and the text is turned with it. This is asked of tags that have attributes and whose name
and keys hold neither quotes nor the bracket that ends a tag. -/
def Turnable (text : String) (content : List Char) : Prop :=
  ∃ inside slash, content = inside ++ slash ∧ (slash = [] ∨ slash = ['/']) ∧
    (keysOf inside ≠ [] → (tagName inside).all isKeyChar = true →
      (∀ key ∈ keysOf inside, key.all isKeyChar = true) →
      ∃ (w : WrittenTag) (before after : List Char), w.chars = inside ∧
        text = String.ofList (before ++ '<' :: (inside ++ slash ++ '>' :: after)) ∧
        ∀ (P : Prop) (w' : WrittenTag), Turned P w w' →
          TagTurned P text
            (String.ofList (before ++ '<' :: (w'.chars ++ slash ++ '>' :: after))))

/-- A tag that is no end tag, split from the slash of an empty tag, has attributes that can be
read. -/
def IsReadable (content : List Char) : Prop :=
  IsEndTag content ∨ ∃ inside slash pairs, content = inside ++ slash ∧
    (slash = [] ∨ slash = ['/']) ∧ List.Forall₂ WrittenTag.Gives (attributeItems inside) pairs

section Coverage

variable {text : String} {e : Element} {scope inner : Scope} {ls body : List Lexeme}
  {content inside : List Char} {tag : Tag} {t : OpenTag} {es : List Element} {s : String}
  {items : List AttributeItem} {pairs : List (List Char × List Char)}

theorem exists_gives {seen : List (Nat × List Char)} {as : List Attribute}
    (h : readAttributes seen items = .ok as) :
    ∃ pairs, List.Forall₂ WrittenTag.Gives items pairs := by
  induction items generalizing seen as with
  | nil => exact ⟨[], .nil⟩
  | cons item rest ih =>
    cases item with
    | keyless e => cases h
    | valueless start key e =>
      rw [readAttributes] at h
      split at h <;> cases h
    | pair start key raw =>
      have hrest : ∃ seen' as', readAttributes seen' rest = .ok as' := by
        rw [readAttributes] at h
        split at h
        · cases h
        split at h
        · exact ⟨_, _, h⟩
        split at h
        · cases h
        · cases hread : readAttributes ((start, key) :: seen) rest with
          | error e =>
            rw [hread] at h
            cases h
          | ok as' => exact ⟨_, as', hread⟩
      obtain ⟨seen', as', hread⟩ := hrest
      obtain ⟨pairs, hpairs⟩ := ih hread
      exact ⟨(key, raw) :: pairs, .cons ⟨start, rfl⟩ hpairs⟩

theorem Starts.isReadable (h : Starts scope content tag t) : IsReadable content := by
  obtain ⟨pairs, hpairs⟩ := exists_gives h.attributes
  exact .inr ⟨content, [], pairs, (List.append_nil content).symm, .inl rfl, hpairs⟩

theorem Starts.isReadable_empty (hkind : IsEmptyTag content)
    (h : Starts scope content.dropLast tag t) : IsReadable content := by
  obtain ⟨pairs, hpairs⟩ := exists_gives h.attributes
  have hsplit : content = content.dropLast ++ ['/'] := by
    obtain ⟨init, heq⟩ := List.getLast?_eq_some_iff.mp hkind.2
    rw [heq, List.dropLast_concat]
  exact .inr ⟨content.dropLast, ['/'], pairs, hsplit, .inr rfl, hpairs⟩

theorem Enclosed.isReadable (h : Enclosed scope ls tag inner body)
    (hbody : ∀ content, .tag content ∈ body → IsReadable content) :
    ∀ content, .tag content ∈ ls → IsReadable content := by
  intro content hmem
  cases h with
  | empty hkind hstarts =>
    obtain rfl := Lexeme.tag.inj (List.mem_singleton.mp hmem)
    exact hstarts.isReadable_empty hkind
  | pair hkind hstarts hend hname =>
    rcases List.mem_cons.mp hmem with heq | hmem
    · obtain rfl := Lexeme.tag.inj heq
      exact hstarts.isReadable
    · rcases List.mem_append.mp hmem with hmem | hmem
      · exact hbody content hmem
      · obtain rfl := Lexeme.tag.inj (List.mem_singleton.mp hmem)
        exact .inl hend

theorem Contains.isReadable (h : Contains scope ls es s) :
    ∀ content, .tag content ∈ ls → IsReadable content := by
  induction h with
  | nothing => exact fun _ => nofun
  | silent _ ih | cdata _ ih | text _ _ ih =>
    intro content hmem
    exact ih content ((List.mem_cons.mp hmem).resolve_left nofun)
  | element henclosed _ _ ihbody ih =>
    intro content hmem
    exact (List.mem_append.mp hmem).elim (henclosed.isReadable ihbody content) (ih content)

/-- Every tag of a text that is parsed can be read. -/
theorem isReadable_of_parse (h : parse text = .ok e) (hmem : .tag content ∈ pieces text) :
    IsReadable content := by
  obtain ⟨before, placed, after, hls, hbefore, ⟨tag, inner, body, children, s, henclosed, hbody, -⟩,
    hafter⟩ := isDocument_of_parse h
  rw [hls, List.mem_append, List.mem_append] at hmem
  rcases hmem with (hmem | hmem) | hmem
  · exact absurd (hbefore _ hmem) nofun
  · exact henclosed.isReadable hbody.isReadable content hmem
  · exact absurd (hafter _ hmem) nofun

theorem exists_of_dropMark {cs before rest : List Char}
    (h : dropMark cs = before ++ '<' :: rest) :
    ∃ before', cs = before' ++ '<' :: rest ∧ dropMark before' = before := by
  cases cs with
  | nil => cases before <;> cases h
  | cons c cs =>
    by_cases hmark : c.toNat = 0xFEFF
    · rw [dropMark, if_pos hmark] at h
      exact ⟨c :: before, by rw [h]; rfl, if_pos hmark⟩
    · rw [dropMark, if_neg hmark] at h
      refine ⟨before, h, ?_⟩
      cases before with
      | nil => rfl
      | cons first more =>
        obtain ⟨rfl, -⟩ := List.cons.inj h
        exact if_neg hmark

/-- The keys of a tag are those of the pairs it gives. -/
theorem keysOf_of_gives (h : List.Forall₂ WrittenTag.Gives (attributeItems content) pairs) :
    keysOf content = pairs.map (·.1) := by
  rw [keysOf]
  generalize attributeItems content = items at h
  induction h with
  | nil => rfl
  | @cons item p _ _ hitem _ ih =>
    obtain ⟨start, rfl⟩ := hitem
    rw [List.map_cons, ← ih]
    rfl

/-- Every start tag and every empty tag of a document can be turned in every way. -/
theorem turnable_of_parse (h : parse text = .ok e) (hmem : .tag content ∈ pieces text)
    (hend : ¬ IsEndTag content) : Turnable text content := by
  obtain ⟨inside, slash, pairs, rfl, hslash, hgives⟩ :=
    (isReadable_of_parse h hmem).resolve_left hend
  rw [pieces_eq_cut] at hmem
  obtain ⟨opened, after, htext, unmarked, rfl, hmode, hbang, hmark⟩ := exists_place [] trivial hmem
  rw [List.nil_append, List.append_assoc, List.cons_append] at htext
  obtain ⟨before, hbefore, rfl⟩ := exists_of_dropMark htext
  refine ⟨inside, slash, rfl, hslash, fun hne hname hkeys => ?_⟩
  have hhead : ∀ c, (inside ++ slash).head? ≠ some c → inside.head? ≠ some c := by
    intro c hc hsome
    rw [List.head?_append, hsome] at hc
    exact hc rfl
  rw [keysOf_of_gives hgives] at hne hkeys
  have hkeyed : ∀ p ∈ pairs, p.1.all isKeyChar = true :=
    fun p hp => hkeys p.1 (List.mem_map_of_mem hp)
  have hstarts : inside.head? ≠ some '/' ∧ inside.head? ≠ some '!' ∧ inside.head? ≠ some '?' :=
    ⟨hhead _ hend, hhead _ hbang, hhead _ hmark⟩
  obtain ⟨w, rfl⟩ := exists_writtenTag hgives (fun heq => hne (heq ▸ rfl)) hname hkeyed hstarts
  have hplace : text = String.ofList (before ++ '<' :: (w.chars ++ slash ++ '>' :: after)) := by
    rw [← hbefore, String.ofList_toList]
  refine ⟨w, before, after, rfl, hplace, fun P w' hturned => ?_⟩
  rw [hplace]
  exact .of hmode hslash hturned

end Coverage

end FlowLint.Markup

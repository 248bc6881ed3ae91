import FlowLint.Json.Token
import FlowLint.Proofs.Json.Numerals

/-!
# Written values are cut into their tokens

A quoted text and a piece of punctuation end themselves; a word or a number ends where the text does
or a delimiter follows. That the text of a value is cut into the tokens of the value is shown for
what may follow it, so that the texts of items and members can be put together. Only the form with a
line for each item and member is treated.
-/

namespace FlowLint.Json

variable {c : Char} {cs more rest read : List Char} {done ts u : List Token} {t : Token}

/-! ## What stands between values -/

/-- Whether a character ends a word or number. -/
def isDelimiter (c : Char) : Bool :=
  isGap c || c = '"' || (punctuation? c).isSome

/-- A text that can follow a word or number: it is empty or begins with a delimiter. -/
def Delimited (cs : List Char) : Prop :=
  ∀ c ∈ cs.head?, isDelimiter c = true

/-- Characters that are cut into tokens wherever something follows that can. -/
def Cuts (cs : List Char) (ts : List Token) : Prop :=
  ∀ done rest, Delimited rest →
    tokensFrom .ground done (cs ++ rest) = tokensFrom .ground (ts.reverse ++ done) rest

theorem cuts_nil : Cuts [] [] := fun _ _ _ => rfl

/-- Text and tokens go together piece by piece, as long as no token runs on. -/
theorem Cuts.append (hcs : Cuts cs ts) (hmore : Cuts more u) (h : Delimited more) :
    Cuts (cs ++ more) (ts ++ u) := by
  intro done rest hrest
  have hdelimited : Delimited (more ++ rest) := by
    cases more with
    | nil => exact hrest
    | cons c more => exact h
  rw [List.append_assoc, hcs done _ hdelimited, hmore _ rest hrest, List.reverse_append,
    List.append_assoc]

/-- A gap or punctuation in front. -/
theorem Cuts.cons (h : TokenMode.outside c = (.ground, u)) (hcs : Cuts cs ts) :
    Cuts (c :: cs) (u ++ ts) := by
  intro done rest hrest
  rw [List.cons_append, tokensFrom, TokenMode.step, h]
  dsimp only
  rw [hcs _ rest hrest, List.reverse_append, List.append_assoc]

theorem Cuts.newLine (level : Nat) (hcs : Cuts cs ts) :
    Cuts ((newLine level).toList ++ cs) ts := by
  rw [Json.newLine, String.toList_ofList, List.cons_append]
  refine Cuts.cons (u := []) rfl ?_
  induction 2 * level with
  | zero => exact hcs
  | succ n ih => exact Cuts.cons (u := []) rfl ih

/-! ## Words and numbers -/

theorem tokensFrom_bare (h : ∀ c ∈ cs, isDelimiter c = false) :
    tokensFrom (.bare read) done (cs ++ rest) =
      tokensFrom (.bare (cs.reverse ++ read)) done rest := by
  induction cs generalizing read with
  | nil => rfl
  | cons c cs ih =>
    obtain ⟨hc, hcs⟩ := List.forall_mem_cons.mp h
    have hstep : (TokenMode.bare read).step c = some (.bare (c :: read), []) := by
      rw [isDelimiter] at hc
      rw [TokenMode.step, hc, if_neg Bool.false_ne_true]
    rw [List.cons_append, tokensFrom, hstep]
    dsimp only
    rw [List.reverse_nil, List.nil_append, ih hcs, List.reverse_cons, List.append_assoc]
    rfl

/-- A word or number ends where the text does or a delimiter follows. -/
theorem tokensFrom_bareEnd (hrest : Delimited rest) (h : bareToken? read.reverse = some t) :
    tokensFrom (.bare read) done rest = tokensFrom .ground (t :: done) rest := by
  cases rest with
  | nil =>
    simp only [tokensFrom, h]
    rfl
  | cons c rest =>
    have hc : isDelimiter c = true := hrest c rfl
    have hstep : (TokenMode.bare read).step c =
        some ((TokenMode.outside c).1, t :: (TokenMode.outside c).2) := by
      rw [isDelimiter] at hc
      rw [TokenMode.step, if_pos hc, h]
      rfl
    rw [tokensFrom, hstep, tokensFrom, TokenMode.step]
    simp only [List.reverse_cons, List.append_assoc, List.singleton_append]

theorem outside_of_not_isDelimiter (h : isDelimiter c = false) :
    TokenMode.outside c = (.bare [c], []) := by
  simp only [isDelimiter, Bool.or_eq_false_iff, decide_eq_false_iff_not, Option.isSome_eq_false_iff,
    Option.isNone_iff_eq_none] at h
  obtain ⟨⟨hgap, hquote⟩, hpunctuation⟩ := h
  rw [TokenMode.outside, hgap, if_neg Bool.false_ne_true, if_neg hquote, hpunctuation]

/-- A bare token ends at the first delimiter. -/
theorem cuts_bare (c : Char) (cs : List Char) (h : (c :: cs).all (!isDelimiter ·) = true)
    (htoken : bareToken? (c :: cs) = some t) : Cuts (c :: cs) [t] := by
  intro done rest hrest
  simp only [List.all_eq_true, Bool.not_eq_true'] at h
  obtain ⟨hc, hcs⟩ := List.forall_mem_cons.mp h
  rw [List.cons_append, tokensFrom, TokenMode.step, outside_of_not_isDelimiter hc]
  dsimp only
  rw [List.reverse_nil, List.nil_append, tokensFrom_bare hcs]
  refine tokensFrom_bareEnd hrest ?_
  rw [List.reverse_append, List.reverse_reverse]
  exact htoken

theorem isNumeralChar_of_isDelimiter (h : isDelimiter c = true) : isNumeralChar c = false := by
  let delimiters := [' ', '\n', '\t', '\r', '"', '[', ']', '\x7b', '\x7d', ',', ':']
  have hall : delimiters.all (!isNumeralChar ·) = true := by decide
  have hc : c ∈ delimiters := by
    by_contra hc
    simp only [delimiters, List.mem_cons, List.not_mem_nil, or_false, not_or] at hc
    simp [isDelimiter, isGap, punctuation?, hc] at h
  simpa using List.all_eq_true.mp hall c hc

/-- What is read as a number is one token. -/
theorem bareToken?_of_ofChars? {n : Number} (h : Number.ofChars? cs = some n) :
    bareToken? cs = some (.scalar (.num n)) := by
  have hword : ∀ {word : List Char}, word.all isNumeralChar = false → cs ≠ word := by
    rintro word hword rfl
    rw [Number.all_of_ofChars? h] at hword
    exact Bool.noConfusion hword
  rw [bareToken?, if_neg (hword (by decide)), if_neg (hword (by decide)),
    if_neg (hword (by decide)), h]
  rfl

/-- A numeral is one token. -/
theorem cuts_number {n : Number} (h : Number.ofChars? cs = some n) :
    Cuts cs [.scalar (.num n)] := by
  cases cs with
  | nil => exact nomatch h
  | cons c cs =>
    refine cuts_bare c cs (List.all_eq_true.mpr fun x hx => ?_) (bareToken?_of_ofChars? h)
    have hx : isNumeralChar x = true := List.all_eq_true.mp (Number.all_of_ofChars? h) x hx
    rw [Bool.not_eq_true', Bool.eq_false_iff]
    intro hdelimiter
    rw [isNumeralChar_of_isDelimiter hdelimiter] at hx
    exact Bool.noConfusion hx

/-! ## Texts -/

theorem digitValue?_lowerHexDigit {d : Nat} (h : d < 16) :
    Text.digitValue? 16 (Text.lowerHexDigit d) = some d := by
  have hdigits : ∀ d < 16, Text.digitValue? 16 (Text.lowerHexDigit d) = some d := by decide
  exact hdigits d h

/-- A control character is read back from its escape. -/
theorem tokensFrom_controlChar (h : c.toNat < 32) :
    tokensFrom (.text read) done
        ('\\' :: 'u' :: '0' :: '0' :: Text.byteHex c.toNat.toUInt8 ++ rest) =
      tokensFrom (.text (c :: read)) done rest := by
  have hbyte : c.toNat.toUInt8.toNat = c.toNat := Nat.mod_eq_of_lt (by omega)
  have hvalue : c.toNat / 16 * 16 + c.toNat % 16 = c.toNat := Nat.div_add_mod' c.toNat 16
  have hend : endUnicode read none c.toNat = some (.text (c :: read)) := by
    rw [endUnicode, if_neg (by omega), if_neg (by omega), Char.ofNat_toNat]
  have hhigh : (TokenMode.unicode read none 0 2).step (Text.lowerHexDigit (c.toNat / 16)) =
      some (.unicode read none (c.toNat / 16) 1, []) := by
    rw [TokenMode.step, digitValue?_lowerHexDigit (by omega)]
    simp
  have hlow : (TokenMode.unicode read none (c.toNat / 16) 1).step
      (Text.lowerHexDigit (c.toNat % 16)) = some (.text (c :: read), []) := by
    rw [TokenMode.step, digitValue?_lowerHexDigit (by omega)]
    simp [hvalue, hend]
  change tokensFrom (.unicode read none 0 2) done (Text.byteHex c.toNat.toUInt8 ++ rest) = _
  rw [Text.byteHex, hbyte, List.cons_append, tokensFrom, hhigh]
  dsimp only
  rw [List.cons_append, tokensFrom, hlow]
  rfl

/-- Each character of a text is read back. -/
@[simp] theorem tokensFrom_escapeChar (c : Char) :
    tokensFrom (.text read) done (escapeChar c ++ rest) = tokensFrom (.text (c :: read)) done rest := by
  rw [escapeChar]
  split_ifs with hquote hslash hline hreturn htab hback hfeed hcontrol
  · subst hquote; rfl
  · subst hslash; rfl
  · subst hline; rfl
  · subst hreturn; rfl
  · subst htab; rfl
  · subst hback; rfl
  · subst hfeed; rfl
  · exact tokensFrom_controlChar hcontrol
  · have hstep : (TokenMode.text read).step c = some (.text (c :: read), []) := by
      rw [TokenMode.step, if_neg hquote, if_neg hslash, if_neg hcontrol]
    rw [List.singleton_append, tokensFrom, hstep]
    rfl

/-- An escaped text is read back character by character. -/
@[simp] theorem tokensFrom_escaped (s : List Char) :
    tokensFrom (.text read) done (s.flatMap escapeChar ++ rest) =
      tokensFrom (.text (s.reverse ++ read)) done rest := by
  induction s generalizing read with
  | nil => rfl
  | cons c s ih =>
    rw [List.flatMap_cons, List.append_assoc, tokensFrom_escapeChar, ih, List.reverse_cons,
      List.append_assoc]
    rfl

/-- A quoted text ends itself, whatever follows. -/
theorem Cuts.quote (s : String) (hcs : Cuts cs ts) :
    Cuts ((quote s).toList ++ cs) (.text s :: ts) := by
  intro done rest hrest
  have hopen : ∀ more, tokensFrom .ground done ('"' :: more) = tokensFrom (.text []) done more :=
    fun _ => rfl
  have hclose : ∀ read more, tokensFrom (.text read) done ('"' :: more) =
      tokensFrom .ground (.text (String.ofList read.reverse) :: done) more := fun _ _ => rfl
  have hread : String.ofList (s.toList.reverse ++ []).reverse = s := by simp
  have hdone : ts.reverse ++ .text s :: done = (.text s :: ts).reverse ++ done := by simp
  simp only [Json.quote, String.toList_ofList, List.cons_append, List.append_assoc, List.nil_append]
  rw [hopen, tokensFrom_escaped, hclose, hread, hcs _ rest hrest, hdone]

/-! ## Values -/

/-- A value that is read back wherever at least `levels` further levels may open: its numbers are,
and it has no more levels. -/
inductive Legible : Nat → Json → Prop
  | null {levels : Nat} : Legible levels .null
  | bool {levels : Nat} (b : Bool) : Legible levels (.bool b)
  | num {levels : Nat} {n : Number} (h : Number.ofChars? n.write.toList = some n) :
    Legible levels (.num n)
  | str {levels : Nat} (s : String) : Legible levels (.str s)
  | arr {levels : Nat} {items : List Json} (h : ∀ v ∈ items, Legible levels v) :
    Legible (levels + 1) (.arr items)
  | obj {levels : Nat} {members : List (String × Json)} (h : ∀ m ∈ members, Legible levels m.2) :
    Legible (levels + 1) (.obj members)

mutual
/-- The tokens of a value. -/
def tokensOf : Json → List Token
  | null => [.scalar .null]
  | bool b => [.scalar (.bool b)]
  | num n => [.scalar (.num n)]
  | str s => [.text s]
  | arr items => .openArray :: itemTokens true items
  | obj members => .openObject :: memberTokens true members
/-- The tokens of items up to the closing bracket. -/
def itemTokens (first : Bool) : List Json → List Token
  | [] => [.closeArray]
  | v :: rest => (if first then [] else [.comma]) ++ tokensOf v ++ itemTokens false rest
/-- The tokens of members up to the closing brace. -/
def memberTokens (first : Bool) : List (String × Json) → List Token
  | [] => [.closeObject]
  | (k, v) :: rest =>
    (if first then [] else [.comma]) ++ .text k :: .colon :: tokensOf v ++ memberTokens false rest
end

theorem delimited_cons (h : isDelimiter c = true) : Delimited (c :: cs) := fun x hx => by
  rw [List.head?_cons, Option.mem_some_iff] at hx
  rwa [← hx]

theorem delimited_newLine (level : Nat) : Delimited ((newLine level).toList ++ cs) := by
  rw [newLine, String.toList_ofList]
  exact delimited_cons rfl

/-- One more item or member on a line of its own. -/
theorem cuts_line (first : Bool) (level : Nat) (hcs : Cuts cs u) (hmore : Cuts more ts)
    (h : Delimited more) :
    Cuts ((if first then "" else ",").toList ++ ((newLine level).toList ++ (cs ++ more)))
        ((if first then [] else [.comma]) ++ (u ++ ts)) ∧
      Delimited ((if first then "" else ",").toList ++ ((newLine level).toList ++ (cs ++ more))) := by
  have hline : Cuts ((newLine level).toList ++ (cs ++ more)) (u ++ ts) :=
    .newLine level (hcs.append hmore h)
  cases first with
  | true =>
    have hdelimited : Delimited ((newLine level).toList ++ (cs ++ more)) := delimited_newLine level
    exact ⟨hline, hdelimited⟩
  | false => exact ⟨.cons (u := [.comma]) rfl hline, delimited_cons rfl⟩

/-- Items are cut apart at the commas between them. -/
theorem cuts_prettyItems {items : List Json}
    (h : ∀ v ∈ items, ∀ level, Cuts (prettyAt level v).toList (tokensOf v)) (level : Nat)
    (first : Bool) :
    Cuts (prettyItems level first items).toList (itemTokens first items) ∧
      Delimited (prettyItems level first items).toList := by
  induction items generalizing first with
  | nil =>
    rw [prettyItems, String.toList_append]
    exact ⟨.newLine level (.cons (u := [.closeArray]) rfl cuts_nil), delimited_newLine level⟩
  | cons v rest ih =>
    obtain ⟨hv, hrest⟩ := List.forall_mem_cons.mp h
    obtain ⟨hcuts, hdelimited⟩ := ih hrest false
    rw [prettyItems, itemTokens]
    simp only [String.toList_append, List.append_assoc]
    exact cuts_line first (level + 1) (hv (level + 1)) hcuts hdelimited

theorem cuts_prettyMembers {members : List (String × Json)}
    (h : ∀ m ∈ members, ∀ level, Cuts (prettyAt level m.2).toList (tokensOf m.2)) (level : Nat)
    (first : Bool) :
    Cuts (prettyMembers level first members).toList (memberTokens first members) ∧
      Delimited (prettyMembers level first members).toList := by
  induction members generalizing first with
  | nil =>
    rw [prettyMembers, String.toList_append]
    exact ⟨.newLine level (.cons (u := [.closeObject]) rfl cuts_nil), delimited_newLine level⟩
  | cons m rest ih =>
    obtain ⟨k, v⟩ := m
    obtain ⟨hv, hrest⟩ := List.forall_mem_cons.mp h
    obtain ⟨hcuts, hdelimited⟩ := ih hrest false
    have hmember : Cuts ((quote k).toList ++ (": ".toList ++ (prettyAt (level + 1) v).toList))
        (.text k :: .colon :: tokensOf v) :=
      .quote k (.cons (u := [.colon]) rfl (.cons (u := []) rfl (hv (level + 1))))
    have hline := cuts_line first (level + 1) hmember hcuts hdelimited
    rw [prettyMembers, memberTokens]
    simp only [String.toList_append, List.append_assoc, List.cons_append] at hline ⊢
    exact hline

/-- A value is cut into its tokens. -/
theorem cuts_prettyAt {levels : Nat} {v : Json} (h : Legible levels v) (level : Nat) :
    Cuts (prettyAt level v).toList (tokensOf v) := by
  induction h generalizing level with
  | null =>
    rw [prettyAt, tokensOf]
    exact cuts_bare 'n' ['u', 'l', 'l'] rfl rfl
  | bool b =>
    rw [prettyAt, tokensOf]
    cases b with
    | false => exact cuts_bare 'f' ['a', 'l', 's', 'e'] rfl rfl
    | true => exact cuts_bare 't' ['r', 'u', 'e'] rfl rfl
  | num h =>
    rw [prettyAt, tokensOf]
    exact cuts_number h
  | str s =>
    have hquote := Cuts.quote s cuts_nil
    rw [List.append_nil] at hquote
    rwa [prettyAt, tokensOf]
  | @arr levels items h ih =>
    rw [tokensOf]
    cases items with
    | nil =>
      rw [prettyAt, itemTokens]
      exact .cons (u := [.openArray]) rfl (.cons (u := [.closeArray]) rfl cuts_nil)
    | cons v rest =>
      rw [prettyAt, String.toList_append]
      exact .cons (u := [.openArray]) rfl (cuts_prettyItems ih level true).1
  | @obj levels members h ih =>
    rw [tokensOf]
    cases members with
    | nil =>
      rw [prettyAt, memberTokens]
      exact .cons (u := [.openObject]) rfl (.cons (u := [.closeObject]) rfl cuts_nil)
    | cons m rest =>
      rw [prettyAt, String.toList_append]
      exact .cons (u := [.openObject]) rfl (cuts_prettyMembers ih level true).1

theorem tokensFrom_gaps {gaps : List Char} (h : ∀ c ∈ gaps, isGap c = true) :
    tokensFrom .ground done gaps = some done.reverse := by
  induction gaps with
  | nil => rfl
  | cons c rest ih =>
    obtain ⟨hc, hrest⟩ := List.forall_mem_cons.mp h
    rw [tokensFrom, TokenMode.step, TokenMode.outside, if_pos hc]
    exact ih hrest

/-- The text of a value has the tokens of the value, with or without gaps after it. -/
theorem tokens?_pretty {levels : Nat} {v : Json} (h : Legible levels v) {gaps : List Char}
    (hgaps : ∀ c ∈ gaps, isGap c = true) :
    tokens? (v.pretty ++ String.ofList gaps) = some (tokensOf v) := by
  have hdelimited : Delimited gaps := fun c hc => by
    rw [isDelimiter, hgaps c (List.mem_of_mem_head? hc)]
    rfl
  rw [tokens?, pretty, String.toList_append, String.toList_ofList,
    cuts_prettyAt h 0 [] gaps hdelimited, tokensFrom_gaps hgaps, List.append_nil,
    List.reverse_reverse]

end FlowLint.Json

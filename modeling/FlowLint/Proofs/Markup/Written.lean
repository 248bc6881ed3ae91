import FlowLint.Proofs.Markup.Cutting
import Mathlib.Data.List.Forall2

/-!
# Tags as they are written

In a tag a name is followed by attributes: a key, an equals sign and a value between quotes, with
spaces before each of them. What is written in this way is one tag, and the reader of attributes
finds the keys and values that were written, in their order. Names and keys may hold anything but
spaces, quotes and the bracket that ends a tag; where they hold quotes, tags and attributes are
not cut at the same places, and nothing is said of them.
-/

namespace FlowLint.Markup

/-- The characters of names and keys. -/
def isKeyChar (c : Char) : Bool :=
  !isSpace c && c ≠ '>' && c ≠ '"' && c ≠ '\''

/-- An attribute as it is written in a tag. -/
structure Written where
  /-- The spaces in front. -/
  before : List Char := [' ']
  /-- The first character of the key, which may be any that a key can hold. -/
  first : Char
  more : List Char
  /-- The spaces before the equals sign, and those after it. -/
  gap : List Char := []
  lead : List Char := []
  quote : Char := '"'
  raw : List Char
  before_spaces : before.all isSpace = true
  first_key : isKeyChar first = true
  more_key : more.all (fun c => isKeyChar c && c ≠ '=') = true
  gap_spaces : gap.all isSpace = true
  lead_spaces : lead.all isSpace = true
  quote_quotes : quote = '"' ∨ quote = '\''
  raw_free : quote ∉ raw

namespace Written

def key (a : Written) : List Char :=
  a.first :: a.more

/-- What the attribute says: its key, and its value as written. -/
def pair (a : Written) : List Char × List Char :=
  (a.key, a.raw)

def chars (a : Written) : List Char :=
  a.before ++ (a.key ++ (a.gap ++ '=' :: (a.lead ++ a.quote :: (a.raw ++ [a.quote]))))

end Written

/-! ## Characters -/

theorem notSpace_of_isKeyChar {c : Char} (h : isKeyChar c = true) : isSpace c = false := by
  simp only [isKeyChar, Bool.and_eq_true, Bool.not_eq_true'] at h
  exact h.1.1.1

/-- Characters that neither end a tag nor open a value. -/
theorem isClosed_of_plain {cs : List Char} (h : ∀ c ∈ cs, c ≠ '>' ∧ c ≠ '"' ∧ c ≠ '\'') :
    IsClosed cs := by
  induction cs with
  | nil => exact .nil
  | cons c cs ih =>
    obtain ⟨⟨hgt, hquote, happos⟩, hcs⟩ := List.forall_mem_cons.mp h
    exact .plain hgt hquote happos (ih hcs)

theorem plain_of_isKeyChar {c : Char} (h : isKeyChar c = true) : c ≠ '>' ∧ c ≠ '"' ∧ c ≠ '\'' := by
  simp only [isKeyChar, Bool.and_eq_true, decide_eq_true_eq] at h
  exact ⟨h.1.1.2, h.1.2, h.2⟩

theorem plain_of_isSpace {c : Char} (h : isSpace c = true) : c ≠ '>' ∧ c ≠ '"' ∧ c ≠ '\'' := by
  refine ⟨?_, ?_, ?_⟩ <;> rintro rfl <;> cases h

theorem isClosed_spaces {cs : List Char} (h : cs.all isSpace = true) : IsClosed cs :=
  isClosed_of_plain fun c hc => plain_of_isSpace (List.all_eq_true.mp h c hc)

/-! ## Reading attributes -/

section Scan

variable {stage stage' : AttributeStage} {start offset : Nat} {c q : Char}
  {spaces key more raw read rest : List Char}

/-- Characters that leave the stage as it is. -/
theorem scan_stays (h : ∀ c ∈ spaces, ∀ offset, stage.step offset c = (stage, none))
    (offset : Nat) (rest : List Char) :
    AttributeItem.scan stage offset (spaces ++ rest) =
      AttributeItem.scan stage (offset + Text.width spaces) rest := by
  induction spaces generalizing offset with
  | nil => rfl
  | cons c spaces ih =>
    obtain ⟨hc, hspaces⟩ := List.forall_mem_cons.mp h
    rw [List.cons_append, AttributeItem.scan_on (hc offset), ih hspaces, Text.width_cons,
      Nat.add_assoc]

theorem scan_key (h : ∀ c ∈ more, isSpace c = false ∧ c ≠ '=') (offset : Nat) (read : List Char) :
    AttributeItem.scan (.key start read) offset (more ++ rest) =
      AttributeItem.scan (.key start (more.reverse ++ read)) (offset + Text.width more) rest := by
  induction more generalizing offset read with
  | nil => rfl
  | cons c more ih =>
    obtain ⟨⟨hspace, hequals⟩, hmore⟩ := List.forall_mem_cons.mp h
    have hstep : AttributeStage.step offset (.key start read) c =
        (.key start (c :: read), none) := by
      simp only [AttributeStage.step, if_neg hequals, hspace, Bool.false_eq_true, ↓reduceIte]
    have hread : more.reverse ++ c :: read = (c :: more).reverse ++ read := by simp
    have hoffset : offset + c.utf8Size + Text.width more = offset + Text.width (c :: more) := by
      rw [Text.width_cons, Nat.add_assoc]
    rw [List.cons_append, AttributeItem.scan_on hstep, ih hmore, hread, hoffset]

/-- From the end of a key to the quote that opens its value. -/
theorem scan_equals (hspaces : ∀ c ∈ spaces, isSpace c = true) (offset : Nat) :
    AttributeItem.scan (.key start read) offset (spaces ++ '=' :: rest) =
      AttributeItem.scan (.quote start read.reverse)
        (offset + Text.width spaces + '='.utf8Size) rest := by
  cases spaces with
  | nil => rfl
  | cons c spaces =>
    obtain ⟨hc, hspaces⟩ := List.forall_mem_cons.mp hspaces
    have hequals : ∀ c, isSpace c = true → c ≠ '=' := by
      rintro c hc rfl
      cases hc
    have hfirst : AttributeStage.step offset (.key start read) c =
        (.equals start read.reverse, none) := by
      simp only [AttributeStage.step, if_neg (hequals c hc), hc, ↓reduceIte]
    have hstays : ∀ c ∈ spaces, ∀ offset, AttributeStage.step offset
        (.equals start read.reverse) c = (.equals start read.reverse, none) := by
      intro c hc offset
      simp only [AttributeStage.step, if_neg (hequals c (hspaces c hc)), hspaces c hc, ↓reduceIte]
    have hsign : ∀ offset, AttributeStage.step offset (.equals start read.reverse) '=' =
        (.quote start read.reverse, none) := fun _ => rfl
    rw [List.cons_append, AttributeItem.scan_on hfirst, scan_stays hstays,
      AttributeItem.scan_on (hsign _), Text.width_cons, Nat.add_assoc offset]

theorem scan_value (h : ∀ c ∈ raw, c ≠ q) (offset : Nat) (read : List Char) :
    AttributeItem.scan (.value start key q read) offset (raw ++ q :: rest) =
      .pair start key (read.reverse ++ raw) ::
        AttributeItem.scan .between (offset + Text.width raw + q.utf8Size) rest := by
  induction raw generalizing offset read with
  | nil =>
    have hstep : AttributeStage.step offset (.value start key q read) q =
        (.between, some (.pair start key read.reverse)) := by
      simp only [AttributeStage.step, ↓reduceIte]
    rw [List.nil_append, List.append_nil, AttributeItem.scan, hstep]
    rfl
  | cons c raw ih =>
    obtain ⟨hc, hraw⟩ := List.forall_mem_cons.mp h
    have hstep : AttributeStage.step offset (.value start key q read) c =
        (.value start key q (c :: read), none) := by
      simp only [AttributeStage.step, if_neg hc]
    have hread : (c :: read).reverse ++ raw = read.reverse ++ c :: raw := by simp
    have hoffset : offset + c.utf8Size + Text.width raw = offset + Text.width (c :: raw) := by
      rw [Text.width_cons, Nat.add_assoc]
    rw [List.cons_append, AttributeItem.scan_on hstep, ih hraw, hread, hoffset]

theorem scan_between (h : ∀ c ∈ spaces, isSpace c = true) (offset : Nat) (rest : List Char) :
    AttributeItem.scan .between offset (spaces ++ rest) =
      AttributeItem.scan .between (offset + Text.width spaces) rest :=
  scan_stays (fun c hc => AttributeStage.step_between (h c hc)) offset rest

end Scan

namespace Written

variable {a : Written} {offset : Nat} {rest : List Char}

/-- A written attribute is found as it was written. -/
@[simp] theorem scan_chars (a : Written) (offset : Nat) (rest : List Char) :
    AttributeItem.scan .between offset (a.chars ++ rest) =
      .pair (offset + Text.width a.before) a.key a.raw ::
        AttributeItem.scan .between (offset + Text.width a.chars) rest := by
  have hmore : ∀ c ∈ a.more, isSpace c = false ∧ c ≠ '=' := by
    intro c hc
    have h := List.all_eq_true.mp a.more_key c hc
    rw [Bool.and_eq_true, decide_eq_true_eq] at h
    exact ⟨notSpace_of_isKeyChar h.1, h.2⟩
  have hraw : ∀ c ∈ a.raw, c ≠ a.quote := fun c hc heq => a.raw_free (heq ▸ hc)
  have hstart : ∀ offset, AttributeStage.step offset .between a.first =
      (.key offset [a.first], none) := by
    intro offset
    simp only [AttributeStage.step, notSpace_of_isKeyChar a.first_key, Bool.false_eq_true,
      ↓reduceIte]
  have hlead : ∀ c ∈ a.lead, ∀ start offset key,
      AttributeStage.step offset (.quote start key) c = (.quote start key, none) := by
    intro c hc start offset key
    have hspace := List.all_eq_true.mp a.lead_spaces c hc
    have hquote : ¬ (c = '"' ∨ c = '\'') := by
      rintro (rfl | rfl) <;> cases hspace
    simp only [AttributeStage.step, if_neg hquote, hspace, ↓reduceIte]
  have hquote : ∀ start offset key, AttributeStage.step offset (.quote start key) a.quote =
      (.value start key a.quote [], none) := by
    intro start offset key
    simp only [AttributeStage.step, if_pos a.quote_quotes]
  simp only [chars, key, List.append_assoc, List.cons_append, List.nil_append]
  rw [scan_between (List.all_eq_true.mp a.before_spaces), AttributeItem.scan_on (hstart _),
    scan_key hmore, scan_equals (List.all_eq_true.mp a.gap_spaces),
    scan_stays (fun c hc offset => hlead c hc _ offset _), AttributeItem.scan_on (hquote ..),
    scan_value hraw]
  simp only [List.reverse_append, List.reverse_reverse, List.reverse_cons, List.reverse_nil,
    List.nil_append, List.singleton_append, Text.width_cons, Text.width_append, Text.width_nil,
    Nat.add_zero, Nat.add_assoc]

theorem isClosed_chars (a : Written) : IsClosed a.chars := by
  have hkey : IsClosed a.key := by
    have hplain : a.first ≠ '>' ∧ a.first ≠ '\"' ∧ a.first ≠ '\'' := plain_of_isKeyChar a.first_key
    refine isClosed_of_plain (List.forall_mem_cons.mpr ⟨hplain, ?_⟩)
    intro c hc
    have h := List.all_eq_true.mp a.more_key c hc
    exact plain_of_isKeyChar (Bool.and_eq_true_iff.mp h).1
  have hraw : ∀ c ∈ a.raw, c ≠ a.quote := fun c hc heq => a.raw_free (heq ▸ hc)
  have hvalue : IsClosed (a.quote :: (a.raw ++ [a.quote])) := .quoted a.quote_quotes hraw .nil
  have hsign : IsClosed ('=' :: (a.lead ++ a.quote :: (a.raw ++ [a.quote]))) :=
    .plain (by decide) (by decide) (by decide) ((isClosed_spaces a.lead_spaces).append hvalue)
  have hclosed : IsClosed
      (a.key ++ (a.gap ++ '=' :: (a.lead ++ a.quote :: (a.raw ++ [a.quote])))) :=
    hkey.append ((isClosed_spaces a.gap_spaces).append hsign)
  exact (isClosed_spaces a.before_spaces).append hclosed

@[simp] theorem getLast?_chars (a : Written) : a.chars.getLast? = some a.quote := by
  have hchars : a.chars =
      a.before ++ (a.key ++ (a.gap ++ '=' :: (a.lead ++ a.quote :: a.raw))) ++ [a.quote] := by
    simp only [chars, List.append_assoc, List.cons_append]
  rw [hchars, List.getLast?_concat]

end Written

/-! ## Start tags -/

/-- What stands between the brackets of a start tag that has attributes, but for the slash of an
empty tag. -/
structure WrittenTag where
  name : List Char
  first : Written
  others : List Written
  /-- The spaces at the end. -/
  tail : List Char := []
  name_key : name.all isKeyChar = true
  name_starts : name.head? ≠ some '/' ∧ name.head? ≠ some '!' ∧ name.head? ≠ some '?'
  first_before : first.before ≠ []
  tail_spaces : tail.all isSpace = true

namespace WrittenTag

def attributes (t : WrittenTag) : List Written :=
  t.first :: t.others

/-- What follows the name. -/
def inside (t : WrittenTag) : List Char :=
  t.attributes.flatMap Written.chars ++ t.tail

def chars (t : WrittenTag) : List Char :=
  t.name ++ t.inside

/-- What the attributes of the tag say, in order. -/
def pairs (t : WrittenTag) : List (List Char × List Char) :=
  t.attributes.map Written.pair

/-- The item is an attribute with this key and value. -/
def Gives (item : AttributeItem) (p : List Char × List Char) : Prop :=
  ∃ start, item = .pair start p.1 p.2

/-- The attributes of a written tag are scanned as its pairs. -/
theorem scan_attributes (attributes : List Written) {tail : List Char}
    (htail : ∀ c ∈ tail, isSpace c = true) (offset : Nat) :
    List.Forall₂ Gives
      (AttributeItem.scan .between offset (attributes.flatMap Written.chars ++ tail))
      (attributes.map Written.pair) := by
  induction attributes generalizing offset with
  | nil =>
    have hnone : AttributeItem.scan .between offset (tail ++ []) = [] := by
      rw [scan_between htail]
      rfl
    rw [List.append_nil] at hnone
    rw [List.flatMap_nil, List.nil_append, hnone]
    exact .nil
  | cons a rest ih =>
    rw [List.flatMap_cons, List.append_assoc, a.scan_chars, List.map_cons]
    exact .cons ⟨_, rfl⟩ (ih _)

/-- After the name comes a space. -/
theorem inside_eq (t : WrittenTag) :
    ∃ space rest, isSpace space = true ∧ t.inside = space :: rest := by
  have hbefore := t.first.before_spaces
  cases hspaces : t.first.before with
  | nil => exact absurd hspaces t.first_before
  | cons space spaces =>
    rw [hspaces, List.all_cons, Bool.and_eq_true] at hbefore
    rw [inside, attributes, List.flatMap_cons, Written.chars, hspaces]
    exact ⟨space, _, hbefore.1, rfl⟩

theorem notSpace_name (t : WrittenTag) : ∀ c ∈ t.name, (!isSpace c) = true := by
  intro c hc
  have hkeyChar : isKeyChar c = true := List.all_eq_true.mp t.name_key c hc
  rw [notSpace_of_isKeyChar hkeyChar]
  rfl

@[simp] theorem tagName_chars (t : WrittenTag) : tagName t.chars = t.name := by
  obtain ⟨space, rest, hspace, hinside⟩ := t.inside_eq
  rw [tagName, chars, hinside, List.takeWhile_append_of_pos t.notSpace_name,
    List.takeWhile_cons_of_neg (by simp [hspace]), List.append_nil]

/-- A written tag gives the pairs it was written from. -/
theorem gives_chars (t : WrittenTag) : List.Forall₂ Gives (attributeItems t.chars) t.pairs := by
  obtain ⟨space, rest, hspace, hinside⟩ := t.inside_eq
  have hdrop : t.chars.dropWhile (!isSpace ·) = t.inside := by
    rw [chars, List.dropWhile_append_of_pos t.notSpace_name, hinside,
      List.dropWhile_cons_of_neg (by simp [hspace])]
  rw [attributeItems, hdrop]
  exact scan_attributes t.attributes (List.all_eq_true.mp t.tail_spaces) _

theorem head?_chars {t : WrittenTag} {c : Char} (hc : isSpace c = false)
    (hname : t.name.head? ≠ some c) (rest : List Char) : (t.chars ++ rest).head? ≠ some c := by
  obtain ⟨space, after, hspace, hinside⟩ := t.inside_eq
  rw [chars, hinside]
  cases hcs : t.name with
  | nil =>
    intro heq
    rw [← Option.some.inj heq, hspace] at hc
    cases hc
  | cons first more =>
    rw [hcs] at hname
    exact hname

/-- What follows the name ends with a quote or a space. -/
theorem getLast?_chars (t : WrittenTag) : t.chars.getLast? ≠ some '/' := by
  have hlast : ∃ c ≠ '/', t.inside.getLast? = some c := by
    rcases List.eq_nil_or_concat' t.tail with htail | ⟨spaces, space, htail⟩
    · obtain ⟨init, a, hattributes⟩ : ∃ init a, t.attributes = init ++ [a] :=
        (List.eq_nil_or_concat' t.attributes).resolve_left (List.cons_ne_nil _ _)
      refine ⟨a.quote, ?_, ?_⟩
      · rcases a.quote_quotes with h | h <;> rw [h] <;> decide
      · have hinside : t.inside = init.flatMap Written.chars ++ a.chars := by
          simp [inside, htail, hattributes]
        rw [hinside, List.getLast?_append, a.getLast?_chars]
        rfl
    · have hspace := t.tail_spaces
      rw [htail, List.all_append, Bool.and_eq_true, List.all_cons, List.all_nil,
        Bool.and_true] at hspace
      refine ⟨space, ?_, ?_⟩
      · rintro rfl
        exact absurd hspace.2 (by decide)
      · rw [inside, htail, ← List.append_assoc, List.getLast?_concat]
  obtain ⟨c, hc, hinside⟩ := hlast
  rw [chars, List.getLast?_append, hinside]
  exact fun heq => hc (Option.some.inj heq)

theorem isClosed_chars (t : WrittenTag) : IsClosed t.chars := by
  have hname : IsClosed t.name := isClosed_of_plain fun c hc =>
    plain_of_isKeyChar (List.all_eq_true.mp t.name_key c hc)
  have hattributes : ∀ attributes : List Written,
      IsClosed (attributes.flatMap Written.chars) := by
    intro attributes
    induction attributes with
    | nil => exact .nil
    | cons a rest ih => exact a.isClosed_chars.append ih
  have hclosed : IsClosed (t.attributes.flatMap Written.chars ++ t.tail) :=
    (hattributes _).append (isClosed_spaces t.tail_spaces)
  exact hname.append hclosed

end WrittenTag

/-! ## What can be read is written -/

section Readable

open WrittenTag (Gives)

variable {start offset : Nat} {q c : Char} {key read rest cs : List Char} {item : AttributeItem}
  {items : List AttributeItem} {pairs : List (List Char × List Char)}

/-- A reading that stops at something else is not one of attributes only. -/
theorem isPair_of_gives (h : List.Forall₂ Gives (item :: items) pairs) : item.isPair = true := by
  obtain ⟨p, _, ⟨start, rfl⟩, -, -⟩ := List.forall₂_cons_left_iff.mp h
  rfl

theorem eq_between_of_gives {stage : AttributeStage}
    (h : List.Forall₂ Gives (AttributeItem.scan stage offset []) pairs) : stage = .between := by
  cases stage with
  | between => rfl
  | _ => exact absurd (isPair_of_gives h) Bool.false_ne_true

/-- What is read as a pair from within a value has the rest of the value in front. -/
theorem value_of_gives
    (h : List.Forall₂ Gives (AttributeItem.scan (.value start key q read) offset cs) pairs) :
    ∃ raw rest others next, cs = raw ++ q :: rest ∧ q ∉ raw ∧
      pairs = (key, read.reverse ++ raw) :: others ∧
      List.Forall₂ Gives (AttributeItem.scan .between next rest) others := by
  induction cs generalizing offset read with
  | nil => exact absurd (eq_between_of_gives h) nofun
  | cons c cs ih =>
    by_cases hc : c = q
    · subst hc
      rw [← List.nil_append (c :: cs), scan_value (by simp)] at h
      obtain ⟨p, others, hp, hothers, rfl⟩ := List.forall₂_cons_left_iff.mp h
      obtain ⟨_, heq⟩ := hp
      obtain ⟨-, hkey, hraw⟩ := AttributeItem.pair.inj heq
      exact ⟨[], cs, others, _, rfl, List.not_mem_nil,
        by rw [hkey, hraw], hothers⟩
    · have hstep : AttributeStage.step offset (.value start key q read) c =
          (.value start key q (c :: read), none) := by
        simp only [AttributeStage.step, if_neg hc]
      rw [AttributeItem.scan_on hstep] at h
      obtain ⟨raw, rest, others, next, rfl, hraw, hpairs, hothers⟩ := ih h
      refine ⟨c :: raw, rest, others, next, rfl, ?_, ?_, hothers⟩
      · exact fun hmem => (List.mem_cons.mp hmem).elim (fun heq => hc heq.symm) hraw
      · rw [hpairs, List.reverse_cons, List.append_assoc, List.singleton_append]

theorem quote_of_gives
    (h : List.Forall₂ Gives (AttributeItem.scan (.quote start key) offset cs) pairs) :
    ∃ lead q rest next, cs = lead ++ q :: rest ∧ lead.all isSpace = true ∧ (q = '"' ∨ q = '\'') ∧
      List.Forall₂ Gives (AttributeItem.scan (.value start key q []) next rest) pairs := by
  induction cs generalizing offset with
  | nil => exact absurd (eq_between_of_gives h) nofun
  | cons c cs ih =>
    by_cases hquote : c = '"' ∨ c = '\''
    · have hstep : AttributeStage.step offset (.quote start key) c =
          (.value start key c [], none) := by
        simp only [AttributeStage.step, if_pos hquote]
      rw [AttributeItem.scan_on hstep] at h
      exact ⟨[], c, cs, _, rfl, rfl, hquote, h⟩
    · cases hspace : isSpace c with
      | true =>
        have hstep : AttributeStage.step offset (.quote start key) c =
            (.quote start key, none) := by
          simp only [AttributeStage.step, if_neg hquote, hspace, ↓reduceIte]
        rw [AttributeItem.scan_on hstep] at h
        obtain ⟨lead, q, rest, next, rfl, hlead, hq, hrest⟩ := ih h
        exact ⟨c :: lead, q, rest, next, rfl, by rw [List.all_cons, hspace, hlead]; rfl, hq, hrest⟩
      | false =>
        have hstep : AttributeStage.step offset (.quote start key) c =
            (.between, some (.valueless start key (.missingQuote offset))) := by
          simp only [AttributeStage.step, if_neg hquote, hspace, Bool.false_eq_true, ↓reduceIte]
        rw [AttributeItem.scan, hstep] at h
        exact absurd (isPair_of_gives h) Bool.false_ne_true

theorem equals_of_gives
    (h : List.Forall₂ Gives (AttributeItem.scan (.equals start key) offset cs) pairs) :
    ∃ gap rest next, cs = gap ++ '=' :: rest ∧ gap.all isSpace = true ∧
      List.Forall₂ Gives (AttributeItem.scan (.quote start key) next rest) pairs := by
  induction cs generalizing offset with
  | nil => exact absurd (eq_between_of_gives h) nofun
  | cons c cs ih =>
    by_cases hequals : c = '='
    · subst hequals
      exact ⟨[], cs, _, rfl, rfl, h⟩
    · cases hspace : isSpace c with
      | true =>
        have hstep : AttributeStage.step offset (.equals start key) c =
            (.equals start key, none) := by
          simp only [AttributeStage.step, if_neg hequals, hspace, ↓reduceIte]
        rw [AttributeItem.scan_on hstep] at h
        obtain ⟨gap, rest, next, rfl, hgap, hrest⟩ := ih h
        exact ⟨c :: gap, rest, next, rfl, by rw [List.all_cons, hspace, hgap]; rfl, hrest⟩
      | false =>
        have hstep : AttributeStage.step offset (.equals start key) c =
            (.between, some (.keyless (.missingEquals offset))) := by
          simp only [AttributeStage.step, if_neg hequals, hspace, Bool.false_eq_true, ↓reduceIte]
        rw [AttributeItem.scan, hstep] at h
        exact absurd (isPair_of_gives h) Bool.false_ne_true

/-- A key that is read runs to spaces or the equals sign. -/
theorem key_of_gives
    (h : List.Forall₂ Gives (AttributeItem.scan (.key start read) offset cs) pairs) :
    ∃ more gap rest next, cs = more ++ (gap ++ '=' :: rest) ∧
      (∀ c ∈ more, c ≠ '=') ∧ gap.all isSpace = true ∧
      List.Forall₂ Gives (AttributeItem.scan (.quote start (read.reverse ++ more)) next rest)
        pairs := by
  induction cs generalizing offset read with
  | nil => exact absurd (eq_between_of_gives h) nofun
  | cons c cs ih =>
    by_cases hequals : c = '='
    · subst hequals
      refine ⟨[], [], cs, offset + '='.utf8Size, rfl, nofun, rfl, ?_⟩
      rw [List.append_nil]
      exact h
    · cases hspace : isSpace c with
      | true =>
        have hstep : AttributeStage.step offset (.key start read) c =
            (.equals start read.reverse, none) := by
          simp only [AttributeStage.step, if_neg hequals, hspace, ↓reduceIte]
        rw [AttributeItem.scan_on hstep] at h
        obtain ⟨gap, rest, next, rfl, hgap, hrest⟩ := equals_of_gives h
        refine ⟨[], c :: gap, rest, next, rfl, nofun, ?_, ?_⟩
        · rw [List.all_cons, hspace, hgap]
          rfl
        · rwa [List.append_nil]
      | false =>
        have hstep : AttributeStage.step offset (.key start read) c =
            (.key start (c :: read), none) := by
          simp only [AttributeStage.step, if_neg hequals, hspace, Bool.false_eq_true, ↓reduceIte]
        rw [AttributeItem.scan_on hstep] at h
        obtain ⟨more, gap, rest, next, rfl, hmore, hgap, hrest⟩ := ih h
        refine ⟨c :: more, gap, rest, next, rfl, ?_, hgap, ?_⟩
        · exact List.forall_mem_cons.mpr ⟨hequals, hmore⟩
        · rwa [List.reverse_cons, List.append_assoc, List.singleton_append] at hrest

/-- What begins with no space begins with an attribute. -/
theorem attribute_of_gives (hspace : isSpace c = false)
    (h : List.Forall₂ Gives (AttributeItem.scan .between offset (c :: cs)) pairs)
    (hkeys : ∀ p ∈ pairs, p.1.all isKeyChar = true) :
    ∃ (a : Written) (rest : List Char) (others : List (List Char × List Char)) (next : Nat),
      c :: cs = a.chars ++ rest ∧ rest.length ≤ cs.length ∧ pairs = a.pair :: others ∧
      List.Forall₂ Gives (AttributeItem.scan .between next rest) others := by
  have hstep : AttributeStage.step offset .between c = (.key offset [c], none) := by
    simp only [AttributeStage.step, hspace, Bool.false_eq_true, ↓reduceIte]
  rw [AttributeItem.scan_on hstep] at h
  obtain ⟨more, gap, afterSign, _, rfl, hmore, hgap, hsign⟩ := key_of_gives h
  obtain ⟨lead, q, afterQuote, _, rfl, hlead, hq, hquote⟩ := quote_of_gives hsign
  obtain ⟨raw, rest, others, next, rfl, hraw, rfl, hrest⟩ := value_of_gives hquote
  have hkey : isKeyChar c = true ∧ more.all isKeyChar = true := by
    simpa using (List.forall_mem_cons.mp hkeys).1
  have hmore' : more.all (fun c => isKeyChar c && c ≠ '=') = true := by
    refine List.all_eq_true.mpr fun d hd => ?_
    rw [List.all_eq_true.mp hkey.2 d hd, decide_eq_true (hmore d hd)]
    rfl
  refine ⟨{ before := [], first := c, more, gap, lead, quote := q, raw, before_spaces := rfl
            first_key := hkey.1, more_key := hmore', gap_spaces := hgap
            lead_spaces := hlead, quote_quotes := hq, raw_free := hraw },
    rest, others, next, by simp [Written.chars, Written.key], ?_, rfl, hrest⟩
  simp only [List.length_append, List.length_cons]
  omega

/-- A space belongs to the attribute that follows, or to the end of the tag. -/
theorem exists_written_cons (hspace : isSpace c = true) (attributes : List Written)
    {tail : List Char} (htail : tail.all isSpace = true) :
    ∃ (attributes' : List Written) (tail' : List Char),
      c :: (attributes.flatMap Written.chars ++ tail) =
        attributes'.flatMap Written.chars ++ tail' ∧ tail'.all isSpace = true ∧
      attributes'.map Written.pair = attributes.map Written.pair := by
  cases attributes with
  | nil =>
    refine ⟨[], c :: tail, rfl, ?_, rfl⟩
    rw [List.all_cons, hspace, htail]
    rfl
  | cons a rest =>
    have hbefore : (c :: a.before).all isSpace = true := by
      rw [List.all_cons, hspace, a.before_spaces]
      rfl
    exact ⟨{ a with before := c :: a.before, before_spaces := hbefore } :: rest, tail, rfl,
      htail, rfl⟩

/-- Attributes that can be read, of keys that hold no quotes, are written attributes. -/
theorem written_of_gives (h : List.Forall₂ Gives (AttributeItem.scan .between offset cs) pairs)
    (hkeys : ∀ p ∈ pairs, p.1.all isKeyChar = true) :
    ∃ (attributes : List Written) (tail : List Char),
      cs = attributes.flatMap Written.chars ++ tail ∧ tail.all isSpace = true ∧
      attributes.map Written.pair = pairs := by
  -- A whole attribute is read at a time, so the induction is on the length of what is left.
  induction hn : cs.length using Nat.strongRecOn generalizing cs offset pairs with
  | ind n ih =>
    subst hn
    cases cs with
    | nil =>
      obtain rfl := List.forall₂_nil_left_iff.mp h
      exact ⟨[], [], rfl, rfl, rfl⟩
    | cons c cs =>
      cases hspace : isSpace c with
      | true =>
        have hstep : AttributeStage.step offset AttributeStage.between c =
            (AttributeStage.between, none) :=
          AttributeStage.step_between hspace offset
        rw [AttributeItem.scan_on hstep] at h
        obtain ⟨attributes, tail, rfl, htail, rfl⟩ := ih cs.length (Nat.lt_succ_self _) h hkeys rfl
        exact exists_written_cons hspace attributes htail
      | false =>
        obtain ⟨a, rest, others, _, hcs, hlength, rfl, hrest⟩ := attribute_of_gives hspace h hkeys
        obtain ⟨-, hothers⟩ := List.forall_mem_cons.mp hkeys
        obtain ⟨attributes, tail, rfl, htail, rfl⟩ :=
          ih rest.length (Nat.lt_succ_of_le hlength) hrest hothers rfl
        refine ⟨a :: attributes, tail, ?_, htail, rfl⟩
        rw [hcs, List.flatMap_cons, List.append_assoc]

/-- A tag whose attributes can be read is a written tag, if it has any and neither its name nor
their keys hold quotes. -/
theorem exists_writtenTag {content : List Char}
    (h : List.Forall₂ Gives (attributeItems content) pairs) (hne : pairs ≠ [])
    (hname : (tagName content).all isKeyChar = true)
    (hkeys : ∀ p ∈ pairs, p.1.all isKeyChar = true)
    (hhead : content.head? ≠ some '/' ∧ content.head? ≠ some '!' ∧ content.head? ≠ some '?') :
    ∃ w : WrittenTag, w.chars = content := by
  obtain ⟨attributes, tail, hinside, htail, rfl⟩ := written_of_gives h hkeys
  cases attributes with
  | nil => exact absurd rfl hne
  | cons first others =>
    have hcontent : tagName content ++ content.dropWhile (!isSpace ·) = content :=
      List.takeWhile_append_dropWhile
    -- The name ends at a space, and that space can only stand before the first attribute.
    have hbefore : first.before ≠ [] := by
      intro hnone
      have hstop := List.head?_dropWhile_not (!isSpace ·) content
      rw [hinside, List.flatMap_cons, Written.chars, hnone] at hstop
      exact absurd hstop (by simpa [Written.key] using notSpace_of_isKeyChar first.first_key)
    have hstarts : ∀ c, content.head? ≠ some c → (tagName content).head? ≠ some c := by
      intro c hc hsome
      rw [← hcontent, List.head?_append, hsome] at hc
      exact hc rfl
    have hne' : (tagName content).head? ≠ some '/' := hstarts _ hhead.1
    have hne'' : (tagName content).head? ≠ some '!' := hstarts _ hhead.2.1
    refine ⟨{ name := tagName content, first, others, tail, name_key := hname
              name_starts := ⟨hne', hne'', hstarts _ hhead.2.2⟩
              first_before := hbefore, tail_spaces := htail }, ?_⟩
    rw [WrittenTag.chars, WrittenTag.inside, WrittenTag.attributes, ← hinside]
    exact hcontent

end Readable

end FlowLint.Markup

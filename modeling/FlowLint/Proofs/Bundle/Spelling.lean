import FlowLint.Bundle.Draft
import FlowLint.Proofs.Markup.Written
import FlowLint.Proofs.Markup.Nesting

/-!
# Reading back what is written

Text is written with its markup escaped, an element as a start tag with quoted attributes, its
inside and an end tag. Cutting finds exactly these tags again and between them one run for all
text that stands there; the runs and the values expand to what was written. So written elements
are elements of the grammar of documents, whatever their texts are.
-/

namespace FlowLint.Bundle

open FlowLint.Markup

/-! ## Escaped text -/

@[simp] theorem toList_escape (s : String) : (escape s).toList = s.toList.flatMap escapeChar :=
  Text.toList_escapeBy escapeChar s

theorem escape_append (s t : String) : escape (s ++ t) = escape s ++ escape t := by
  rw [← String.toList_inj, toList_escape, String.toList_append, List.flatMap_append,
    String.toList_append, toList_escape, toList_escape]

/-- The characters that an escaped text is free of. -/
def endsText (c : Char) : Bool :=
  c == '<' || c == '>' || c == '"'

theorem escapeChar_of_plain {c : Char} (h : endsText c = false) (hamp : c ≠ '&') :
    escapeChar c = [c] := by
  simp only [endsText, Bool.or_eq_false_iff, beq_eq_false_iff_ne] at h
  rw [escapeChar, if_neg hamp, if_neg h.1.1, if_neg h.1.2, if_neg h.2]

theorem any_endsText_escapeChar (c : Char) : (escapeChar c).any endsText = false := by
  by_cases hamp : c = '&'
  · subst hamp
    decide
  by_cases hends : endsText c = true
  · simp only [endsText, Bool.or_eq_true, beq_iff_eq] at hends
    rcases hends with (rfl | rfl) | rfl <;> decide
  · rw [Bool.not_eq_true] at hends
    rw [escapeChar_of_plain hends hamp, List.any_cons, hends]
    rfl

/-- No character that ends a text survives escaping. -/
theorem ne_of_mem_escape {other : Char} (hother : endsText other = true) (s : String) :
    ∀ c ∈ (escape s).toList, c ≠ other := by
  rintro c hc rfl
  rw [toList_escape, List.mem_flatMap] at hc
  obtain ⟨written, -, hc⟩ := hc
  have hany : (escapeChar written).any endsText = false := any_endsText_escapeChar written
  exact List.any_eq_false.mp hany c hc hother

/-- An escaped character is read as one again, after a text and before one. -/
theorem expandFrom_escapeChar (total offset : Nat) (done : List Char) (c : Char) (rest : List Char) :
    ∃ next, expandFrom total offset none done (escapeChar c ++ rest) =
      expandFrom total next none (c :: done) rest := by
  by_cases hamp : c = '&'
  · subst hamp
    exact ⟨_, rfl⟩
  by_cases hends : endsText c = true
  · simp only [endsText, Bool.or_eq_true, beq_iff_eq] at hends
    rcases hends with (rfl | rfl) | rfl <;> exact ⟨_, rfl⟩
  · rw [Bool.not_eq_true] at hends
    rw [escapeChar_of_plain hends hamp, List.singleton_append, expandFrom, if_neg hamp]
    exact ⟨_, rfl⟩

theorem expandFrom_escape (total : Nat) (cs : List Char) :
    ∀ offset done, expandFrom total offset none done (cs.flatMap escapeChar) =
      .ok (done.reverse ++ cs) := by
  -- Offsets only show in errors, and there are none, so they are left free.
  induction cs with
  | nil =>
    intro offset done
    rw [List.flatMap_nil, List.append_nil]
    rfl
  | cons c rest ih =>
    intro offset done
    obtain ⟨next, hnext⟩ := expandFrom_escapeChar total offset done c (rest.flatMap escapeChar)
    rw [List.flatMap_cons, hnext, ih, List.reverse_cons, List.append_assoc, List.singleton_append]

/-- Expansion of references undoes escaping. -/
@[simp] theorem expand_escape (s : String) : expand (escape s).toList = .ok s.toList := by
  rw [toList_escape, expand, expandFrom_escape]
  rfl

/-! ## Attributes -/

def isNameChar (c : Char) : Bool :=
  c.isAlphanum || c == ':'

/-- A name as it may be written in a tag. -/
structure IsName (name : String) : Prop where
  ne_empty : name.toList ≠ []
  chars : ∀ c ∈ name.toList, isNameChar c = true

instance (name : String) : Decidable (IsName name) :=
  decidable_of_iff (name.toList ≠ [] ∧ name.toList.all isNameChar = true)
    ⟨fun ⟨hne, hchars⟩ => ⟨hne, List.all_eq_true.mp hchars⟩,
      fun ⟨hne, hchars⟩ => ⟨hne, List.all_eq_true.mpr hchars⟩⟩

section Names

variable {c other : Char} (hc : isNameChar c = true)
include hc

theorem ne_of_isNameChar (hother : isNameChar other = false) : c ≠ other := by
  rintro rfl
  rw [hc] at hother
  cases hother

theorem isSpace_of_isNameChar : isSpace c = false := by
  rw [isSpace]
  simp only [Bool.or_eq_false_iff, beq_eq_false_iff_ne]
  exact ⟨⟨⟨ne_of_isNameChar hc rfl, ne_of_isNameChar hc rfl⟩, ne_of_isNameChar hc rfl⟩,
    ne_of_isNameChar hc rfl⟩

end Names

def attributeChars (a : Attribute) : List Char :=
  ' ' :: (a.name.toList ++ '=' :: '"' :: ((escape a.value).toList ++ ['"']))

/-- What stands between the brackets of a start tag. -/
def tagChars (name : String) (attributes : List Attribute) : List Char :=
  name.toList ++ attributes.flatMap attributeChars

/-- The items of attributes that are written from an offset on. -/
def itemsFrom (offset : Nat) : List Attribute → List AttributeItem
  | [] => []
  | a :: rest =>
    .pair (offset + ' '.utf8Size) a.name.toList (escape a.value).toList ::
      itemsFrom (offset + Text.width (attributeChars a)) rest

theorem isKeyChar_of_isNameChar {c : Char} (h : isNameChar c = true) :
    (isKeyChar c && c ≠ '=') = true := by
  have hne : ∀ {other : Char}, isNameChar other = false → decide (c ≠ other) = true :=
    fun hother => decide_eq_true (ne_of_isNameChar h hother)
  rw [isKeyChar, isSpace_of_isNameChar h, hne rfl, hne rfl, hne rfl, hne rfl]
  rfl

/-- The attribute as one that is written in a tag. -/
theorem exists_written {a : Attribute} (h : IsName a.name) : ∃ w : Written,
    w.before = [' '] ∧ w.key = a.name.toList ∧ w.raw = (escape a.value).toList ∧
      w.chars = attributeChars a := by
  obtain ⟨hne, hchars⟩ := h
  cases hkey : a.name.toList with
  | nil => exact absurd hkey hne
  | cons first more =>
    rw [hkey] at hchars
    obtain ⟨hfirst, hmore⟩ := List.forall_mem_cons.mp hchars
    have hkeyChar := (Bool.and_eq_true_iff.mp (isKeyChar_of_isNameChar hfirst)).1
    refine ⟨{ first, more, raw := (escape a.value).toList, before_spaces := rfl
              first_key := hkeyChar
              more_key := List.all_eq_true.mpr fun c hc => isKeyChar_of_isNameChar (hmore c hc)
              gap_spaces := rfl, lead_spaces := rfl, quote_quotes := .inl rfl
              raw_free := fun hquote => ne_of_mem_escape rfl a.value _ hquote rfl },
      rfl, rfl, rfl, ?_⟩
    rw [attributeChars, hkey]
    rfl

theorem scan_attribute {a : Attribute} (h : IsName a.name) (offset : Nat) (rest : List Char) :
    AttributeItem.scan .between offset (attributeChars a ++ rest) =
      .pair (offset + ' '.utf8Size) a.name.toList (escape a.value).toList ::
        AttributeItem.scan .between (offset + Text.width (attributeChars a)) rest := by
  obtain ⟨w, hbefore, hkey, hraw, hchars⟩ := exists_written h
  rw [← hchars, w.scan_chars, hbefore, hkey, hraw]
  rfl

theorem scan_attributes {attributes : List Attribute} (h : ∀ a ∈ attributes, IsName a.name)
    (offset : Nat) :
    AttributeItem.scan .between offset (attributes.flatMap attributeChars) =
      itemsFrom offset attributes := by
  induction attributes generalizing offset with
  | nil => rfl
  | cons a rest ih =>
    obtain ⟨ha, hrest⟩ := List.forall_mem_cons.mp h
    rw [List.flatMap_cons, scan_attribute ha, ih hrest, itemsFrom]

/-! ## Start tags -/

/-- A name and keys of which a start tag can be written. -/
structure IsTagOf (name : String) (keys : List String) : Prop where
  isName : IsName name
  areNames : ∀ key ∈ keys, IsName key
  distinct : keys.Nodup

instance (name : String) (keys : List String) : Decidable (IsTagOf name keys) :=
  decidable_of_iff (IsName name ∧ (∀ key ∈ keys, IsName key) ∧ keys.Nodup)
    ⟨fun ⟨hname, hkeys, hdistinct⟩ => ⟨hname, hkeys, hdistinct⟩,
      fun ⟨hname, hkeys, hdistinct⟩ => ⟨hname, hkeys, hdistinct⟩⟩

/-- The attributes of an element, of those written in its tag. -/
def localAttributes (attributes : List Attribute) : List Attribute :=
  (attributes.filter fun a => !isDeclaration a.name.toList).map fun a =>
    ⟨localName a.name.toList, a.value⟩

section Tags

variable {name : String} {attributes : List Attribute}

theorem notSpace_of_isName (h : IsName name) : ∀ c ∈ name.toList, (!isSpace c) = true := by
  intro c hc
  rw [isSpace_of_isNameChar (h.chars c hc)]
  rfl

theorem tagName_tagChars (h : IsName name) : tagName (tagChars name attributes) = name.toList := by
  have hnotSpace : ∀ c ∈ name.toList, (!isSpace c) = true := notSpace_of_isName h
  rw [tagName, tagChars, List.takeWhile_append_of_pos hnotSpace]
  cases attributes with
  | nil => exact List.append_nil _
  | cons => exact List.append_nil _

/-- The attributes of a written tag are the items it is scanned into. -/
theorem attributeItems_tagChars (h : IsTagOf name (attributes.map (·.name))) :
    attributeItems (tagChars name attributes) = itemsFrom (Text.width name.toList) attributes := by
  have hafter : (tagChars name attributes).dropWhile (!isSpace ·) =
      attributes.flatMap attributeChars := by
    have hnotSpace : ∀ c ∈ name.toList, (!isSpace c) = true := notSpace_of_isName h.isName
    rw [tagChars, List.dropWhile_append_of_pos hnotSpace]
    cases attributes <;> rfl
  rw [attributeItems, tagName_tagChars h.isName, hafter,
    scan_attributes (List.forall_mem_map.mp h.areNames)]

theorem enter_itemsFrom (h : ∀ key ∈ attributes.map (·.name), isDeclaration key.toList = false)
    (scope : Scope) (offset : Nat) : scope.enter (itemsFrom offset attributes) = .ok scope := by
  induction attributes generalizing offset with
  | nil => rfl
  | cons a rest ih =>
    obtain ⟨ha, hrest⟩ := List.forall_mem_cons.mp h
    obtain ⟨hdefault, hqualified⟩ := Bool.or_eq_false_iff.mp ha
    have hdeclared : declared a.name.toList (escape a.value).toList = .ok none := by
      rw [declared, if_neg (of_decide_eq_false hdefault), hqualified]
      rfl
    rw [itemsFrom, Scope.enter, hdeclared]
    exact ih hrest _

/-- Scanned attributes with distinct names are read back with their values. -/
theorem readAttributes_itemsFrom (hdistinct : (attributes.map (·.name)).Nodup)
    {seen : List (Nat × List Char)} (hseen : ∀ a ∈ attributes, ∀ s ∈ seen, s.2 ≠ a.name.toList)
    (offset : Nat) :
    readAttributes seen (itemsFrom offset attributes) = .ok (localAttributes attributes) := by
  induction attributes generalizing seen offset with
  | nil => rfl
  | cons a rest ih =>
    obtain ⟨hfresh, hrest⟩ := List.nodup_cons.mp hdistinct
    obtain ⟨ha, hothers⟩ := List.forall_mem_cons.mp hseen
    have hstart : startOf? seen a.name.toList = none := by
      rw [startOf?, Option.map_eq_none_iff, List.find?_eq_none]
      intro s hs
      simpa using ha s hs
    -- The key just read is none of those to come.
    have hmore : ∀ b ∈ rest, ∀ s ∈ (offset + ' '.utf8Size, a.name.toList) :: seen,
        s.2 ≠ b.name.toList := by
      intro b hb
      refine List.forall_mem_cons.mpr ⟨fun heq => hfresh ?_, hothers b hb⟩
      have hname : a.name = b.name := String.toList_inj.mp heq
      exact List.mem_map.mpr ⟨b, hb, hname.symm⟩
    have hread := ih hrest hmore (offset + Text.width (attributeChars a))
    rw [itemsFrom, readAttributes, hstart]
    dsimp only
    by_cases hdeclaration : isDeclaration a.name.toList = true
    · rw [if_pos hdeclaration, hread, localAttributes, localAttributes, List.filter_cons_of_neg]
      simp [hdeclaration]
    · rw [if_neg hdeclaration, expand_escape, hread, localAttributes, localAttributes,
        List.filter_cons_of_pos (by simp [hdeclaration]), List.map_cons]
      dsimp only
      rw [String.ofList_toList]
      rfl

/-- A start tag is read as it was written. -/
theorem starts_tagChars {scope inner : Scope} {uri : Option String}
    (h : IsTagOf name (attributes.map (·.name)))
    (henter : ∀ offset, scope.enter (itemsFrom offset attributes) = .ok inner)
    (huri : inner.resolve name.toList = .ok uri) :
    Starts scope (tagChars name attributes)
      ⟨uri, localName name.toList, localAttributes attributes⟩ ⟨name.toList, inner⟩ where
  written := (tagName_tagChars h.isName).symm
  bindings := by rw [attributeItems_tagChars h, henter]
  uri := by rw [tagName_tagChars h.isName, huri]
  name := by rw [tagName_tagChars h.isName]
  attributes := by
    rw [attributeItems_tagChars h]
    exact readAttributes_itemsFrom h.distinct (fun _ _ _ hs => absurd hs List.not_mem_nil) _

theorem isClosed_of_nameChars {cs : List Char} (h : ∀ c ∈ cs, isNameChar c = true) :
    IsClosed cs :=
  isClosed_of_plain fun c hc =>
    plain_of_isKeyChar (Bool.and_eq_true_iff.mp (isKeyChar_of_isNameChar (h c hc))).1

theorem isClosed_attributeChars {a : Attribute} (h : IsName a.name) :
    IsClosed (attributeChars a) := by
  obtain ⟨w, -, -, -, hchars⟩ := exists_written h
  rw [← hchars]
  exact w.isClosed_chars

theorem isClosed_tagChars (h : IsTagOf name (attributes.map (·.name))) :
    IsClosed (tagChars name attributes) := by
  have hclosed : IsClosed name.toList := isClosed_of_nameChars h.isName.chars
  apply hclosed.append
  have hkeys : ∀ a ∈ attributes, IsName a.name := List.forall_mem_map.mp h.areNames
  clear h
  induction attributes with
  | nil => exact .nil
  | cons a rest ih =>
    obtain ⟨ha, hrest⟩ := List.forall_mem_cons.mp hkeys
    exact (isClosed_attributeChars ha).append (ih hrest)

theorem head?_tagChars (h : IsName name) {c : Char} (hc : isNameChar c = false) :
    (tagChars name attributes).head? ≠ some c := by
  obtain ⟨hne, hchars⟩ := h
  rw [tagChars]
  cases hname : name.toList with
  | nil => exact absurd hname hne
  | cons first more =>
    have hfirst : isNameChar first = true := hchars first (hname ▸ List.mem_cons_self)
    intro heq
    exact ne_of_isNameChar hfirst hc (Option.some.inj heq)

theorem isStartTag_tagChars (h : IsName name) : IsStartTag (tagChars name attributes) := by
  refine ⟨head?_tagChars h rfl, ?_⟩
  rw [tagChars]
  rcases attributes.eq_nil_or_concat with rfl | ⟨before, a, rfl⟩
  · rw [List.flatMap_nil, List.append_nil]
    intro hlast
    have hnameChar : isNameChar '/' = true := h.chars _ (List.mem_of_getLast? hlast)
    exact ne_of_isNameChar hnameChar rfl rfl
  · have hquote : attributeChars a =
        (' ' :: (a.name.toList ++ '=' :: '"' :: (escape a.value).toList)) ++ ['"'] := by
      simp [attributeChars]
    rw [List.concat_eq_append, List.flatMap_append, List.flatMap_singleton, hquote,
      ← List.append_assoc, ← List.append_assoc, List.getLast?_concat]
    decide

theorem endName_of_isName (h : IsName name) : endName ('/' :: name.toList) = name.toList := by
  have hlast : ∀ c ∈ name.toList.reverse, ¬ isSpace c = true := by
    intro c hc
    have hnameChar : isNameChar c = true := h.chars c (List.mem_reverse.mp hc)
    rw [isSpace_of_isNameChar hnameChar]
    exact Bool.false_ne_true
  rw [endName, List.drop_succ_cons, List.drop_zero]
  cases hreverse : name.toList.reverse with
  | nil => exact (List.reverse_eq_nil_iff.mp hreverse).symm
  | cons c rest =>
    rw [List.dropWhile_cons_of_neg (hlast c (hreverse ▸ List.mem_cons_self)), ← hreverse,
      List.reverse_reverse]

end Tags

/-! ## Elements -/

/-- An element with a start tag and an end tag, and the characters in between. -/
def elementChars (name : String) (attributes : List Attribute) (body : List Char) : List Char :=
  '<' :: (tagChars name attributes ++ '>' :: (body ++ '<' :: '/' :: (name.toList ++ ['>'])))

/-- Characters that are written for child elements and text. -/
inductive Spelled : Scope → List Char → List Element → String → Prop
  | nothing {scope : Scope} : Spelled scope [] [] ""
  | run {scope : Scope} (text : String) {rest : List Char} {es : List Element} {s : String} :
    Spelled scope rest es s → Spelled scope ((escape text).toList ++ rest) es (text ++ s)
  | element {scope inner : Scope} {name : String} {attributes : List Attribute} {tag : Tag}
    {body rest : List Char} {children es : List Element} {content s : String} :
    IsTagOf name (attributes.map (·.name)) →
      Starts scope (tagChars name attributes) tag ⟨name.toList, inner⟩ →
      Spelled inner body children content → Spelled scope rest es s →
      Spelled scope (elementChars name attributes body ++ rest)
        (tag.element children content :: es) s

theorem contains_flush (scope : Scope) (s : String) :
    Contains scope (flush (escape s).toList) [] s := by
  rw [flush, Lexeme.ofText?]
  split
  · next hempty =>
    have hnone : s.toList = [] := by
      have hexpand := expand_escape s
      rw [List.isEmpty_iff.mp hempty] at hexpand
      exact (Except.ok.inj hexpand).symm
    rw [String.toList_eq_nil_iff.mp hnone]
    exact .nothing
  · have hrun : Contains scope [.text (escape s).toList] [] (String.ofList s.toList ++ "") :=
      .text (expand_escape s) .nothing
    rw [String.ofList_toList, String.append_empty] at hrun
    exact hrun

section Elements

variable {scope inner : Scope} {name : String} {attributes : List Attribute} {tag : Tag}
  {body cs cs' : List Char} {children es es' : List Element} {content s s' : String}

/-- Two pieces written one after the other stand for both contents. -/
theorem Spelled.append (h : Spelled scope cs es s) (hmore : Spelled scope cs' es' s') :
    Spelled scope (cs ++ cs') (es ++ es') (s ++ s') := by
  induction h with
  | nothing =>
    rw [String.empty_append]
    exact hmore
  | run text _ ih =>
    rw [List.append_assoc, String.append_assoc]
    exact .run text (ih hmore)
  | element htag hstarts hbody _ _ ih =>
    rw [List.append_assoc]
    exact .element htag hstarts hbody (ih hmore)

/-- What cutting makes of characters before which the text `before` is still open: lexemes with
these children and this text, and a text `after` that is open at their end. -/
def CutsTo (scope : Scope) (cs : List Char) (es : List Element) (s before : String) : Prop :=
  ∃ ls received after, Contains scope ls es received ∧ before ++ s = received ++ after ∧
    ∀ more, cut (.text (escape before).toList.reverse) (cs ++ more) =
      ls ++ cut (.text (escape after).toList.reverse) more

/-- An element is cut into its tags and what its inside is cut into, once the text before it has
ended. -/
theorem cut_element (htag : IsTagOf name (attributes.map (·.name)))
    (hstarts : Starts scope (tagChars name attributes) tag ⟨name.toList, inner⟩)
    (hbody : CutsTo inner body children content "") :
    ∃ ls inside, Enclosed scope ls tag inner inside ∧ Contains inner inside children content ∧
      ∀ read more, cut (.text read) (elementChars name attributes body ++ more) =
        flush read.reverse ++ ls ++ cut (.text []) more := by
  obtain ⟨ls, received, after, hcontains, hcontent, hcut⟩ := hbody
  -- The text that is open at the end of the inside ends at the bracket of the end tag.
  have hinside : Contains inner (ls ++ flush (escape after).toList) children content := by
    rw [String.empty_append] at hcontent
    have hboth := hcontains.append (contains_flush inner after)
    rw [List.append_nil, ← hcontent] at hboth
    exact hboth
  have hend : endName ('/' :: name.toList) = name.toList := endName_of_isName htag.isName
  have hslash : IsEndTag ('/' :: name.toList) := rfl
  have hstartTag : IsStartTag (tagChars name attributes) := isStartTag_tagChars htag.isName
  refine ⟨_, _, .pair hstartTag hstarts hslash hend, hinside, ?_⟩
  intro read more
  have hclose : IsClosed ('/' :: name.toList) :=
    .plain (by decide) (by decide) (by decide) (isClosed_of_nameChars htag.isName.chars)
  have hchars : elementChars name attributes body ++ more =
      '<' :: (tagChars name attributes ++ '>' ::
        (body ++ ('<' :: (('/' :: name.toList) ++ '>' :: more)))) := by
    simp [elementChars]
  have hopen : ∀ rest, cut (.text []) (body ++ rest) = _ := hcut
  have hclosed : IsClosed (tagChars name attributes) := isClosed_tagChars htag
  rw [hchars, cut_bracket, cut_tag hclosed (head?_tagChars htag.isName rfl)
    (head?_tagChars htag.isName rfl), hopen, cut_bracket, List.reverse_reverse,
    cut_tag hclose (by simp) (by simp)]
  simp

theorem Spelled.cutsTo (h : Spelled scope cs es s) : ∀ before, CutsTo scope cs es s before := by
  induction h with
  | nothing =>
    intro before
    exact ⟨[], "", before, .nothing, by simp, fun _ => rfl⟩
  | run text _ ih =>
    -- The run joins the text that is open before it.
    intro before
    obtain ⟨ls, received, after, hcontains, htext, hcut⟩ := ih (before ++ text)
    refine ⟨ls, received, after, hcontains, ?_, ?_⟩
    · rw [← String.append_assoc, htext]
    · intro more
      have hall : ∀ c ∈ (escape text).toList, c ≠ '<' := ne_of_mem_escape rfl text
      rw [List.append_assoc, cut_run hall, ← hcut, escape_append,
        String.toList_append, List.reverse_append]
  | element htag hstarts _ _ ihbody ih =>
    intro before
    obtain ⟨whole, inside, henclosed, hinside, hwhole⟩ := cut_element htag hstarts (ihbody "")
    obtain ⟨ls, received, after, hcontains, htext, hcut⟩ := ih ""
    refine ⟨flush (escape before).toList ++ (whole ++ ls), before ++ received, after, ?_, ?_, ?_⟩
    · exact (contains_flush _ before).append (.element henclosed hinside hcontains)
    · rw [String.append_assoc, ← htext, String.empty_append]
    · intro more
      have hopen : ∀ rest, cut (.text []) (_ ++ rest) = _ := hcut
      rw [List.append_assoc, hwhole, List.reverse_reverse, hopen]
      simp

/-- A written element with any text after it is a document, and its tree is the element. -/
theorem parse_of_spelled {text trailing : String}
    (htext : text.toList = elementChars name attributes body ++ (escape trailing).toList)
    (htag : IsTagOf name (attributes.map (·.name)))
    (hstarts : Starts .outermost (tagChars name attributes) tag ⟨name.toList, inner⟩)
    (hbody : Spelled inner body children content) :
    parse text = .ok (tag.element children content) := by
  apply parse_of_document
  have hcutsTo : CutsTo inner body children content "" := hbody.cutsTo ""
  obtain ⟨ls, inside, henclosed, hinside, hcut⟩ := cut_element htag hstarts hcutsTo
  refine ⟨[], ls, flush (escape trailing).toList, ?_, nofun, ⟨_, _, _, _, _, henclosed, hinside, rfl⟩,
    ?_⟩
  · have hmark : dropMark text.toList = text.toList := by
      rw [htext]
      rfl
    have hend := cut_run (ne_of_mem_escape rfl trailing) [] []
    rw [List.append_nil, List.append_nil] at hend
    rw [pieces_eq_cut, hmark, htext, hcut, hend, cut, Mode.finish, List.reverse_reverse]
    rfl
  · intro l hl
    rw [flush, Lexeme.ofText?] at hl
    split at hl
    · cases hl
    · rw [List.mem_singleton.mp hl]
      rfl

end Elements

end FlowLint.Bundle

import FlowLint.Markup.Document

/-!
# What stands between two tags

The lexemes of a document are read as a grammar: inside an element stand text, character data
and whole elements in any order, and an element is an empty tag or a start tag with all up to
its end tag. Reading such lexemes adds the children and the text that the grammar says to the
innermost open element. Places in the text are no part of the grammar; how lexemes are cut and
references expanded is left to their readers.
-/

namespace FlowLint.Markup

/-! ## The grammar -/

/-- The lexemes of a text, without their places. -/
def pieces (text : String) : List Lexeme :=
  (lexemes text).map (·.2)

def IsEndTag (content : List Char) : Prop :=
  content.head? = some '/'

def IsEmptyTag (content : List Char) : Prop :=
  content.head? ≠ some '/' ∧ content.getLast? = some '/'

def IsStartTag (content : List Char) : Prop :=
  content.head? ≠ some '/' ∧ content.getLast? ≠ some '/'

/-- The characters of a start tag, read in a scope: what the tag says, and the element it opens. -/
structure Starts (scope : Scope) (content : List Char) (tag : Tag) (t : OpenTag) : Prop where
  written : t.name = tagName content
  bindings : scope.enter (attributeItems content) = .ok t.scope
  uri : t.scope.resolve (tagName content) = .ok tag.uri
  name : tag.name = localName (tagName content)
  attributes : readAttributes [] (attributeItems content) = .ok tag.attributes

/-- The element of a tag with all that stands in it. -/
def Tag.element (tag : Tag) (children : List Element) (content : String) : Element :=
  ⟨tag.uri, tag.name, tag.attributes, children, content⟩

/-- Lexemes from a tag to the end of its element, with the scope and the lexemes inside. -/
inductive Enclosed (scope : Scope) : List Lexeme → Tag → Scope → List Lexeme → Prop
  | empty {content : List Char} {tag : Tag} {t : OpenTag} :
    IsEmptyTag content → Starts scope content.dropLast tag t →
      Enclosed scope [.tag content] tag t.scope []
  | pair {content close : List Char} {tag : Tag} {t : OpenTag} {body : List Lexeme} :
    IsStartTag content → Starts scope content tag t → IsEndTag close → endName close = t.name →
      Enclosed scope (.tag content :: (body ++ [.tag close])) tag t.scope body

/-- Lexemes inside an element, with the child elements and the text that stand there. Text runs
and character data add to the text in order, whatever stands between them. -/
inductive Contains : Scope → List Lexeme → List Element → String → Prop
  | nothing {scope : Scope} : Contains scope [] [] ""
  | silent {scope : Scope} {rest : List Lexeme} {es : List Element} {s : String} :
    Contains scope rest es s → Contains scope (.silent :: rest) es s
  | cdata {scope : Scope} {raw : List Char} {rest : List Lexeme} {es : List Element} {s : String} :
    Contains scope rest es s → Contains scope (.cdata raw :: rest) es (String.ofList raw ++ s)
  | text {scope : Scope} {raw run : List Char} {rest : List Lexeme} {es : List Element}
    {s : String} :
    expand raw = .ok run → Contains scope rest es s →
      Contains scope (.text raw :: rest) es (String.ofList run ++ s)
  | element {scope inner : Scope} {ls body rest : List Lexeme} {tag : Tag}
    {children es : List Element} {content s : String} :
    Enclosed scope ls tag inner body → Contains inner body children content →
      Contains scope rest es s → Contains scope (ls ++ rest) (tag.element children content :: es) s

/-- Lexemes that are one whole element. -/
def Writes (scope : Scope) (ls : List Lexeme) (e : Element) : Prop :=
  ∃ tag inner body children content, Enclosed scope ls tag inner body ∧
    Contains inner body children content ∧ e = tag.element children content

/-- Start tags of which the last is still open, with the name of its element. -/
inductive LeftOpen : Scope → List Lexeme → String → Prop
  | innermost {scope : Scope} {content : List Char} {tag : Tag} {t : OpenTag} {body : List Lexeme}
    {es : List Element} {s : String} :
    IsStartTag content → Starts scope content tag t → Contains t.scope body es s →
      LeftOpen scope (.tag content :: body) tag.name
  | outer {scope : Scope} {content : List Char} {tag : Tag} {t : OpenTag} {body rest : List Lexeme}
    {es : List Element} {s name : String} :
    IsStartTag content → Starts scope content tag t → Contains t.scope body es s →
      LeftOpen t.scope rest name → LeftOpen scope (.tag content :: (body ++ rest)) name

/-- What may stand outside all elements, where nothing of it is looked at. -/
def Lexeme.isLoose : Lexeme → Bool
  | text _ | cdata _ | silent => true
  | tag _ | broken _ => false

def Outside (ls : List Lexeme) : Prop :=
  ∀ l ∈ ls, l.isLoose = true

section Grammar

variable {scope inner : Scope} {ls more body : List Lexeme} {es es' : List Element} {s s' : String}
  {tag : Tag}

theorem Enclosed.ne_nil (h : Enclosed scope ls tag inner body) : ls ≠ [] := by
  cases h <;> exact List.cons_ne_nil _ _

theorem contains_nil (h : Contains scope ls es s) (hls : ls = []) : es = [] ∧ s = "" := by
  cases h with
  | nothing => exact ⟨rfl, rfl⟩
  | silent => cases hls
  | cdata => cases hls
  | text => cases hls
  | element henclosed => exact absurd (List.append_eq_nil_iff.mp hls).1 henclosed.ne_nil

theorem Contains.append (h : Contains scope ls es s) (hmore : Contains scope more es' s') :
    Contains scope (ls ++ more) (es ++ es') (s ++ s') := by
  induction h with
  | nothing => simpa using hmore
  | silent _ ih => exact .silent (ih hmore)
  | cdata _ ih =>
    rw [String.append_assoc]
    exact .cdata (ih hmore)
  | text hrun _ ih =>
    rw [String.append_assoc]
    exact .text hrun (ih hmore)
  | element henclosed hbody _ _ ih =>
    rw [List.append_assoc]
    exact .element henclosed hbody (ih hmore)

theorem Contains.whole {children : List Element} {content : String}
    (h : Enclosed scope ls tag inner body) (hbody : Contains inner body children content) :
    Contains scope ls [tag.element children content] "" := by
  rw [← List.append_nil ls]
  exact .element h hbody .nothing

end Grammar

/-- A tag is readable in the same way wherever it stands. -/
@[simp] theorem readTag_eq_ok {position : Nat} {scope : Scope} {content : List Char} {tag : Tag}
    {t : OpenTag} :
    readTag position scope content = .ok (tag, t) ↔ Starts scope content tag t := by
  obtain ⟨uri, name, attributes⟩ := tag
  obtain ⟨written, inner⟩ := t
  unfold readTag
  constructor
  · intro h
    cases henter : scope.enter (attributeItems content) with
    | error e => simp [henter] at h
    | ok found =>
      cases hresolve : found.resolve (tagName content) with
      | error e => simp [henter, hresolve] at h
      | ok uri' =>
        cases hread : readAttributes [] (attributeItems content) with
        | error e => simp [henter, hresolve, hread] at h
        | ok attributes' =>
          simp only [henter, hresolve, hread, Except.ok.injEq, Prod.mk.injEq, Tag.mk.injEq,
            OpenTag.mk.injEq] at h
          obtain ⟨⟨rfl, rfl, rfl⟩, rfl, rfl⟩ := h
          exact ⟨rfl, henter, hresolve, rfl, hread⟩
  · rintro ⟨hwritten, hbindings, huri, hname, hattributes⟩
    simp only at hwritten hbindings huri hname hattributes
    simp only [hbindings, huri, hattributes, hwritten, hname]

/-! ## Reading -/

/-- The element with what it receives: children and text. -/
def Frame.receive (f : Frame) (es : List Element) (s : String) : Frame :=
  { f with children := es.reverse ++ f.children, content := f.content ++ s }

/-- What comes of the lexemes that follow when elements are open, innermost first. -/
def grow (opened : List (OpenTag × Frame)) (root : Option Element) (ls : List (Nat × Lexeme)) :
    Except Error Element :=
  nest (opened.map (·.2)) root (readEvents (opened.map (·.1)) ls).events
    (readEvents (opened.map (·.1)) ls).failure

/-- What comes of the lexemes that follow a whole element. -/
def settle (e : Element) (opened : List (OpenTag × Frame)) (root : Option Element)
    (ls : List (Nat × Lexeme)) : Except Error Element :=
  match opened, root with
  | (t, f) :: outer, root => grow ((t, f.receive [e] "") :: outer) root ls
  | [], none => grow [] (some e) ls
  | [], some _ => .error (.multipleRoots e.name)

theorem parse_eq_grow (text : String) : parse text = grow [] none (lexemes text) :=
  rfl

section Steps

variable {opened outer : List (OpenTag × Frame)} {root : Option Element} {p : Nat}
  {rest : List (Nat × Lexeme)} {t t' : OpenTag} {f : Frame} {raw run content : List Char} {tag : Tag}

@[simp] theorem Frame.receive_nothing (f : Frame) : f.receive [] "" = f := by
  simp [Frame.receive]

@[simp] theorem Frame.receive_receive (f : Frame) (es es' : List Element) (s s' : String) :
    (f.receive es s).receive es' s' = f.receive (es ++ es') (s ++ s') := by
  simp [Frame.receive, String.append_assoc]

@[simp] theorem grow_silent : grow opened root ((p, .silent) :: rest) = grow opened root rest :=
  rfl

@[simp] theorem grow_broken (e : LexicalError) :
    grow opened root ((p, .broken e) :: rest) = .error (.malformed p (.lexical e)) := by
  cases opened <;> rfl

theorem grow_loose {l : Lexeme} (h : l.isLoose = true) :
    grow [] root ((p, l) :: rest) = grow [] root rest := by
  cases l with
  | text | cdata | silent => rfl
  | tag | broken => cases h

@[simp] theorem grow_cdata : grow ((t, f) :: outer) root ((p, .cdata raw) :: rest) =
    grow ((t, f.receive [] (String.ofList raw)) :: outer) root rest :=
  rfl

theorem grow_text (hrun : expand raw = .ok run) :
    grow ((t, f) :: outer) root ((p, .text raw) :: rest) =
      grow ((t, f.receive [] (String.ofList run)) :: outer) root rest := by
  simp only [grow, List.map_cons, readEvents_text hrun]
  rfl

theorem grow_badText {e : ReferenceError} (hrun : expand raw = .error e) :
    grow ((t, f) :: outer) root ((p, .text raw) :: rest) =
      .error (.malformed p (.badReference e)) := by
  simp only [grow, List.map_cons, readEvents, List.isEmpty_cons, Bool.false_eq_true, ↓reduceIte, hrun]
  rfl

theorem grow_start (hkind : IsStartTag content)
    (htag : Starts (currentScope (opened.map (·.1))) content tag t) :
    grow opened root ((p, .tag content) :: rest) =
      grow ((t, ⟨tag, [], ""⟩) :: opened) root rest := by
  obtain ⟨hhead, hlast⟩ := hkind
  simp only [grow, readEvents, if_neg hhead, if_neg hlast, readTag_eq_ok.mpr htag]
  rfl

theorem grow_empty (hkind : IsEmptyTag content)
    (htag : Starts (currentScope (opened.map (·.1))) content.dropLast tag t) :
    grow opened root ((p, .tag content) :: rest) = settle (tag.element [] "") opened root rest := by
  obtain ⟨hhead, hlast⟩ := hkind
  simp only [grow, readEvents, if_neg hhead, if_pos hlast, readTag_eq_ok.mpr htag]
  cases opened with
  | nil => cases root <;> rfl
  | cons first outer =>
    simp only [settle, grow, Frame.receive, String.append_empty]
    rfl

theorem grow_badStart {e : Error} (hkind : IsStartTag content)
    (htag : readTag p (currentScope (opened.map (·.1))) content = .error e) :
    grow opened root ((p, .tag content) :: rest) = .error e := by
  obtain ⟨hhead, hlast⟩ := hkind
  simp only [grow, readEvents, if_neg hhead, if_neg hlast, htag]
  cases opened <;> rfl

theorem grow_badEmpty {e : Error} (hkind : IsEmptyTag content)
    (htag : readTag p (currentScope (opened.map (·.1))) content.dropLast = .error e) :
    grow opened root ((p, .tag content) :: rest) = .error e := by
  obtain ⟨hhead, hlast⟩ := hkind
  simp only [grow, readEvents, if_neg hhead, if_pos hlast, htag]
  cases opened <;> rfl

theorem grow_end (hkind : IsEndTag content) (hname : endName content = t.name) :
    grow ((t, f) :: outer) root ((p, .tag content) :: rest) = settle f.close outer root rest := by
  have hhead : content.head? = some '/' := hkind
  simp only [grow, List.map_cons, readEvents, if_pos hhead, if_pos hname.symm]
  cases outer with
  | nil => cases root <;> rfl
  | cons first outer =>
    simp only [settle, grow, Frame.receive, String.append_empty]
    rfl

theorem grow_otherEnd (hkind : IsEndTag content) (hname : endName content ≠ t.name) :
    grow ((t, f) :: outer) root ((p, .tag content) :: rest) =
      .error (.malformed p (.mismatchedEnd (String.ofList t.name) (String.ofList (endName content)))) := by
  have hhead : content.head? = some '/' := hkind
  simp only [grow, List.map_cons, readEvents, if_pos hhead, if_neg hname.symm]
  rfl

theorem grow_strayEnd (hkind : IsEndTag content) :
    grow [] root ((p, .tag content) :: rest) =
      .error (.malformed p (.strayEnd (String.ofList (endName content)))) := by
  have hhead : content.head? = some '/' := hkind
  simp only [grow, List.map_nil, readEvents, if_pos hhead]
  rfl

end Steps

/-! ## Whole elements -/

section Whole

variable {scope inner : Scope} {ls body : List Lexeme} {es children : List Element}
  {s content : String} {tag : Tag} {e : Element}

theorem placed_cons {placed : List (Nat × Lexeme)} {l : Lexeme} (h : placed.map (·.2) = l :: ls) :
    ∃ p after, placed = (p, l) :: after ∧ after.map (·.2) = ls := by
  obtain ⟨⟨p, l'⟩, after, rfl, hl, hafter⟩ := List.map_eq_cons_iff.mp h
  simp only at hl
  subst hl
  exact ⟨p, after, rfl, hafter⟩

/-- If the inside of an element is read as the grammar says, so is the element. -/
theorem grow_enclosed (h : Enclosed scope ls tag inner body)
    (hbody : Contains inner body children content)
    (hinside : ∀ placed : List (Nat × Lexeme), placed.map (·.2) = body →
      ∀ (t : OpenTag) (f : Frame) (outer : List (OpenTag × Frame)) (root : Option Element)
        (rest : List (Nat × Lexeme)), t.scope = inner →
        grow ((t, f) :: outer) root (placed ++ rest) =
          grow ((t, f.receive children content) :: outer) root rest)
    {placed : List (Nat × Lexeme)} (hplaced : placed.map (·.2) = ls)
    {opened : List (OpenTag × Frame)} (hscope : currentScope (opened.map (·.1)) = scope)
    (root : Option Element) (rest : List (Nat × Lexeme)) :
    grow opened root (placed ++ rest) = settle (tag.element children content) opened root rest := by
  subst hscope
  cases h with
  | empty hkind htag =>
    obtain ⟨p, after, rfl, hafter⟩ := placed_cons hplaced
    rw [List.map_eq_nil_iff] at hafter
    subst hafter
    obtain ⟨rfl, rfl⟩ := contains_nil hbody rfl
    exact grow_empty hkind htag
  | pair hkind htag hend hname =>
    obtain ⟨p, after, rfl, hafter⟩ := placed_cons hplaced
    obtain ⟨placedBody, placedEnd, rfl, hplacedBody, hplacedEnd⟩ := List.map_eq_append_iff.mp hafter
    obtain ⟨q, none, rfl, hnone⟩ := placed_cons hplacedEnd
    rw [List.map_eq_nil_iff] at hnone
    subst hnone
    rw [List.cons_append, grow_start hkind htag, List.append_assoc,
      hinside placedBody hplacedBody _ _ _ _ _ rfl, List.singleton_append, grow_end hend hname]
    simp [Frame.close, Frame.receive, Tag.element]

/-- What the grammar says of lexemes is what the innermost open element receives. -/
theorem grow_contains (h : Contains scope ls es s) :
    ∀ placed : List (Nat × Lexeme), placed.map (·.2) = ls →
      ∀ (t : OpenTag) (f : Frame) (outer : List (OpenTag × Frame)) (root : Option Element)
        (rest : List (Nat × Lexeme)), t.scope = scope →
        grow ((t, f) :: outer) root (placed ++ rest) =
          grow ((t, f.receive es s) :: outer) root rest := by
  induction h with
  | nothing =>
    intro placed hplaced t f outer root rest _
    rw [List.map_eq_nil_iff.mp hplaced, List.nil_append, Frame.receive_nothing]
  | silent _ ih =>
    intro placed hplaced t f outer root rest hscope
    obtain ⟨p, after, rfl, hafter⟩ := placed_cons hplaced
    simp [ih after hafter _ _ _ _ _ hscope]
  | cdata _ ih =>
    intro placed hplaced t f outer root rest hscope
    obtain ⟨p, after, rfl, hafter⟩ := placed_cons hplaced
    simp [ih after hafter _ _ _ _ _ hscope]
  | text hrun _ ih =>
    intro placed hplaced t f outer root rest hscope
    obtain ⟨p, after, rfl, hafter⟩ := placed_cons hplaced
    simp [grow_text hrun, ih after hafter _ _ _ _ _ hscope]
  | element henclosed hbody _ ihbody ih =>
    intro placed hplaced t f outer root rest hscope
    obtain ⟨placedElement, after, rfl, hplacedElement, hafter⟩ := List.map_eq_append_iff.mp hplaced
    have hcurrent : currentScope (((t, f) :: outer).map (·.1)) = _ := hscope
    rw [List.append_assoc, grow_enclosed henclosed hbody ihbody hplacedElement hcurrent, settle,
      ih after hafter _ _ _ _ _ hscope, Frame.receive_receive, List.singleton_append,
      String.empty_append]

/-- A start tag and what stands behind it leave its element open with what it has received. -/
theorem grow_opened {content : List Char} {t : OpenTag} (hkind : IsStartTag content)
    (htag : Starts scope content tag t) {placed : List (Nat × Lexeme)}
    (hbody : Contains t.scope (placed.map (·.2)) es s) {opened : List (OpenTag × Frame)}
    (hscope : currentScope (opened.map (·.1)) = scope) (root : Option Element) (p : Nat)
    (rest : List (Nat × Lexeme)) :
    grow opened root ((p, .tag content) :: (placed ++ rest)) =
      grow ((t, Frame.receive ⟨tag, [], ""⟩ es s) :: opened) root rest := by
  subst hscope
  rw [grow_start hkind htag, grow_contains hbody placed rfl _ _ _ _ _ rfl]

/-- The lexemes of an element settle it where they stand. -/
theorem grow_writes (h : Writes scope ls e) {placed : List (Nat × Lexeme)}
    (hplaced : placed.map (·.2) = ls) {opened : List (OpenTag × Frame)}
    (hscope : currentScope (opened.map (·.1)) = scope) (root : Option Element)
    (rest : List (Nat × Lexeme)) :
    grow opened root (placed ++ rest) = settle e opened root rest := by
  obtain ⟨tag, inner, body, children, content, henclosed, hbody, rfl⟩ := h
  exact grow_enclosed henclosed hbody (grow_contains hbody) hplaced hscope root rest

/-- Nothing outside the outermost element changes what has been read. -/
theorem grow_outside {root : Option Element} {before rest : List (Nat × Lexeme)}
    (h : Outside (before.map (·.2))) : grow [] root (before ++ rest) = grow [] root rest := by
  induction before with
  | nil => rfl
  | cons first before ih =>
    obtain ⟨hfirst, hbefore⟩ := List.forall_mem_cons.mp h
    rw [List.cons_append, grow_loose hfirst, ih hbefore]

/-- What never closes is reported by the name of the element left open. -/
theorem grow_leftOpen {name : String} (h : LeftOpen scope ls name) :
    ∀ placed : List (Nat × Lexeme), placed.map (·.2) = ls →
      ∀ (opened : List (OpenTag × Frame)) (root : Option Element),
        currentScope (opened.map (·.1)) = scope →
        grow opened root placed = .error (.unclosed name) := by
  induction h with
  | innermost hkind htag hbody =>
    intro placed hplaced opened root hscope
    obtain ⟨p, after, rfl, rfl⟩ := placed_cons hplaced
    rw [← List.append_nil after, grow_opened hkind htag hbody hscope]
    rfl
  | outer hkind htag hbody _ ih =>
    intro placed hplaced opened root hscope
    obtain ⟨p, after, rfl, hafter⟩ := placed_cons hplaced
    obtain ⟨placedBody, placedRest, rfl, rfl, hplacedRest⟩ := List.map_eq_append_iff.mp hafter
    rw [grow_opened hkind htag hbody hscope]
    exact ih placedRest hplacedRest _ root rfl

end Whole

end FlowLint.Markup

import FlowLint.Proofs.Markup.Contents
import Mathlib.Data.List.Basic

/-!
# Documents as trees

A text is a document exactly if its lexemes are one whole element with nothing but loose text and
silent markup around it, and the tree of the document is that of the grammar. What goes wrong with
the tree is told from what cannot be read at all: no element, an element still open at the end,
a second element. About a text that cannot be read no more is said than that it is none of these.
-/

namespace FlowLint.Markup

/-! ## Texts and their trees -/

/-- The lexemes of a text that has one outermost element. -/
def IsDocument (ls : List Lexeme) (e : Element) : Prop :=
  ∃ before es after, ls = before ++ es ++ after ∧ Outside before ∧ Writes .outermost es e ∧
    Outside after

/-- The lexemes of a text that ends inside an element. An element may be complete before it. -/
def EndsInside (ls : List Lexeme) (name : String) : Prop :=
  ∃ before rest, ls = before ++ rest ∧ (Outside before ∨ ∃ e, IsDocument before e) ∧
    LeftOpen .outermost rest name

/-- The lexemes of a text with a second outermost element; what follows it does not matter. -/
def HasSecond (ls : List Lexeme) (name : String) : Prop :=
  ∃ before es rest e second, ls = before ++ es ++ rest ∧ IsDocument before e ∧
    Writes .outermost es second ∧ name = second.name

/-- An error about the tree as a whole, not about something that cannot be read. -/
def Error.IsOfTree : Error → Prop
  | noRoot | multipleRoots _ | unclosed _ => True
  | malformed .. | unknownQualifier _ => False

theorem not_isOfTree_malformed (p : Nat) (fault : Fault) : ¬ (Error.malformed p fault).IsOfTree :=
  not_false

/-- A tag that cannot be read is no error of the tree. -/
theorem not_isOfTree_of_readTag {p : Nat} {scope : Scope} {content : List Char} {e : Error}
    (h : readTag p scope content = .error e) : ¬ e.IsOfTree := by
  unfold readTag at h
  dsimp only at h
  split at h
  · cases h
    exact not_false
  · split at h
    · cases h
      exact not_false
    · split at h
      · cases h
        exact not_false
      · cases h

mutual
/-- The names in a tree in document order, each with the number of elements around it. -/
def Element.levels (depth : Nat) : Element → List (Nat × String)
  | ⟨_, name, _, children, _⟩ => (depth, name) :: Element.levelsOfAll (depth + 1) children
/-- The names in a forest in document order. -/
def Element.levelsOfAll (depth : Nat) : List Element → List (Nat × String)
  | [] => []
  | e :: rest => Element.levels depth e ++ Element.levelsOfAll depth rest
end

/-- The names in start tags and empty tags in order, each with the number of elements open there. -/
def openings (depth : Nat) : List Lexeme → List (Nat × String)
  | [] => []
  | .tag content :: rest =>
    if content.head? = some '/' then openings (depth - 1) rest
    else if content.getLast? = some '/' then
      (depth, localName (tagName content.dropLast)) :: openings depth rest
    else (depth, localName (tagName content)) :: openings (depth + 1) rest
  | .text _ :: rest | .cdata _ :: rest | .silent :: rest | .broken _ :: rest => openings depth rest

/-! ## Where reading stops -/

/-- What stands where the inside of an element cannot be read further. -/
inductive Stop (t : OpenTag) : List (Nat × Lexeme) → Prop
  | closed {q : Nat} {close : List Char} {more : List (Nat × Lexeme)} :
    IsEndTag close → endName close = t.name → Stop t ((q, .tag close) :: more)
  | ended : Stop t []
  | leftOpen {rest : List (Nat × Lexeme)} {name : String} :
    LeftOpen t.scope (rest.map (·.2)) name → Stop t rest
  | unreadable {rest : List (Nat × Lexeme)} {e : Error} :
    ¬ e.IsOfTree →
      (∀ (f : Frame) (outer : List (OpenTag × Frame)) (root : Option Element),
        grow ((t, f) :: outer) root rest = .error e) → Stop t rest

/-- Lexemes are the inside of an element up to a place where reading stops. -/
def Splits (t : OpenTag) (ls : List (Nat × Lexeme)) : Prop :=
  ∃ body rest es s, ls = body ++ rest ∧ Contains t.scope (body.map (·.2)) es s ∧ Stop t rest

section Splits

variable {t : OpenTag} {ls rest : List (Nat × Lexeme)} {es : List Element} {s : String}

/-- Complete contents in front of what is split do not matter. -/
theorem Splits.prepend (first : List (Nat × Lexeme))
    (hfirst : Contains t.scope (first.map (·.2)) es s) (h : Splits t ls) :
    Splits t (first ++ ls) := by
  obtain ⟨body, rest, es', s', rfl, hbody, hstop⟩ := h
  refine ⟨first ++ body, rest, es ++ es', s ++ s', (List.append_assoc _ _ _).symm, ?_, hstop⟩
  rw [List.map_append]
  exact hfirst.append hbody

theorem Stop.splits (h : Stop t rest) : Splits t rest :=
  ⟨[], rest, [], "", rfl, .nothing, h⟩

/-- A start tag is closed by what follows, left open, or met by something that is refused. -/
theorem splits_start {p : Nat} {content : List Char} {tag : Tag} {t' : OpenTag}
    (hkind : IsStartTag content) (htag : Starts t.scope content tag t') (hinside : Splits t' rest)
    (hafter : ∀ body q close more, rest = body ++ (q, .tag close) :: more → Splits t more) :
    Splits t ((p, .tag content) :: rest) := by
  obtain ⟨body, stopped, es, s, rfl, hbody, hstop⟩ := hinside
  cases hstop with
  | @closed q close more hend hname =>
    have hwhole : Contains t.scope
        (((p, Lexeme.tag content) :: (body ++ [(q, Lexeme.tag close)])).map (·.2))
        [tag.element es s] "" := by
      rw [List.map_cons, List.map_append]
      exact .whole (.pair hkind htag hend hname) hbody
    have hmore := (hafter body q close more rfl).prepend _ hwhole
    rw [List.cons_append, List.append_assoc, List.singleton_append] at hmore
    exact hmore
  | ended =>
    rw [List.append_nil]
    have hleftOpen : Stop t ((p, Lexeme.tag content) :: body) :=
      Stop.leftOpen (.innermost hkind htag hbody)
    exact hleftOpen.splits
  | leftOpen hopen =>
    apply Stop.splits
    apply Stop.leftOpen
    rw [List.map_cons, List.map_append]
    exact .outer hkind htag hbody hopen
  | unreadable htree hgrow =>
    apply Stop.splits
    apply Stop.unreadable htree
    intro f outer root
    have hscope : currentScope (((t, f) :: outer).map (·.1)) = t.scope := rfl
    rw [grow_opened hkind htag hbody hscope]
    exact hgrow _ _ _

/-- By induction on the number of lexemes: an element inside is read to its end first, and what
follows it is shorter. -/
theorem splits (t : OpenTag) (ls : List (Nat × Lexeme)) : Splits t ls := by
  induction hn : ls.length using Nat.strongRecOn generalizing t ls with
  | ind n ih =>
    have hshorter : ∀ (t' : OpenTag) (ls' : List (Nat × Lexeme)), ls'.length < ls.length →
        Splits t' ls' := fun t' ls' hlt => ih ls'.length (hn ▸ hlt) t' ls' rfl
    cases ls with
    | nil => exact Stop.ended.splits
    | cons first rest =>
      obtain ⟨p, l⟩ := first
      have hrest : Splits t rest := hshorter t rest (Nat.lt_succ_self _)
      cases l with
      | silent => exact hrest.prepend [(p, .silent)] (.silent .nothing)
      | cdata raw => exact hrest.prepend [(p, .cdata raw)] (.cdata .nothing)
      | broken e =>
        have hstop : Stop t ((p, Lexeme.broken e) :: rest) :=
          Stop.unreadable (not_isOfTree_malformed p _) fun _ _ _ => grow_broken e
        exact hstop.splits
      | text raw =>
        cases hrun : expand raw with
        | ok run => exact hrest.prepend [(p, .text raw)] (.text hrun .nothing)
        | error e =>
          have hstop : Stop t ((p, Lexeme.text raw) :: rest) :=
            Stop.unreadable (not_isOfTree_malformed p _) fun _ _ _ => grow_badText hrun
          exact hstop.splits
      | tag content =>
        by_cases hend : content.head? = some '/'
        · by_cases hname : endName content = t.name
          · have hstop : Stop t ((p, Lexeme.tag content) :: rest) := Stop.closed hend hname
            exact hstop.splits
          · have hstop : Stop t ((p, Lexeme.tag content) :: rest) :=
              Stop.unreadable (not_isOfTree_malformed p _) fun _ _ _ => grow_otherEnd hend hname
            exact hstop.splits
        by_cases hlast : content.getLast? = some '/'
        · have hkind : IsEmptyTag content := ⟨hend, hlast⟩
          cases hread : readTag p t.scope content.dropLast with
          | error e =>
            have hstop : Stop t ((p, Lexeme.tag content) :: rest) :=
              Stop.unreadable (not_isOfTree_of_readTag hread) fun _ _ _ => grow_badEmpty hkind hread
            exact hstop.splits
          | ok found =>
            have hwhole : Contains t.scope [.tag content] _ "" :=
              .whole (.empty hkind (readTag_eq_ok.mp hread)) .nothing
            exact hrest.prepend [(p, .tag content)] hwhole
        · have hkind : IsStartTag content := ⟨hend, hlast⟩
          cases hread : readTag p t.scope content with
          | error e =>
            have hstop : Stop t ((p, Lexeme.tag content) :: rest) :=
              Stop.unreadable (not_isOfTree_of_readTag hread) fun _ _ _ => grow_badStart hkind hread
            exact hstop.splits
          | ok found =>
            have hinside : Splits found.2 rest := hshorter found.2 rest (Nat.lt_succ_self _)
            apply splits_start hkind (readTag_eq_ok.mp hread) hinside
            intro body q close more hsplit
            apply hshorter
            rw [hsplit, List.length_cons, List.length_append, List.length_cons]
            omega

end Splits

/-! ## Outside all elements -/

/-- What stands where no element is open. -/
inductive Opening (ls : List (Nat × Lexeme)) : Prop
  | nothing : Outside (ls.map (·.2)) → Opening ls
  | element (before placed rest : List (Nat × Lexeme)) {e : Element} :
    ls = before ++ placed ++ rest → Outside (before.map (·.2)) →
      Writes .outermost (placed.map (·.2)) e → Opening ls
  | leftOpen (before rest : List (Nat × Lexeme)) {name : String} :
    ls = before ++ rest → Outside (before.map (·.2)) →
      LeftOpen .outermost (rest.map (·.2)) name → Opening ls
  | unreadable {e : Error} :
    ¬ e.IsOfTree → (∀ root, grow [] root ls = .error e) → Opening ls

section Opening

variable {ls rest : List (Nat × Lexeme)} {p : Nat} {content : List Char} {l : Lexeme}

theorem Opening.loose (hloose : l.isLoose = true) (h : Opening rest) : Opening ((p, l) :: rest) := by
  have hmore : ∀ {before : List (Nat × Lexeme)}, Outside (before.map (·.2)) →
      Outside (((p, l) :: before).map (·.2)) := fun hbefore =>
    List.forall_mem_cons.mpr ⟨hloose, hbefore⟩
  cases h with
  | nothing hrest => exact .nothing (hmore hrest)
  | element before placed after hsplit hbefore hwrites =>
    exact .element _ placed after (congrArg (List.cons (p, l)) hsplit) (hmore hbefore) hwrites
  | leftOpen before after hsplit hbefore hopen =>
    exact .leftOpen _ after (congrArg (List.cons (p, l)) hsplit) (hmore hbefore) hopen
  | unreadable htree hgrow =>
    exact .unreadable htree fun root => (grow_loose hloose).trans (hgrow root)

theorem opening_empty (hkind : IsEmptyTag content) : Opening ((p, .tag content) :: rest) := by
  cases hread : readTag p .outermost content.dropLast with
  | error e =>
    have hnotTree : ¬e.IsOfTree := not_isOfTree_of_readTag hread
    exact .unreadable hnotTree fun root => grow_badEmpty hkind hread
  | ok found =>
    have hwrites : Writes .outermost [.tag content] (found.1.element [] "") :=
      ⟨found.1, found.2.scope, [], [], "", .empty hkind (readTag_eq_ok.mp hread), .nothing, rfl⟩
    exact .element [] [(p, .tag content)] rest rfl nofun hwrites

theorem opening_start (hkind : IsStartTag content) : Opening ((p, .tag content) :: rest) := by
  cases hread : readTag p .outermost content with
  | error e =>
    have hnotTree : ¬e.IsOfTree := not_isOfTree_of_readTag hread
    exact .unreadable hnotTree fun root => grow_badStart hkind hread
  | ok found =>
    have htag : Starts .outermost content found.1 found.2 := readTag_eq_ok.mp hread
    obtain ⟨body, stopped, es, s, rfl, hbody, hstop⟩ := splits found.2 rest
    cases hstop with
    | @closed q close more hend hname =>
      have hwrites : Writes .outermost
          (((p, Lexeme.tag content) :: (body ++ [(q, Lexeme.tag close)])).map (·.2))
          (found.1.element es s) := by
        rw [List.map_cons, List.map_append]
        exact ⟨found.1, found.2.scope, _, es, s, .pair hkind htag hend hname, hbody, rfl⟩
      apply Opening.element [] _ more _ nofun hwrites
      simp
    | ended =>
      apply Opening.leftOpen [] _ rfl nofun
      rw [List.append_nil]
      exact .innermost hkind htag hbody
    | leftOpen hopen =>
      apply Opening.leftOpen [] _ rfl nofun
      rw [List.map_cons, List.map_append]
      exact .outer hkind htag hbody hopen
    | unreadable htree hgrow =>
      apply Opening.unreadable htree
      intro root
      have hscope : currentScope (([] : List (OpenTag × Frame)).map (·.1)) = .outermost := rfl
      rw [grow_opened hkind htag hbody hscope]
      exact hgrow _ _ _

/-- Lexemes outside any element are nothing to grow, open the document or are refused. -/
theorem opening (ls : List (Nat × Lexeme)) : Opening ls := by
  induction ls with
  | nil => exact .nothing nofun
  | cons first rest ih =>
    obtain ⟨p, l⟩ := first
    cases l with
    | text | cdata | silent => exact ih.loose rfl
    | broken e =>
      have hnotTree : ¬(Error.malformed p (Fault.lexical e)).IsOfTree :=
        not_isOfTree_malformed p _
      exact .unreadable hnotTree fun root => grow_broken e
    | tag content =>
      by_cases hend : content.head? = some '/'
      · have hnotTree : ¬(Error.malformed p
            (Fault.strayEnd (String.ofList (endName content)))).IsOfTree :=
          not_isOfTree_malformed p _
        exact .unreadable hnotTree fun root => grow_strayEnd hend
      by_cases hlast : content.getLast? = some '/'
      · exact opening_empty ⟨hend, hlast⟩
      · exact opening_start ⟨hend, hlast⟩

end Opening

/-! ## Depths -/

section Depths

variable {scope inner : Scope} {ls body : List Lexeme} {es children : List Element}
  {s content : String} {tag : Tag} {e : Element}

theorem levels_element (depth : Nat) (tag : Tag) (children : List Element) (content : String) :
    (tag.element children content).levels depth =
      (depth, tag.name) :: Element.levelsOfAll (depth + 1) children := by
  rw [Tag.element, Element.levels]

theorem openings_enclosed (h : Enclosed scope ls tag inner body)
    (hbody : Contains inner body children content)
    (hinside : ∀ depth rest, openings depth (body ++ rest) =
      Element.levelsOfAll depth children ++ openings depth rest)
    (depth : Nat) (rest : List Lexeme) :
    openings depth (ls ++ rest) =
      (tag.element children content).levels depth ++ openings depth rest := by
  cases h with
  | empty hkind htag =>
    obtain ⟨hhead, hlast⟩ := hkind
    obtain ⟨rfl, rfl⟩ := contains_nil hbody rfl
    rw [List.singleton_append, openings, if_neg hhead, if_pos hlast, ← htag.name, levels_element]
    rfl
  | pair hkind htag hend hname =>
    obtain ⟨hhead, hlast⟩ := hkind
    have hclosed : ∀ close : List Char, close.head? = some '/' →
        openings (depth + 1) (.tag close :: rest) = openings depth rest := by
      intro close hslash
      rw [openings, if_pos hslash]
      rfl
    rw [List.cons_append, openings, if_neg hhead, if_neg hlast, ← htag.name, levels_element,
      List.append_assoc, hinside, List.singleton_append, hclosed _ hend]
    rfl

/-- The openings of contents are the levels of their elements. -/
theorem openings_contains (h : Contains scope ls es s) :
    ∀ depth rest, openings depth (ls ++ rest) =
      Element.levelsOfAll depth es ++ openings depth rest := by
  induction h with
  | nothing => exact fun _ _ => rfl
  | silent _ ih | cdata _ ih | text _ _ ih => exact ih
  | element henclosed hbody _ ihbody ih =>
    intro depth rest
    rw [List.append_assoc, openings_enclosed henclosed hbody ihbody, ih, Element.levelsOfAll,
      List.append_assoc]

theorem openings_outside (h : Outside ls) (depth : Nat) (rest : List Lexeme) :
    openings depth (ls ++ rest) = openings depth rest := by
  induction ls with
  | nil => rfl
  | cons l before ih =>
    obtain ⟨hl, hbefore⟩ := List.forall_mem_cons.mp h
    cases l with
    | text | cdata | silent => exact ih hbefore
    | tag | broken => cases hl

/-- Each start tag and each empty tag is an element, in the element that is open there. -/
theorem openings_document (h : IsDocument ls e) : openings 0 ls = e.levels 0 := by
  obtain ⟨before, placed, after, rfl, hbefore, hwrites, hafter⟩ := h
  obtain ⟨tag, inner, body, children, content, henclosed, hbody, rfl⟩ := hwrites
  have hnone : openings 0 after = [] := by
    rw [← List.append_nil after, openings_outside hafter]
    rfl
  have hopeningsContains : ∀ depth rest, openings depth (body ++ rest) =
      Element.levelsOfAll depth children ++ openings depth rest :=
    openings_contains hbody
  rw [List.append_assoc, openings_outside hbefore,
    openings_enclosed henclosed hbody hopeningsContains, hnone, List.append_nil]

end Depths

/-! ## Outcomes -/

/-- What comes of a text, by its lexemes. -/
inductive Outcome (ls : List Lexeme) : Except Error Element → Prop
  | document {e : Element} : IsDocument ls e → Outcome ls (.ok e)
  | nothing : Outside ls → Outcome ls (.error .noRoot)
  | leftOpen {name : String} : EndsInside ls name → Outcome ls (.error (.unclosed name))
  | second {name : String} : HasSecond ls name → Outcome ls (.error (.multipleRoots name))
  | unreadable {e : Error} : ¬ e.IsOfTree → Outcome ls (.error e)

section Outcome

variable {ls rest : List (Nat × Lexeme)} {e : Element} {name : String}

theorem grow_outside_nil {root : Option Element} (h : Outside (ls.map (·.2))) :
    grow [] root ls = grow [] root [] := by
  rw [← List.append_nil ls, grow_outside h]

/-- A document grows into its element. -/
theorem grow_document (h : IsDocument (ls.map (·.2)) e) (rest : List (Nat × Lexeme)) :
    grow [] none (ls ++ rest) = grow [] (some e) rest := by
  obtain ⟨before, es, after, hsplit, hbefore, hwrites, hafter⟩ := h
  obtain ⟨placed, placedAfter, rfl, hplaced, rfl⟩ := List.map_eq_append_iff.mp hsplit
  obtain ⟨placedBefore, placedElement, rfl, rfl, hplacedElement⟩ := List.map_eq_append_iff.mp hplaced
  rw [List.append_assoc, List.append_assoc, grow_outside hbefore,
    grow_writes hwrites hplacedElement rfl, settle, grow_outside hafter]

theorem grow_endsInside (h : EndsInside (ls.map (·.2)) name) :
    grow [] none ls = .error (.unclosed name) := by
  obtain ⟨before, rest, hsplit, hbefore, hopen⟩ := h
  obtain ⟨placedBefore, placedRest, rfl, rfl, hrest⟩ := List.map_eq_append_iff.mp hsplit
  rcases hbefore with hbefore | ⟨e, hbefore⟩
  · rw [grow_outside hbefore, grow_leftOpen hopen placedRest hrest _ _ rfl]
  · rw [grow_document hbefore, grow_leftOpen hopen placedRest hrest _ _ rfl]

theorem grow_hasSecond (h : HasSecond (ls.map (·.2)) name) :
    grow [] none ls = .error (.multipleRoots name) := by
  obtain ⟨before, es, rest, e, second, hsplit, hbefore, hwrites, rfl⟩ := h
  obtain ⟨placed, placedRest, rfl, hplaced, -⟩ := List.map_eq_append_iff.mp hsplit
  obtain ⟨placedBefore, placedSecond, rfl, rfl, hsecond⟩ := List.map_eq_append_iff.mp hplaced
  rw [List.append_assoc, grow_document hbefore, grow_writes hwrites hsecond rfl, settle]

/-- After the first element what follows is looked at in the same way once more. -/
theorem outcome_after {before placed : List (Nat × Lexeme)} (hbefore : Outside (before.map (·.2)))
    (hwrites : Writes .outermost (placed.map (·.2)) e) (rest : List (Nat × Lexeme)) :
    Outcome ((before ++ placed ++ rest).map (·.2)) (grow [] none (before ++ placed ++ rest)) := by
  have hdocument : ∀ {after : List (Nat × Lexeme)}, Outside (after.map (·.2)) →
      IsDocument ((before ++ placed ++ after).map (·.2)) e := by
    intro after hafter
    rw [List.map_append, List.map_append]
    exact ⟨_, _, _, rfl, hbefore, hwrites, hafter⟩
  have hgrow : grow [] none (before ++ placed ++ rest) = grow [] (some e) rest := by
    rw [List.append_assoc, grow_outside hbefore, grow_writes hwrites rfl rfl, settle]
  cases opening rest with
  | nothing hrest =>
    rw [hgrow, grow_outside_nil hrest]
    exact .document (hdocument hrest)
  | @element before' placed' rest' second hsplit hbefore' hwrites' =>
    have hsecond : HasSecond ((before ++ placed ++ rest).map (·.2)) second.name := by
      have hisDocument : IsDocument ((before ++ placed ++ before').map (·.2)) e :=
        hdocument hbefore'
      refine ⟨_, _, rest'.map (·.2), e, second, ?_, hisDocument, hwrites', rfl⟩
      simp only [hsplit, List.map_append, List.append_assoc]
    rw [grow_hasSecond hsecond]
    exact .second hsecond
  | @leftOpen before' rest' name hsplit hbefore' hopen =>
    have hends : EndsInside ((before ++ placed ++ rest).map (·.2)) name := by
      have hisDocument : IsDocument ((before ++ placed ++ before').map (·.2)) e :=
        hdocument hbefore'
      refine ⟨_, _, ?_, .inr ⟨e, hisDocument⟩, hopen⟩
      simp only [hsplit, List.map_append, List.append_assoc]
    rw [grow_endsInside hends]
    exact .leftOpen hends
  | unreadable htree hrest =>
    rw [hgrow, hrest]
    exact .unreadable htree

/-- Every sequence of lexemes has one of the outcomes. -/
theorem outcome_grow (ls : List (Nat × Lexeme)) : Outcome (ls.map (·.2)) (grow [] none ls) := by
  cases opening ls with
  | nothing hls =>
    rw [grow_outside_nil hls]
    exact .nothing hls
  | element before placed rest hsplit hbefore hwrites =>
    rw [hsplit]
    exact outcome_after hbefore hwrites rest
  | @leftOpen before rest name hsplit hbefore hopen =>
    have hends : EndsInside (ls.map (·.2)) name := by
      rw [hsplit, List.map_append]
      exact ⟨_, _, rfl, .inl hbefore, hopen⟩
    rw [grow_endsInside hends]
    exact .leftOpen hends
  | unreadable htree hls =>
    rw [hls]
    exact .unreadable htree

end Outcome

theorem parse_of_document {text : String} {e : Element} (h : IsDocument (pieces text) e) :
    parse text = .ok e := by
  rw [parse_eq_grow, ← List.append_nil (lexemes text), grow_document h]
  rfl

/-- A text is a document exactly if the grammar makes a tree of its lexemes, and then that tree is
its own: one element for each start tag and each empty tag, as deep as there are elements open.
The three errors about trees are returned exactly where no element, an open one or a second one
stands in the way. -/
theorem parse_nesting (text : String) :
    (∀ e, parse text = .ok e ↔ IsDocument (pieces text) e) ∧
      (∀ e, parse text = .ok e → e.levels 0 = openings 0 (pieces text)) ∧
      (parse text = .error .noRoot ↔ Outside (pieces text)) ∧
      (∀ name, parse text = .error (.unclosed name) ↔ EndsInside (pieces text) name) ∧
      ∀ name, parse text = .error (.multipleRoots name) ↔ HasSecond (pieces text) name := by
  have houtcome : Outcome (pieces text) (parse text) := outcome_grow (lexemes text)
  have hdocument : ∀ e, parse text = .ok e → IsDocument (pieces text) e := by
    intro e h
    rw [h] at houtcome
    cases houtcome with
    | document hdocument => exact hdocument
  refine ⟨fun e => ⟨hdocument e, parse_of_document⟩, ?_, ⟨?_, ?_⟩, fun name => ⟨?_, ?_⟩,
    fun name => ⟨?_, ?_⟩⟩
  · intro e h
    exact (openings_document (hdocument e h)).symm
  · intro h
    rw [h] at houtcome
    cases houtcome with
    | nothing houtside => exact houtside
    | unreadable htree => exact absurd trivial htree
  · intro houtside
    exact grow_outside_nil houtside
  · intro h
    rw [h] at houtcome
    cases houtcome with
    | leftOpen hends => exact hends
    | unreadable htree => exact absurd trivial htree
  · exact grow_endsInside
  · intro h
    rw [h] at houtcome
    cases houtcome with
    | second hsecond => exact hsecond
    | unreadable htree => exact absurd trivial htree
  · exact grow_hasSecond

end FlowLint.Markup

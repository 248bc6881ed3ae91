import FlowLint.Proofs.Markup.Nesting
import FlowLint.Proofs.Markup.Written
import FlowLint.Proofs.Query.Selection
import Mathlib.Data.List.Find
import Mathlib.Data.List.Nodup
import Mathlib.Data.List.Perm.Basic

/-!
# The order of attributes

The attributes of start tags may stand in any order: what was a document stays one, and its elements
hold the same attributes, though in the order of the tags. Which binding of a qualifier comes first
does not matter, since no key stands in a tag twice; but the default namespace can be declared under
two keys, and then the later one counts. So all that is said of namespaces is said of tags that use
one of the two keys at most, and `P` stands for whether it is said. Nothing is said of tags in which
the name or a key holds quotes or the bracket that ends a tag.
-/

namespace FlowLint.Markup

theorem exists_of_forall₂_append {α β : Type} {R : α → β → Prop} {xs ys : List α} {zs : List β}
    (h : List.Forall₂ R (xs ++ ys) zs) :
    ∃ xs' ys', List.Forall₂ R xs xs' ∧ List.Forall₂ R ys ys' ∧ zs = xs' ++ ys' := by
  have hforall : List.Forall₂ R xs (zs.take xs.length) :=
    (List.forall₂_take_append zs xs ys h.flip).flip
  have hflip : List.Forall₂ R ys (zs.drop xs.length) :=
    (List.forall₂_drop_append zs xs ys h.flip).flip
  exact ⟨zs.take xs.length, zs.drop xs.length, hforall, hflip, (List.take_append_drop ..).symm⟩

theorem forall₂_comp {α β γ : Type} {R : α → β → Prop} {S : β → γ → Prop} {T : α → γ → Prop}
    {xs : List α} {ys : List β} {zs : List γ} (h : List.Forall₂ R xs ys) (h' : List.Forall₂ S ys zs)
    (hcomp : ∀ x ∈ xs, ∀ {y z}, R x y → S y z → T x z) : List.Forall₂ T xs zs := by
  induction h generalizing zs with
  | nil =>
    obtain rfl := List.forall₂_nil_left_iff.mp h'
    exact .nil
  | cons hx _ ih =>
    obtain ⟨z, rest, hz, hrest, rfl⟩ := List.forall₂_cons_left_iff.mp h'
    obtain ⟨hfirst, hothers⟩ := List.forall_mem_cons.mp hcomp
    exact .cons (hfirst hx hz) (ih hrest hothers)

/-! ## Scopes -/

/-- Scopes in which every qualifier is bound alike, the empty one if `P` holds. -/
def SameScope (P : Prop) (s s' : Scope) : Prop :=
  ∀ q, (q = [] → P) → s.find? (·.qualifier = q) = s'.find? (·.qualifier = q)

section Scopes

variable {P : Prop} {s s' inner : Scope} {name : List Char} {uri : Option String}
  {bs bs' : List Binding}

theorem SameScope.refl (P : Prop) (s : Scope) : SameScope P s s :=
  fun _ _ => rfl

theorem SameScope.append (h : SameScope P s s') (bs : List Binding) :
    SameScope P (bs ++ s) (bs ++ s') := by
  intro q hq
  rw [List.find?_append, List.find?_append, h q hq]

/-- Declarations that do not contradict each other may be made in any order. -/
theorem SameScope.append_perm (h : SameScope P s s') (hperm : bs.Perm bs')
    (hone : ∀ q, (q = [] → P) → ∀ b ∈ bs, ∀ b' ∈ bs, b.qualifier = q → b'.qualifier = q → b = b') :
    SameScope P (bs ++ s) (bs' ++ s') := by
  intro q hq
  have hbs : bs.find? (·.qualifier = q) = bs'.find? (·.qualifier = q) := by
    refine List.find?_eq_find?_of_perm hperm ?_
    rintro b ⟨hb, hbq⟩ b' ⟨hb', hbq'⟩
    exact hone q hq b hb b' hb' (of_decide_eq_true hbq) (of_decide_eq_true hbq')
  rw [List.find?_append, List.find?_append, h q hq, hbs]

/-- Without a qualifier every name resolves, if to different namespaces. -/
theorem SameScope.resolve (h : SameScope P s s') (hresolve : s.resolve name = .ok uri) :
    ∃ uri', s'.resolve name = .ok uri' ∧ (P → uri = uri') := by
  unfold Scope.resolve at hresolve ⊢
  cases hqualifier : (splitQualifier name).1 with
  | none =>
    rw [hqualifier] at hresolve
    by_cases hP : P
    · rw [h [] fun _ => hP] at hresolve
      exact ⟨uri, hresolve, fun _ => rfl⟩
    · cases s'.find? (·.qualifier = []) with
      | none => exact ⟨_, rfl, fun hP' => absurd hP' hP⟩
      | some b => exact ⟨_, rfl, fun hP' => absurd hP' hP⟩
  | some q =>
    rw [hqualifier] at hresolve
    have hqualified : ∀ s : Scope, s.find? (fun b => b.qualifier ≠ [] ∧ b.qualifier = q) =
        if q = [] then none else s.find? (·.qualifier = q) := by
      intro s
      split
      · rename_i hq
        rw [List.find?_eq_none]
        simp [hq]
      · rename_i hq
        refine List.find?_congr fun b _ => ?_
        rw [decide_eq_decide]
        exact ⟨And.right, fun hb => ⟨hb ▸ hq, hb⟩⟩
    have hsame : (if q = [] then none else s.find? (·.qualifier = q)) =
        if q = [] then none else s'.find? (·.qualifier = q) := by
      split
      · rfl
      · exact h q fun hq => absurd hq ‹_›
    refine ⟨uri, ?_, fun _ => rfl⟩
    simp only [hqualified] at hresolve ⊢
    rwa [← hsame]

/-- A tag's declarations are made in both scopes and leave them the same. -/
theorem SameScope.enter (h : SameScope P s s') {items : List AttributeItem}
    (henter : s.enter items = .ok inner) :
    ∃ inner', s'.enter items = .ok inner' ∧ SameScope P inner inner' := by
  induction items generalizing s s' with
  | nil =>
    obtain rfl := Except.ok.inj henter
    exact ⟨s', rfl, h⟩
  | cons item rest ih =>
    cases item with
    | pair start key raw =>
      rw [Scope.enter] at henter ⊢
      cases hdeclared : declared key raw with
      | error e =>
        rw [hdeclared] at henter
        cases henter
      | ok binding? =>
        rw [hdeclared] at henter
        have hsameScope : SameScope P (binding?.toList ++ s) (binding?.toList ++ s') :=
          h.append binding?.toList
        exact ih hsameScope henter
    | valueless | keyless =>
      obtain rfl := Except.ok.inj henter
      exact ⟨s', rfl, h⟩

end Scopes

/-! ## Declarations and attributes -/

/-- The default namespace is declared under one of its two keys at most. -/
def OneDefault (keys : List (List Char)) : Prop :=
  "xmlns".toList ∉ keys ∨ "xmlns:".toList ∉ keys

instance (keys : List (List Char)) : Decidable (OneDefault keys) :=
  inferInstanceAs (Decidable (_ ∨ _))

/-- The binding that an attribute adds. -/
def bindingOf? (p : List Char × List Char) : Option Binding :=
  (declared p.1 p.2).toOption.join

section Pairs

variable {items : List AttributeItem} {pairs : List (List Char × List Char)}
  {p : List Char × List Char} {scope inner : Scope} {seen : List (Nat × List Char)}
  {as : List Attribute} {b : Binding}

/-- Only the empty qualifier can be declared under two keys. -/
theorem key_of_bindingOf? (h : bindingOf? p = some b) :
    p.1 = "xmlns:".toList ++ b.qualifier ∨ b.qualifier = [] ∧ p.1 = "xmlns".toList := by
  obtain ⟨key, uri⟩ := p
  unfold bindingOf? declared at h
  by_cases hdefault : key = "xmlns".toList
  · rw [if_pos hdefault] at h
    obtain rfl := Option.some.inj h
    exact .inr ⟨rfl, hdefault⟩
  rw [if_neg hdefault] at h
  by_cases hqualified : "xmlns:".toList.isPrefixOf key = true
  · simp only [hqualified, Bool.not_true, Bool.false_eq_true, ↓reduceIte] at h
    obtain ⟨qualifier, rfl⟩ := List.isPrefixOf_iff_prefix.mp hqualified
    -- Of the cases for reserved names only the last adds a binding.
    split at h
    · split at h <;> cases h
    · split at h
      · cases h
      · split at h
        · cases h
        · split at h
          · cases h
          · obtain rfl := Option.some.inj h
            exact .inl rfl
  · simp only [hqualified, Bool.not_false, ↓reduceIte] at h
    cases h

theorem key_unique {p' : List Char × List Char} {b' : Binding}
    (hone : b.qualifier = [] → OneDefault (pairs.map (·.1))) (hp : p ∈ pairs) (hp' : p' ∈ pairs)
    (hb : bindingOf? p = some b) (hb' : bindingOf? p' = some b')
    (hsame : b'.qualifier = b.qualifier) : p.1 = p'.1 := by
  have hkey := List.mem_map_of_mem (f := (·.1)) hp
  have hkey' := List.mem_map_of_mem (f := (·.1)) hp'
  have hnot : ∀ {x y : List Char}, b.qualifier = [] → x ∈ pairs.map (·.1) → y ∈ pairs.map (·.1) →
      x = "xmlns".toList → y = "xmlns:".toList → False := by
    rintro x y hempty hx hy rfl rfl
    exact (hone hempty).elim (fun h => h hx) (fun h => h hy)
  rcases key_of_bindingOf? hb with h | ⟨hempty, h⟩ <;>
    rcases key_of_bindingOf? hb' with h' | ⟨hempty', h'⟩
  · rw [h, h', hsame]
  · rw [hsame] at hempty'
    rw [hempty', List.append_nil] at h
    exact (hnot hempty' hkey' hkey h' h).elim
  · rw [hsame, hempty, List.append_nil] at h'
    exact (hnot hempty hkey hkey' h h').elim
  · rw [h, h']

/-- Where no key stands twice, a qualifier is bound once. -/
theorem binding_unique (hnodup : (pairs.map (·.1)).Nodup) {q : List Char}
    (hone : q = [] → OneDefault (pairs.map (·.1))) :
    ∀ b ∈ pairs.filterMap bindingOf?, ∀ b' ∈ pairs.filterMap bindingOf?,
      b.qualifier = q → b'.qualifier = q → b = b' := by
  rintro b hb b' hb' rfl hsame
  obtain ⟨p, hp, hb⟩ := List.mem_filterMap.mp hb
  obtain ⟨p', hp', hb'⟩ := List.mem_filterMap.mp hb'
  have hkeyUnique : p.1 = p'.1 := key_unique hone hp hp' hb hb' hsame
  obtain rfl := List.inj_on_of_nodup_map hnodup hp hp' hkeyUnique
  exact Option.some.inj (hb.symm.trans hb')

/-- A tag's declarations are those of its pairs, the later ones in front. -/
theorem enter_gives (h : List.Forall₂ WrittenTag.Gives items pairs) :
    scope.enter items = .ok inner ↔
      (∀ p ∈ pairs, ∃ binding?, declared p.1 p.2 = .ok binding?) ∧
        inner = (pairs.filterMap bindingOf?).reverse ++ scope := by
  induction h generalizing scope with
  | nil => simp [Scope.enter, eq_comm]
  | @cons item p items pairs hitem _ ih =>
    obtain ⟨start, rfl⟩ := hitem
    rw [Scope.enter, List.forall_mem_cons]
    cases hdeclared : declared p.1 p.2 with
    | error e => simp
    | ok binding? =>
      have hbinding : bindingOf? p = binding? := by
        rw [bindingOf?, hdeclared]
        rfl
      rw [ih]
      cases binding? with
      | none => simp [List.filterMap_cons_none hbinding]
      | some b => simp [List.filterMap_cons_some hbinding]

/-- The attribute of an element that comes of what is said. -/
def Reads (p : List Char × List Char) (a : Attribute) : Prop :=
  a.name = localName p.1 ∧ ∃ value, expand p.2 = .ok value ∧ a.value = String.ofList value

theorem startOf?_eq_none {key : List Char} :
    startOf? seen key = none ↔ ∀ s ∈ seen, s.2 ≠ key := by
  rw [startOf?, Option.map_eq_none_iff, List.find?_eq_none]
  simp

/-- The key just read is refused when it comes again. -/
theorem forall_fresh_cons {start : Nat} : (∀ p' ∈ pairs, ∀ s ∈ (start, p.1) :: seen, s.2 ≠ p'.1) ↔
    p.1 ∉ pairs.map (·.1) ∧ ∀ p' ∈ pairs, ∀ s ∈ seen, s.2 ≠ p'.1 := by
  simp only [List.forall_mem_cons, List.mem_map, not_exists, not_and]
  constructor
  · intro h
    exact ⟨fun p' hp' heq => (h p' hp').1 heq.symm, fun p' hp' => (h p' hp').2⟩
  · rintro ⟨hfresh, hrest⟩ p' hp'
    exact ⟨fun heq => hfresh p' hp' heq.symm, hrest p' hp'⟩

/-- A pair that is no declaration is an attribute if its references can be expanded. -/
theorem readAttributes_attribute {start : Nat} (hnew : startOf? seen p.1 = none)
    (hkey : isDeclaration p.1 = false) :
    readAttributes seen (.pair start p.1 p.2 :: items) = .ok as ↔
      ∃ a rest, Reads p a ∧ readAttributes ((start, p.1) :: seen) items = .ok rest ∧
        as = a :: rest := by
  rw [readAttributes, hnew]
  dsimp only
  rw [hkey, if_neg Bool.false_ne_true]
  cases hexpand : expand p.2 with
  | error e =>
    refine iff_of_false (by simp) ?_
    rintro ⟨a, rest, ⟨-, value, hvalue, -⟩, -⟩
    rw [hexpand] at hvalue
    cases hvalue
  | ok value =>
    have hreads : ∀ a, Reads p a ↔ a = ⟨localName p.1, String.ofList value⟩ := by
      rintro ⟨name, text⟩
      simp [Reads, hexpand]
    cases hrest : readAttributes ((start, p.1) :: seen) items with
    | error e =>
      refine iff_of_false (by simp) ?_
      rintro ⟨a, rest, -, hread, -⟩
      cases hread
    | ok rest =>
      simp [hreads, eq_comm]

/-- Pairs are read as attributes exactly if their keys are distinct and each is read for itself. -/
theorem readAttributes_gives (h : List.Forall₂ WrittenTag.Gives items pairs) :
    readAttributes seen items = .ok as ↔
      (∀ p ∈ pairs, ∀ s ∈ seen, s.2 ≠ p.1) ∧ (pairs.map (·.1)).Nodup ∧
        List.Forall₂ Reads (pairs.filter (!isDeclaration ·.1)) as := by
  induction h generalizing seen as with
  | nil => simp [readAttributes, eq_comm]
  | @cons item p items pairs hitem _ ih =>
    obtain ⟨start, rfl⟩ := hitem
    rw [List.forall_mem_cons, List.map_cons, List.nodup_cons]
    cases hstart : startOf? seen p.1 with
    | some earlier =>
      have hseen : ¬ ∀ s ∈ seen, s.2 ≠ p.1 := by
        rw [← startOf?_eq_none, hstart]
        exact nofun
      rw [readAttributes, hstart]
      exact iff_of_false (by simp) fun hall => hseen hall.1.1
    | none =>
      have hnew := startOf?_eq_none.mp hstart
      cases hdeclaration : isDeclaration p.1 with
      | true =>
        rw [List.filter_cons_of_neg (by simp [hdeclaration]), readAttributes, hstart]
        dsimp only
        rw [hdeclaration, if_pos rfl, ih, forall_fresh_cons]
        tauto
      | false =>
        rw [List.filter_cons_of_pos (by simp [hdeclaration]), List.forall₂_cons_left_iff,
          readAttributes_attribute hstart hdeclaration]
        simp only [ih, forall_fresh_cons]
        constructor
        · rintro ⟨a, rest, ha, ⟨⟨hfresh, hseen⟩, hnodup, hrest⟩, has⟩
          exact ⟨⟨hnew, hseen⟩, ⟨hfresh, hnodup⟩, a, rest, ha, hrest, has⟩
        · rintro ⟨⟨-, hseen⟩, ⟨hfresh, hnodup⟩, a, rest, ha, hrest, has⟩
          exact ⟨a, rest, ha, ⟨⟨hfresh, hseen⟩, hnodup, hrest⟩, has⟩

end Pairs

/-! ## Start tags -/

/-- A tag written with its attributes in another order. The spaces and the kind of quotes may change
too, since only keys and values are compared. -/
structure Turned (P : Prop) (t t' : WrittenTag) : Prop where
  name : t'.name = t.name
  pairs : t.pairs.Perm t'.pairs
  oneDefault : P → OneDefault (t.pairs.map (·.1))

/-- Tags that say the same about their elements, of namespaces if `P` holds. -/
structure SameTag (P : Prop) (tag tag' : Tag) : Prop where
  uri : P → tag.uri = tag'.uri
  name : tag.name = tag'.name
  attributes : tag.attributes.Perm tag'.attributes

section Tags

variable {P : Prop} {scope scope' : Scope} {content : List Char} {tag : Tag} {t : OpenTag}
  {w w' : WrittenTag}

theorem Starts.inScope (h : Starts scope content tag t) (hscope : SameScope P scope scope') :
    ∃ tag' t', Starts scope' content tag' t' ∧ SameTag P tag tag' ∧ t'.name = t.name ∧
      SameScope P t.scope t'.scope := by
  obtain ⟨inner', henter, hinner⟩ := hscope.enter h.bindings
  obtain ⟨uri', huri', hsame⟩ := hinner.resolve h.uri
  exact ⟨⟨uri', tag.name, tag.attributes⟩, ⟨t.name, inner'⟩,
    ⟨h.written, henter, huri', h.name, h.attributes⟩, ⟨hsame, rfl, .refl _⟩, rfl, hinner⟩

/-- Turning a tag permutes its attributes. -/
theorem attributes_turned (h : Turned P w w') {as : List Attribute}
    (hread : readAttributes [] (attributeItems w.chars) = .ok as) :
    ∃ as', readAttributes [] (attributeItems w'.chars) = .ok as' ∧ as.Perm as' := by
  obtain ⟨-, hnodup, has⟩ := (readAttributes_gives w.gives_chars).mp hread
  have hfiltered := h.pairs.filter (!isDeclaration ·.1)
  obtain ⟨as', has', hperm⟩ := List.perm_comp_forall₂ hfiltered.symm has
  refine ⟨as', (readAttributes_gives w'.gives_chars).mpr ⟨nofun, ?_, has'⟩, hperm.symm⟩
  exact (h.pairs.map (·.1)).nodup_iff.mp hnodup

/-- Turning a tag declares the same. -/
theorem bindings_turned (h : Turned P w w') (hnodup : (w.pairs.map (·.1)).Nodup)
    (hscope : SameScope P scope scope') :
    SameScope P ((w.pairs.filterMap bindingOf?).reverse ++ scope)
      ((w'.pairs.filterMap bindingOf?).reverse ++ scope') := by
  refine hscope.append_perm ?_ ?_
  · have hperm : (w.pairs.filterMap bindingOf?).Perm (w'.pairs.filterMap bindingOf?).reverse :=
      (h.pairs.filterMap _).trans (List.reverse_perm _).symm
    exact (List.reverse_perm _).trans hperm
  · simp only [List.mem_reverse]
    exact fun q hq => binding_unique hnodup fun hempty => h.oneDefault (hq hempty)

/-- A turned tag starts an element with the same name in the same scope. -/
theorem Starts.turned (h : Starts scope w.chars tag t) (hturned : Turned P w w')
    (hscope : SameScope P scope scope') :
    ∃ tag' t', Starts scope' w'.chars tag' t' ∧ SameTag P tag tag' ∧ t'.name = t.name ∧
      SameScope P t.scope t'.scope := by
  obtain ⟨hdeclared, hinner⟩ := (enter_gives w.gives_chars).mp h.bindings
  obtain ⟨-, hnodup, -⟩ := (readAttributes_gives w.gives_chars).mp h.attributes
  obtain ⟨as', has', hperm⟩ := attributes_turned hturned h.attributes
  have hname : tagName w'.chars = tagName w.chars := by
    simp [hturned.name]
  have hscopes := bindings_turned hturned hnodup hscope
  rw [← hinner] at hscopes
  obtain ⟨uri', huri', hsame⟩ := hscopes.resolve h.uri
  refine ⟨⟨uri', tag.name, as'⟩,
    ⟨t.name, (w'.pairs.filterMap bindingOf?).reverse ++ scope'⟩, ⟨?_, ?_, ?_, ?_, has'⟩,
    ⟨hsame, rfl, hperm⟩, rfl, hscopes⟩
  · rw [hname]
    exact h.written
  · rw [enter_gives w'.gives_chars]
    have hothers : ∀ p ∈ w'.pairs, ∃ binding?, declared p.1 p.2 = .ok binding? :=
      fun p hp => hdeclared p (hturned.pairs.mem_iff.mpr hp)
    exact ⟨hothers, rfl⟩
  · rw [hname]
    exact huri'
  · rw [hname]
    exact h.name

end Tags

/-! ## Elements -/

/-- Elements that differ in the order of their attributes, in that of elements at the same places
inside them, and in namespaces unless `P` holds. -/
inductive Alike (P : Prop) : Element → Element → Prop
  | of {e e' : Element} : (P → e.uri = e'.uri) → e.name = e'.name →
    e.attributes.Perm e'.attributes → e.content = e'.content →
    List.Forall₂ (Alike P) e.children e'.children → Alike P e e'

section Elements

variable {P : Prop} {e e' : Element} {tag tag' : Tag} {es es' : List Element}

theorem alike_element (h : SameTag P tag tag') (hes : List.Forall₂ (Alike P) es es') (s : String) :
    Alike P (tag.element es s) (tag'.element es' s) :=
  .of h.uri h.name h.attributes rfl hes

theorem Alike.uri (h : Alike P e e') (hP : P) : e.uri = e'.uri := by
  obtain ⟨huri, -, -, -, -⟩ := h
  exact huri hP

theorem Alike.name (h : Alike P e e') : e.name = e'.name := by
  obtain ⟨-, hname, -, -, -⟩ := h
  exact hname

theorem Alike.attributes (h : Alike P e e') : e.attributes.Perm e'.attributes := by
  obtain ⟨-, -, hattributes, -, -⟩ := h
  exact hattributes

theorem Alike.content (h : Alike P e e') : e.content = e'.content := by
  obtain ⟨-, -, -, hcontent, -⟩ := h
  exact hcontent

theorem Alike.children (h : Alike P e e') : List.Forall₂ (Alike P) e.children e'.children := by
  obtain ⟨-, -, -, -, hchildren⟩ := h
  exact hchildren

theorem Alike.refl (e : Element) : Alike P e e := by
  induction e using Element.induction with
  | step e ih => exact .of (fun _ => rfl) rfl (.refl _) rfl (List.forall₂_same.mpr ih)

theorem Alike.trans {e₁ e₂ e₃ : Element} (h : Alike P e₁ e₂) (h' : Alike P e₂ e₃) :
    Alike P e₁ e₃ := by
  induction e₁ using Element.induction generalizing e₂ e₃ with
  | step e₁ ih =>
    have hchildren : List.Forall₂ (Alike P) e₁.children e₃.children :=
      forall₂_comp h.children h'.children ih
    exact .of (fun hP => (h.uri hP).trans (h'.uri hP)) (h.name.trans h'.name)
      (h.attributes.trans h'.attributes) (h.content.trans h'.content) hchildren

end Elements

/-! ## The grammar -/

/-- Lexemes of which a tag may be turned. -/
inductive LexemeTurned (P : Prop) : Lexeme → Lexeme → Prop
  | same (l : Lexeme) : LexemeTurned P l l
  | start {w w' : WrittenTag} :
    Turned P w w' → LexemeTurned P (.tag w.chars) (.tag w'.chars)
  | empty {w w' : WrittenTag} :
    Turned P w w' → LexemeTurned P (.tag (w.chars ++ ['/'])) (.tag (w'.chars ++ ['/']))

section Grammar

variable {P : Prop} {scope scope' inner : Scope} {ls ls' body : List Lexeme} {tag : Tag}
  {es : List Element} {s : String} {l l' : Lexeme} {e : Element} {w : WrittenTag}

theorem isStartTag_chars (w : WrittenTag) : IsStartTag w.chars := by
  have hhead := WrittenTag.head?_chars (t := w) (by decide) w.name_starts.1 []
  rw [List.append_nil] at hhead
  exact ⟨hhead, w.getLast?_chars⟩

theorem isEmptyTag_chars (w : WrittenTag) : IsEmptyTag (w.chars ++ ['/']) :=
  ⟨WrittenTag.head?_chars (by decide) w.name_starts.1 ['/'], List.getLast?_concat⟩

theorem LexemeTurned.eq_of_isLoose (h : LexemeTurned P l l') (hl : l.isLoose = true) : l' = l := by
  cases h with
  | same => rfl
  | start | empty => cases hl

theorem LexemeTurned.eq_of_isEndTag {content : List Char} (h : LexemeTurned P (.tag content) l')
    (hend : IsEndTag content) : l' = .tag content := by
  cases h with
  | same => rfl
  | @start w => exact absurd hend (isStartTag_chars w).1
  | @empty w =>
    have hemptyTag : IsEmptyTag (w.chars ++ ['/']) := isEmptyTag_chars w
    exact absurd hend hemptyTag.1

theorem LexemeTurned.start_of {content : List Char} {t : OpenTag}
    (h : LexemeTurned P (.tag content) l') (hkind : IsStartTag content)
    (hstarts : Starts scope content tag t) (hscope : SameScope P scope scope') :
    ∃ content' tag' t', l' = .tag content' ∧ IsStartTag content' ∧
      Starts scope' content' tag' t' ∧ SameTag P tag tag' ∧ t'.name = t.name ∧
      SameScope P t.scope t'.scope := by
  cases h with
  | same =>
    obtain ⟨tag', t', hstarts', hsame, hname, hinner⟩ := hstarts.inScope hscope
    exact ⟨content, tag', t', rfl, hkind, hstarts', hsame, hname, hinner⟩
  | @start w w' hturned =>
    obtain ⟨tag', t', hstarts', hsame, hname, hinner⟩ := hstarts.turned hturned hscope
    exact ⟨w'.chars, tag', t', rfl, isStartTag_chars w', hstarts', hsame, hname, hinner⟩
  | @empty w =>
    have hemptyTag : IsEmptyTag (w.chars ++ ['/']) := isEmptyTag_chars w
    exact absurd hemptyTag.2 hkind.2

theorem LexemeTurned.empty_of {content : List Char} {t : OpenTag}
    (h : LexemeTurned P (.tag content) l') (hkind : IsEmptyTag content)
    (hstarts : Starts scope content.dropLast tag t) (hscope : SameScope P scope scope') :
    ∃ content' tag' t', l' = .tag content' ∧ IsEmptyTag content' ∧
      Starts scope' content'.dropLast tag' t' ∧ SameTag P tag tag' ∧
      SameScope P t.scope t'.scope := by
  cases h with
  | same =>
    obtain ⟨tag', t', hstarts', hsame, -, hinner⟩ := hstarts.inScope hscope
    exact ⟨content, tag', t', rfl, hkind, hstarts', hsame, hinner⟩
  | @start w => exact absurd hkind.2 (isStartTag_chars w).2
  | @empty w w' hturned =>
    rw [List.dropLast_concat] at hstarts
    obtain ⟨tag', t', hstarts', hsame, -, hinner⟩ := hstarts.turned hturned hscope
    have hemptyTag : IsEmptyTag (w'.chars ++ ['/']) := isEmptyTag_chars w'
    refine ⟨w'.chars ++ ['/'], tag', t', rfl, hemptyTag, ?_, hsame, hinner⟩
    rwa [List.dropLast_concat]

/-- An element's tags are turned and its contents with them. -/
theorem Enclosed.turned (h : Enclosed scope ls tag inner body) (hscope : SameScope P scope scope')
    (hls : List.Forall₂ (LexemeTurned P) ls ls') :
    ∃ tag' inner' body', Enclosed scope' ls' tag' inner' body' ∧ SameTag P tag tag' ∧
      SameScope P inner inner' ∧ List.Forall₂ (LexemeTurned P) body body' := by
  cases h with
  | empty hkind hstarts =>
    obtain ⟨l', rest', hl, hrest, rfl⟩ := List.forall₂_cons_left_iff.mp hls
    obtain rfl := List.forall₂_nil_left_iff.mp hrest
    obtain ⟨content', tag', t', rfl, hkind', hstarts', hsame, hinner⟩ :=
      hl.empty_of hkind hstarts hscope
    exact ⟨tag', t'.scope, [], .empty hkind' hstarts', hsame, hinner, .nil⟩
  | pair hkind hstarts hend hname =>
    obtain ⟨l', rest', hl, hrest, rfl⟩ := List.forall₂_cons_left_iff.mp hls
    obtain ⟨content', tag', t', rfl, hkind', hstarts', hsame, hname', hinner⟩ :=
      hl.start_of hkind hstarts hscope
    obtain ⟨body', last, hbody, hlast, rfl⟩ := exists_of_forall₂_append hrest
    obtain ⟨close', nothing, hclose, hnothing, rfl⟩ := List.forall₂_cons_left_iff.mp hlast
    obtain rfl := List.forall₂_nil_left_iff.mp hnothing
    obtain rfl := hclose.eq_of_isEndTag hend
    exact ⟨tag', t'.scope, body', .pair hkind' hstarts' hend (hname.trans hname'.symm), hsame,
      hinner, hbody⟩

/-- Contents with turned tags hold alike elements and the same text. -/
theorem Contains.turned (h : Contains scope ls es s) (hscope : SameScope P scope scope')
    (hls : List.Forall₂ (LexemeTurned P) ls ls') :
    ∃ es', Contains scope' ls' es' s ∧ List.Forall₂ (Alike P) es es' := by
  induction h generalizing scope' ls' with
  | nothing =>
    obtain rfl := List.forall₂_nil_left_iff.mp hls
    exact ⟨[], .nothing, .nil⟩
  | silent _ ih =>
    obtain ⟨l', rest', hl, hrest, rfl⟩ := List.forall₂_cons_left_iff.mp hls
    obtain ⟨es', hes, halike⟩ := ih hscope hrest
    obtain rfl := hl.eq_of_isLoose rfl
    exact ⟨es', .silent hes, halike⟩
  | cdata _ ih =>
    obtain ⟨l', rest', hl, hrest, rfl⟩ := List.forall₂_cons_left_iff.mp hls
    obtain ⟨es', hes, halike⟩ := ih hscope hrest
    obtain rfl := hl.eq_of_isLoose rfl
    exact ⟨es', .cdata hes, halike⟩
  | text hrun _ ih =>
    obtain ⟨l', rest', hl, hrest, rfl⟩ := List.forall₂_cons_left_iff.mp hls
    obtain ⟨es', hes, halike⟩ := ih hscope hrest
    obtain rfl := hl.eq_of_isLoose rfl
    exact ⟨es', .text hrun hes, halike⟩
  | @element _ _ _ _ _ _ _ _ content _ henclosed _ _ ihbody ih =>
    obtain ⟨first, rest', hfirst, hrest, rfl⟩ := exists_of_forall₂_append hls
    obtain ⟨tag', inner', body', henclosed', hsame, hinner, hbody⟩ :=
      henclosed.turned hscope hfirst
    obtain ⟨children', hchildren, halike⟩ := ihbody hinner hbody
    obtain ⟨es', hes, hothers⟩ := ih hscope hrest
    exact ⟨_, .element henclosed' hchildren hes,
      .cons (alike_element hsame halike content) hothers⟩

theorem Outside.turned (h : Outside ls) (hls : List.Forall₂ (LexemeTurned P) ls ls') :
    Outside ls' := by
  induction hls with
  | nil => exact h
  | cons hl _ ih =>
    obtain ⟨hfirst, hrest⟩ := List.forall_mem_cons.mp h
    exact List.forall_mem_cons.mpr ⟨(hl.eq_of_isLoose hfirst).symm ▸ hfirst, ih hrest⟩

/-- A document with turned tags is a document, and its elements are alike. -/
theorem IsDocument.turned (h : IsDocument ls e) (hls : List.Forall₂ (LexemeTurned P) ls ls') :
    ∃ e', IsDocument ls' e' ∧ Alike P e e' := by
  obtain ⟨before, placed, after, rfl, hbefore, hwrites, hafter⟩ := h
  obtain ⟨tag, inner, body, children, content, henclosed, hbody, rfl⟩ := hwrites
  obtain ⟨inside, after', hinside, hafter', rfl⟩ := exists_of_forall₂_append hls
  obtain ⟨before', placed', hbefore', hplaced, rfl⟩ := exists_of_forall₂_append hinside
  obtain ⟨tag', inner', body', henclosed', hsame, hinner, hbody'⟩ :=
    henclosed.turned (.refl P _) hplaced
  obtain ⟨children', hchildren, halike⟩ := hbody.turned hinner hbody'
  have halikeElement : Alike P (tag.element children content) (tag'.element children' content) :=
    alike_element hsame halike content
  refine ⟨tag'.element children' content, ⟨before', placed', after', rfl, hbefore.turned hbefore',
    ⟨tag', inner', body', children', content, henclosed', hchildren, rfl⟩, hafter.turned hafter'⟩,
    halikeElement⟩

end Grammar

end FlowLint.Markup

import FlowLint.Naming.Scheme
import FlowLint.Proofs.Query.Selection

/-!
# The grammar of naming schemes

Elements write a naming scheme if they are of the seven kinds, without namespace, and each kind has
as many elements below it as it takes. A test takes none, but what stands below a test is never
looked at: the scheme is that of the tree with everything below its tests cut off, and the grammar
is exact on such trees. Of a tree that loses something in this way, nothing is said of what was cut.
-/

namespace FlowLint.Markup.Element

variable {e : Element} {P : Element → Prop}

/-- The elements of a tree, its root among them, all have a property. -/
def Everywhere (P : Element → Prop) (e : Element) : Prop :=
  ∀ d ∈ e :: e.descendants, P d

theorem everywhere_iff : Everywhere P e ↔ P e ∧ ∀ c ∈ e.children, Everywhere P c := by
  simp only [Everywhere, List.forall_mem_cons, descendants_eq_beneath e, beneath_eq, mem_forest]
  constructor
  · intro h
    exact ⟨h.1, fun c hc => ⟨h.2 c ⟨c, hc, List.mem_cons_self⟩,
      fun d hd => h.2 d ⟨c, hc, List.mem_cons_of_mem c hd⟩⟩⟩
  · intro h
    refine ⟨h.1, fun d hd => ?_⟩
    obtain ⟨c, hc, hd⟩ := hd
    rcases List.mem_cons.mp hd with rfl | hd
    · exact (h.2 d hc).1
    · exact (h.2 c hc).2 d hd

end FlowLint.Markup.Element

namespace FlowLint.Naming

open FlowLint.Markup (Element)
open FlowLint.Markup.Element (Everywhere everywhere_iff)

/-! ## Kinds of nodes -/

/-- The kinds of nodes that schemes are made of. -/
inductive NodeKind
  | startsWith
  | endsWith
  | equals
  | regex
  | not
  | and
  | or
deriving DecidableEq

namespace NodeKind

/-- The name of elements that write a node of the kind. -/
def name : NodeKind → String
  | startsWith => "starts-with"
  | endsWith => "ends-with"
  | equals => "equals"
  | regex => "regex"
  | not => "not"
  | and => "and"
  | or => "or"

/-- The kinds that look at names themselves. -/
def tests : List NodeKind :=
  [startsWith, endsWith, equals, regex]

/-- How many operands a node of the kind may have. -/
def Admits : NodeKind → Nat → Prop
  | startsWith, n | endsWith, n | equals, n | regex, n => n = 0
  | not, n => n = 1
  | and, n | or, n => 0 < n

theorem name_injective {k k' : NodeKind} (h : k.name = k'.name) : k = k' := by
  revert h
  cases k <;> cases k' <;> decide

theorem name_mem_tests {k : NodeKind} : k.name ∈ tests.map name ↔ k ∈ tests := by
  cases k <;> decide

end NodeKind

/-! ## Elements as nodes -/

variable {e d : Element} {es : List Element} {k : NodeKind} {s : Scheme} {ss : List Scheme}

/-- The element is named as a test. -/
def IsTest (d : Element) : Prop :=
  d.name ∈ NodeKind.tests.map NodeKind.name

theorem isTest_iff (h : d.name = k.name) : IsTest d ↔ k ∈ NodeKind.tests := by
  rw [IsTest, h, NodeKind.name_mem_tests]

/-- The element stands where the grammar allows it. -/
structure IsNode (d : Element) : Prop where
  plain : d.uri = none
  known : ∃ kind : NodeKind, d.name = kind.name ∧ kind.Admits d.children.length

/-- What an element of the kind says besides its children can be read. -/
def NodeKind.CanRead (d : Element) : NodeKind → Prop
  | equals =>
    ∀ value, d.attr? "ignore-case" = some value → ∃ b, Scheme.yesOrNo? value = some b
  | regex => ∃ s, Scheme.ofPattern d.text = .ok s
  | startsWith | endsWith | not | and | or => True

/-- The element can be read as whatever kind it is named. -/
def Readable (d : Element) : Prop :=
  ∀ kind : NodeKind, d.name = kind.name → kind.CanRead d

/-- No test of the tree has elements below it. -/
def Bare (e : Element) : Prop :=
  Everywhere (fun d => IsTest d → d.children = []) e

mutual
/-- The tree without the elements below its tests. -/
def pruned : Element → Element
  | ⟨uri, name, attributes, children, content⟩ =>
    ⟨uri, name, attributes,
      if name ∈ NodeKind.tests.map NodeKind.name then [] else prunedAll children, content⟩
def prunedAll : List Element → List Element
  | [] => []
  | e :: rest => pruned e :: prunedAll rest
end

theorem prunedAll_eq (es : List Element) : prunedAll es = es.map pruned := by
  induction es with
  | nil => rfl
  | cons e rest ih => rw [prunedAll, ih, List.map_cons]

@[simp] theorem uri_pruned (e : Element) : (pruned e).uri = e.uri := by cases e; rfl

@[simp] theorem name_pruned (e : Element) : (pruned e).name = e.name := by cases e; rfl

@[simp] theorem text_pruned (e : Element) : (pruned e).text = e.text := by cases e; rfl

@[simp] theorem attr?_pruned (e : Element) (name : String) :
    (pruned e).attr? name = e.attr? name := by cases e; rfl

@[simp] theorem isTest_pruned : IsTest (pruned e) ↔ IsTest e := by
  rw [IsTest, IsTest, name_pruned]

theorem children_pruned_of_isTest (h : IsTest e) : (pruned e).children = [] := by
  cases e
  exact if_pos h

/-- Below anything but a test, pruning goes on. -/
theorem children_pruned (h : ¬IsTest e) : (pruned e).children = e.children.map pruned := by
  cases e
  exact (if_neg h).trans (prunedAll_eq _)

/-- Pruning leaves nothing below tests. -/
theorem bare_pruned (e : Element) : Bare (pruned e) := by
  induction e using Element.induction with
  | step e ih =>
    rw [Bare, everywhere_iff]
    refine ⟨fun h => children_pruned_of_isTest (isTest_pruned.mp h), fun c hc => ?_⟩
    by_cases h : IsTest e
    · rw [children_pruned_of_isTest h] at hc
      cases hc
    · rw [children_pruned h, List.mem_map] at hc
      obtain ⟨d, hd, rfl⟩ := hc
      exact ih d hd

/-- Where there is nothing below tests, pruning does nothing. -/
theorem pruned_eq_self (h : Bare e) : pruned e = e := by
  induction e using Element.induction with
  | step e ih =>
    obtain ⟨hroot, hbelow⟩ := everywhere_iff.mp h
    have hchildren : (pruned e).children = e.children := by
      by_cases ht : IsTest e
      · rw [children_pruned_of_isTest ht, hroot ht]
      · rw [children_pruned ht]
        have heq : e.children.map pruned = e.children.map (fun c => c) :=
          List.map_congr_left fun c hc => ih c hc (hbelow c hc)
        exact heq.trans (List.map_id _)
    cases e
    exact congrArg (Element.mk _ _ _ · _) hchildren

/-- A tree keeps all its elements if and only if no test has elements below it. -/
theorem pruned_eq_self_iff : pruned e = e ↔ Bare e := by
  constructor
  · intro h
    rw [← h]
    exact bare_pruned e
  · exact pruned_eq_self

/-! ## Outlines -/

/-- The shape of a tree of nodes. -/
inductive Outline
  | node (name : String) (operands : List Outline)

mutual
/-- The shape of a tree of elements. -/
def outlineOf : Element → Outline
  | ⟨_, name, _, children, _⟩ => .node name (outlinesOf children)
def outlinesOf : List Element → List Outline
  | [] => []
  | e :: rest => outlineOf e :: outlinesOf rest
end

mutual
/-- The shape of a scheme. -/
def Scheme.outline : Scheme → Outline
  | .startsWith _ => .node NodeKind.startsWith.name []
  | .endsWith _ => .node NodeKind.endsWith.name []
  | .equals _ _ => .node NodeKind.equals.name []
  | .regex _ _ => .node NodeKind.regex.name []
  | .not operand => .node NodeKind.not.name [operand.outline]
  | .and operands => .node NodeKind.and.name (Scheme.outlines operands)
  | .or operands => .node NodeKind.or.name (Scheme.outlines operands)
def Scheme.outlines : List Scheme → List Outline
  | [] => []
  | s :: rest => s.outline :: Scheme.outlines rest
end

theorem outlineOf_eq (e : Element) : outlineOf e = .node e.name (outlinesOf e.children) := by
  cases e; rfl

/-! ## Reading one node -/

namespace Scheme

/-- The negation of the only scheme that elements write. -/
def ofOnly : List Element → Except Error Scheme
  | [operand] => (ofElement operand).map .not
  | others => .error (.notOneOperand others.length)

/-- The scheme of an element that is a node of some kind. -/
def ofKind (e : Element) : NodeKind → Except Error Scheme
  | .startsWith => .ok (.startsWith e.text)
  | .endsWith => .ok (.endsWith e.text)
  | .equals => ofEquals e
  | .regex => ofPattern e.text
  | .not => ofOnly e.children
  | .and => ofElements e.children >>= combine .and
  | .or => ofElements e.children >>= combine .or

theorem ofElement_kind (hplain : e.uri = none) (hname : e.name = k.name) :
    ofElement e = ofKind e k := by
  obtain ⟨uri, name, attributes, children, content⟩ := e
  subst hplain hname
  rw [ofElement.eq_def]
  cases k
  -- Both sides look at the children, each in its own way; they agree once it is known how many.
  case not => rcases children with _ | ⟨c, _ | ⟨d, rest⟩⟩ <;> simp [ofKind, ofOnly, NodeKind.name]
  all_goals simp [ofKind, NodeKind.name]

theorem ofElement_namespaced {uri : String} (h : e.uri = some uri) :
    ofElement e = .error (.unknownNode e.name (some uri)) := by
  cases e
  subst h
  rw [ofElement.eq_def]
  rfl

/-- An element with a name that is no node's is refused. -/
theorem ofElement_unknown (hplain : e.uri = none) (h : ∀ kind : NodeKind, e.name ≠ kind.name) :
    ofElement e = .error (.unknownNode e.name none) := by
  obtain ⟨uri, name, attributes, children, content⟩ := e
  subst hplain
  have hstarts := h .startsWith
  have hends := h .endsWith
  have hequals := h .equals
  have hregex := h .regex
  have hnot := h .not
  have hand := h .and
  have hor := h .or
  simp only [NodeKind.name] at hstarts hends hequals hregex hnot hand hor
  rw [ofElement.eq_def]
  simp [*]

/-- An element that writes a scheme is a node of some kind. -/
theorem exists_kind (h : ofElement e = .ok s) :
    e.uri = none ∧ ∃ kind : NodeKind, e.name = kind.name := by
  cases hplain : e.uri with
  | some uri =>
    rw [ofElement_namespaced hplain] at h
    cases h
  | none =>
    refine ⟨rfl, ?_⟩
    by_contra hunknown
    rw [ofElement_unknown hplain (not_exists.mp hunknown)] at h
    cases h

theorem ofElements_cons_ok_iff :
    ofElements (e :: es) = .ok ss ↔
      ∃ s rest, ofElement e = .ok s ∧ ofElements es = .ok rest ∧ ss = s :: rest := by
  rw [ofElements]
  cases ofElement e with
  | error err => simp
  | ok s =>
    cases ofElements es with
    | error err => simp [Except.map]
    | ok rest => simp [Except.map, eq_comm]

/-- A list of elements is read exactly if each of them is. -/
theorem exists_ofElements_iff :
    (∃ ss, ofElements es = .ok ss) ↔ ∀ c ∈ es, ∃ s, ofElement c = .ok s := by
  induction es with
  | nil => simp [ofElements]
  | cons e rest ih =>
    rw [List.forall_mem_cons, ← ih]
    simp only [ofElements_cons_ok_iff]
    constructor
    · rintro ⟨-, s, ss, hs, hss, -⟩
      exact ⟨⟨s, hs⟩, ss, hss⟩
    · rintro ⟨⟨s, hs⟩, ss, hss⟩
      exact ⟨s :: ss, s, ss, hs, hss, rfl⟩

theorem length_ofElements (h : ofElements es = .ok ss) : ss.length = es.length := by
  induction es generalizing ss with
  | nil =>
    obtain rfl := Except.ok.inj h
    rfl
  | cons e rest ih =>
    obtain ⟨s, ss, -, hss, rfl⟩ := ofElements_cons_ok_iff.mp h
    rw [List.length_cons, List.length_cons, ih hss]

theorem ofOnly_ok_iff :
    ofOnly es = .ok s ↔ ∃ c t, es = [c] ∧ ofElement c = .ok t ∧ s = .not t := by
  rcases es with _ | ⟨c, _ | ⟨d, rest⟩⟩
  · simp [ofOnly]
  · simp only [ofOnly]
    cases h : ofElement c <;> simp [Except.map, h, eq_comm]
  · simp [ofOnly]

/-- The combination of some schemes. -/
def joined (ss : List Scheme) : Combination → Scheme
  | .and => .and ss
  | .or => .or ss

/-- A combination takes at least one element. -/
theorem combination_ok_iff {c : Combination} :
    (ofElements es >>= combine c) = .ok s ↔
      0 < es.length ∧ ∃ ss, ofElements es = .ok ss ∧ s = joined ss c := by
  cases h : ofElements es with
  | error err => simp [bind, Except.bind]
  | ok ss =>
    rw [← length_ofElements h]
    cases ss with
    | nil => simp [bind, Except.bind, combine]
    | cons s' rest => cases c <;> simp [bind, Except.bind, combine, joined, eq_comm]

theorem exists_ofEquals_iff : (∃ s, ofEquals e = .ok s) ↔ NodeKind.equals.CanRead e := by
  unfold ofEquals NodeKind.CanRead
  cases e.attr? "ignore-case" with
  | none => simp
  | some value => cases h : yesOrNo? value <;> simp [h]

theorem exists_ofOnly_iff :
    (∃ s, ofOnly es = .ok s) ↔ es.length = 1 ∧ ∀ c ∈ es, ∃ s, ofElement c = .ok s := by
  rw [List.length_eq_one_iff]
  simp only [ofOnly_ok_iff]
  constructor
  · rintro ⟨-, c, t, rfl, ht, -⟩
    exact ⟨⟨c, rfl⟩, fun d hd => List.mem_singleton.mp hd ▸ ⟨t, ht⟩⟩
  · rintro ⟨⟨c, rfl⟩, h⟩
    obtain ⟨t, ht⟩ := h c (List.mem_singleton_self c)
    exact ⟨.not t, c, t, rfl, ht, rfl⟩

theorem exists_combination_iff (c : Combination) :
    (∃ s, (ofElements es >>= combine c) = .ok s) ↔
      0 < es.length ∧ ∀ c ∈ es, ∃ s, ofElement c = .ok s := by
  rw [← exists_ofElements_iff]
  simp only [combination_ok_iff]
  constructor
  · rintro ⟨-, hpos, ss, hss, -⟩
    exact ⟨hpos, ss, hss⟩
  · rintro ⟨hpos, ss, hss⟩
    exact ⟨joined ss c, hpos, ss, hss, rfl⟩

/-- An element is read as a kind if its children are as many as the kind takes and can be read in
their turn, and what else it says is not in the way. -/
theorem exists_ofKind_iff (htest : k ∈ NodeKind.tests → e.children = []) :
    (∃ s, ofKind e k = .ok s) ↔ k.Admits e.children.length ∧ k.CanRead e ∧
      ∀ c ∈ e.children, ∃ s, ofElement c = .ok s := by
  cases k with
  | startsWith => simp [ofKind, NodeKind.Admits, NodeKind.CanRead, htest (by decide)]
  | endsWith => simp [ofKind, NodeKind.Admits, NodeKind.CanRead, htest (by decide)]
  | equals => simp [ofKind, NodeKind.Admits, exists_ofEquals_iff, htest (by decide)]
  | regex => simp [ofKind, NodeKind.Admits, NodeKind.CanRead, htest (by decide)]
  | not => simp [ofKind, NodeKind.Admits, NodeKind.CanRead, exists_ofOnly_iff]
  | and => simp [ofKind, NodeKind.Admits, NodeKind.CanRead, exists_combination_iff]
  | or => simp [ofKind, NodeKind.Admits, NodeKind.CanRead, exists_combination_iff]

/-- The outline of a list is that of its elements one by one. -/
theorem outlines_ofElements (h : ofElements es = .ok ss)
    (hbelow : ∀ c ∈ es, ∀ t, ofElement c = .ok t → t.outline = outlineOf c) :
    outlines ss = outlinesOf es := by
  induction es generalizing ss with
  | nil =>
    obtain rfl := Except.ok.inj h
    rfl
  | cons e rest ih =>
    obtain ⟨s, ss, hs, hss, rfl⟩ := ofElements_cons_ok_iff.mp h
    have hfirst := hbelow e List.mem_cons_self s hs
    have hrest := ih hss fun c hc => hbelow c (List.mem_cons_of_mem e hc)
    rw [outlines, outlinesOf, hfirst, hrest]

theorem outline_ofEquals (h : ofEquals e = .ok s) :
    s.outline = .node NodeKind.equals.name [] := by
  unfold ofEquals at h
  split at h
  · obtain rfl := Except.ok.inj h
    rfl
  · split at h
    · obtain rfl := Except.ok.inj h
      rfl
    · cases h

theorem outline_ofPattern {text : String} (h : ofPattern text = .ok s) :
    s.outline = .node NodeKind.regex.name [] := by
  unfold ofPattern at h
  split at h
  · obtain rfl := Except.ok.inj h
    rfl
  · cases h

/-- The scheme read from a node has the shape of the node if those of its children have theirs. -/
theorem outline_ofKind (h : ofKind e k = .ok s) (htest : k ∈ NodeKind.tests → e.children = [])
    (hbelow : ∀ c ∈ e.children, ∀ t, ofElement c = .ok t → t.outline = outlineOf c) :
    s.outline = .node k.name (outlinesOf e.children) := by
  cases k with
  | startsWith =>
    obtain rfl := Except.ok.inj h
    rw [htest (by decide)]
    rfl
  | endsWith =>
    obtain rfl := Except.ok.inj h
    rw [htest (by decide)]
    rfl
  | equals =>
    rw [htest (by decide)]
    exact outline_ofEquals h
  | regex =>
    rw [htest (by decide)]
    exact outline_ofPattern h
  | not =>
    obtain ⟨c, t, hc, ht, rfl⟩ := ofOnly_ok_iff.mp h
    rw [outline, hbelow c (hc ▸ List.mem_singleton_self c) t ht, hc]
    rfl
  | and =>
    obtain ⟨-, ss, hss, rfl⟩ := combination_ok_iff.mp h
    rw [joined, outline, outlines_ofElements hss hbelow]
  | or =>
    obtain ⟨-, ss, hss, rfl⟩ := combination_ok_iff.mp h
    rw [joined, outline, outlines_ofElements hss hbelow]

/-! ## What is not looked at -/

theorem ofOnly_map {f : Element → Element} (h : ∀ c ∈ es, ofElement (f c) = ofElement c) :
    ofOnly (es.map f) = ofOnly es := by
  rcases es with _ | ⟨c, _ | ⟨d, rest⟩⟩
  · rfl
  · have hone : ofElement (f c) = ofElement c := h c (List.mem_singleton_self c)
    exact congrArg (Except.map Scheme.not) hone
  · simp [ofOnly]

theorem ofElements_map {f : Element → Element} (h : ∀ c ∈ es, ofElement (f c) = ofElement c) :
    ofElements (es.map f) = ofElements es := by
  induction es with
  | nil => rfl
  | cons e rest ih =>
    rw [List.map_cons, ofElements, ofElements, h e List.mem_cons_self,
      ih fun c hc => h c (List.mem_cons_of_mem e hc)]

/-- Pruning below an element changes nothing for its kind. -/
theorem ofKind_pruned (hname : e.name = k.name)
    (h : ∀ c ∈ e.children, ofElement (pruned c) = ofElement c) :
    ofKind (pruned e) k = ofKind e k := by
  have hchildren (hk : k ∉ NodeKind.tests) : (pruned e).children = e.children.map pruned :=
    children_pruned (mt (isTest_iff hname).mp hk)
  cases k with
  | startsWith => simp [ofKind]
  | endsWith => simp [ofKind]
  | equals => simp [ofKind, ofEquals]
  | regex => simp [ofKind]
  | not => rw [ofKind, ofKind, hchildren (by decide), ofOnly_map h]
  | and => rw [ofKind, ofKind, hchildren (by decide), ofElements_map h]
  | or => rw [ofKind, ofKind, hchildren (by decide), ofElements_map h]

/-- A scheme is that of its tree with everything below the tests cut off. -/
@[simp] theorem ofElement_pruned (e : Element) : ofElement (pruned e) = ofElement e := by
  induction e using Element.induction with
  | step e ih =>
    -- Elements that are no nodes fail with an error that does not speak of what is below them.
    cases hplain : e.uri with
    | some uri =>
      rw [ofElement_namespaced hplain, ofElement_namespaced ((uri_pruned e).trans hplain),
        name_pruned]
    | none =>
      have hplain' : (pruned e).uri = none := (uri_pruned e).trans hplain
      by_cases hknown : ∃ kind : NodeKind, e.name = kind.name
      · obtain ⟨k, hk⟩ := hknown
        rw [ofElement_kind hplain hk, ofElement_kind hplain' ((name_pruned e).trans hk),
          ofKind_pruned hk ih]
      · have hunknown := not_exists.mp hknown
        have hunknown' : ∀ kind : NodeKind, (pruned e).name ≠ kind.name := by
          rwa [name_pruned]
        rw [ofElement_unknown hplain hunknown, ofElement_unknown hplain' hunknown', name_pruned]

end Scheme

/-! ## The tree as a whole -/

open Scheme

theorem readable_iff (h : d.name = k.name) : Readable d ↔ k.CanRead d := by
  constructor
  · intro hread
    exact hread k h
  · intro hread kind hkind
    rwa [← NodeKind.name_injective (h.symm.trans hkind)]

/-- An element whose children stand where they may is read if and only if it is a node that can be
read and its children can be. -/
theorem exists_ofElement_iff (htest : IsTest e → e.children = []) :
    (∃ s, ofElement e = .ok s) ↔
      IsNode e ∧ Readable e ∧ ∀ c ∈ e.children, ∃ s, ofElement c = .ok s := by
  constructor
  · rintro ⟨s, hs⟩
    obtain ⟨hplain, k, hk⟩ := exists_kind hs
    rw [ofElement_kind hplain hk] at hs
    rw [isTest_iff hk] at htest
    obtain ⟨hcount, hread, hbelow⟩ := (exists_ofKind_iff htest).mp ⟨s, hs⟩
    exact ⟨⟨hplain, k, hk, hcount⟩, (readable_iff hk).mpr hread, hbelow⟩
  · rintro ⟨⟨hplain, k, hk, hcount⟩, hread, hbelow⟩
    rw [ofElement_kind hplain hk]
    rw [isTest_iff hk] at htest
    exact (exists_ofKind_iff htest).mpr ⟨hcount, (readable_iff hk).mp hread, hbelow⟩

/-- On trees whose tests stand alone the grammar is exact. -/
theorem exists_ofElement_iff_everywhere (h : Bare e) :
    (∃ s, ofElement e = .ok s) ↔ Everywhere IsNode e ∧ Everywhere Readable e := by
  induction e using Element.induction with
  | step e ih =>
    obtain ⟨htest, hbelow⟩ := everywhere_iff.mp h
    rw [exists_ofElement_iff htest, everywhere_iff, everywhere_iff]
    have hchildren : (∀ c ∈ e.children, ∃ s, ofElement c = .ok s) ↔
        (∀ c ∈ e.children, Everywhere IsNode c) ∧ ∀ c ∈ e.children, Everywhere Readable c := by
      rw [← forall₂_and]
      exact forall₂_congr fun c hc => ih c hc (hbelow c hc)
    rw [hchildren]
    tauto

/-- What is built from a bare element has its outline, node by node. -/
theorem outline_ofElement (h : Bare e) (hs : ofElement e = .ok s) : s.outline = outlineOf e := by
  induction e using Element.induction generalizing s with
  | step e ih =>
    obtain ⟨htest, hbelow⟩ := everywhere_iff.mp h
    obtain ⟨hplain, k, hk⟩ := exists_kind hs
    rw [ofElement_kind hplain hk] at hs
    rw [isTest_iff hk] at htest
    rw [outlineOf_eq, hk]
    exact outline_ofKind hs htest fun c hc t ht => ih c hc (hbelow c hc) ht

/-- Elements write the scheme that the tree without what is below its tests writes. Such a tree
writes one if and only if all its elements, at any depth, are nodes that stand where they may and
can be read; the scheme has one node for each element, in the same shape. All this is said of the
tree as it is if and only if its tests have no elements below them. -/
theorem ofElement_grammar (e : Element) :
    ofElement e = ofElement (pruned e) ∧
    ((∃ s, ofElement e = .ok s) ↔
      Everywhere IsNode (pruned e) ∧ Everywhere Readable (pruned e)) ∧
    (∀ s, ofElement e = .ok s → s.outline = outlineOf (pruned e)) ∧
    (pruned e = e ↔ Bare e) := by
  have hsame : ofElement e = ofElement (pruned e) := (ofElement_pruned e).symm
  refine ⟨hsame, ?_, fun s hs => ?_, pruned_eq_self_iff⟩
  · rw [hsame]
    exact exists_ofElement_iff_everywhere (bare_pruned e)
  · rw [hsame] at hs
    exact outline_ofElement (bare_pruned e) hs

/-- A test with an element of no kind below it. -/
def strayBelowTest : Element :=
  ((Element.named "starts-with").withText "Z_").withChild ((Element.named "contains").withText "x")

theorem ofElement_strayBelowTest :
    ofElement strayBelowTest = .ok (.startsWith "Z_") ∧
    ¬Everywhere IsNode strayBelowTest ∧
    (Scheme.startsWith "Z_").outline ≠ outlineOf strayBelowTest := by
  have htext : strayBelowTest.text = "Z_" := by decide +kernel
  have hbelow : (Element.named "contains").withText "x" ∈ strayBelowTest.descendants := by
    rw [Element.descendants_eq_beneath]
    exact List.mem_cons_self
  refine ⟨?_, fun h => ?_, fun h => ?_⟩
  · rw [ofElement_kind rfl (show strayBelowTest.name = NodeKind.startsWith.name from rfl), ofKind,
      htext]
  · obtain ⟨-, k, hk, -⟩ := h _ (List.mem_cons_of_mem _ hbelow)
    cases k <;> exact absurd hk (by decide)
  · rw [outlineOf_eq, Scheme.outline, Outline.node.injEq] at h
    cases h.2

end FlowLint.Naming

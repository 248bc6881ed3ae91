import FlowLint.Proofs.Markup.AttributeOrder
import FlowLint.Proofs.Query.Selection
import FlowLint.Query.Channel

/-!
# What is read of alike elements

Elements that differ in the order of attributes have the same text, the same children by name and
the same properties, so that queries select the same places of two documents. An attribute is looked
up by its local name, and the first that has it is found; where no two attributes of an element have
the name, the order does not matter. Of a name that two attributes share nothing is said.
-/

namespace FlowLint.Markup

/-! ## Related lists -/

section Related

variable {α β γ : Type} {R : α → β → Prop} {xs : List α} {ys : List β} {p : α → Bool}
  {p' : β → Bool} {o : Option α} {o' : Option β}

/-- Related lists stay related when related members are kept or dropped together. -/
theorem filter_rel (h : List.Forall₂ R xs ys) (hp : ∀ {x y}, R x y → p x = p' y) :
    List.Forall₂ R (xs.filter p) (ys.filter p') :=
  List.rel_filter (fun _ _ hxy => Bool.eq_iff_iff.mp (hp hxy)) h

theorem find?_rel (h : List.Forall₂ R xs ys) (hp : ∀ {x y}, R x y → p x = p' y) :
    Option.Rel R (xs.find? p) (ys.find? p') := by
  induction h with
  | nil => exact .none
  | @cons x y _ _ hxy _ ih =>
    rw [List.find?_cons, List.find?_cons, ← hp hxy]
    cases p x with
    | true => exact .some hxy
    | false => exact ih

theorem map_rel {f : α → γ} {f' : β → γ} (h : Option.Rel R o o')
    (hf : ∀ {x y}, R x y → f x = f' y) : o.map f = o'.map f' := by
  cases h with
  | none => rfl
  | some hxy => rw [Option.map_some, Option.map_some, hf hxy]

theorem bind_rel {f : α → Option α} {f' : β → Option β} (h : Option.Rel R o o')
    (hf : ∀ {x y}, R x y → Option.Rel R (f x) (f' y)) : Option.Rel R (o.bind f) (o'.bind f') := by
  cases h with
  | none => exact .none
  | some hxy => exact hf hxy

end Related

/-! ## Attributes -/

/-- No two attributes of the element have this local name. -/
def Element.IsSingle (e : Element) (name : String) : Prop :=
  (e.attributes.map (·.name)).count name ≤ 1

instance (e : Element) (name : String) : Decidable (e.IsSingle name) :=
  inferInstanceAs (Decidable (_ ≤ _))

section Lookup

variable {P : Prop} {e e' : Element} {es es' : List Element}

theorem Element.isSingle_of_nodup (h : (e.attributes.map (·.name)).Nodup) (name : String) :
    e.IsSingle name :=
  List.nodup_iff_count_le_one.mp h name

theorem eq_of_perm {α : Type} {xs ys : List α} (h : xs.Perm ys) (hone : xs.length ≤ 1) :
    xs = ys := by
  match xs with
  | [] => exact h.nil_eq
  | [a] => exact (List.perm_singleton.mp h.symm).symm
  | a :: b :: rest =>
    rw [List.length_cons, List.length_cons] at hone
    omega

theorem Alike.attr?_eq (h : Alike P e e') {name : String} (hsingle : e.IsSingle name) :
    e.attr? name = e'.attr? name := by
  have hone : (e.attributes.filter (·.name = name)).length ≤ 1 := by
    rwa [Element.IsSingle, List.count_eq_countP, List.countP_map,
      List.countP_eq_length_filter] at hsingle
  have hsame := eq_of_perm (h.attributes.filter (·.name = name)) hone
  rw [Element.attr?, Element.attr?, ← List.head?_filter, ← List.head?_filter, hsame]

/-! ## Elements below -/

theorem Alike.text_eq (h : Alike P e e') : e.text = e'.text := by
  rw [Element.text, Element.text, h.content]

theorem Alike.childrenNamed (h : Alike P e e') (name : String) :
    List.Forall₂ (Alike P) (e.childrenNamed name) (e'.childrenNamed name) :=
  filter_rel h.children fun h => by rw [h.name]

theorem Alike.child? (h : Alike P e e') (name : String) :
    Option.Rel (Alike P) (e.child? name) (e'.child? name) :=
  find?_rel h.children fun h => by rw [h.name]

theorem forest_alike (hes : List.Forall₂ (Alike P) es es')
    (hbelow : ∀ c ∈ es, ∀ {c'}, Alike P c c' → List.Forall₂ (Alike P) c.beneath c'.beneath) :
    List.Forall₂ (Alike P) (Element.forest es) (Element.forest es') := by
  induction hes with
  | nil => exact .nil
  | cons hc _ ih =>
    obtain ⟨hfirst, hrest⟩ := List.forall_mem_cons.mp hbelow
    exact .cons hc (List.rel_append (hfirst hc) (ih hrest))

theorem Alike.beneath (h : Alike P e e') : List.Forall₂ (Alike P) e.beneath e'.beneath := by
  induction e using Element.induction generalizing e' with
  | step e ih =>
    rw [Element.beneath_eq, Element.beneath_eq]
    exact forest_alike h.children fun c hc _ halike => ih c hc halike

/-- Alike elements have alike descendants, in one order. -/
theorem Alike.descendants (h : Alike P e e') :
    List.Forall₂ (Alike P) e.descendants e'.descendants := by
  rw [Element.descendants_eq_beneath, Element.descendants_eq_beneath]
  exact h.beneath

end Lookup

end FlowLint.Markup

namespace FlowLint.Query

open FlowLint.Markup (Element Alike filter_rel find?_rel map_rel bind_rel)

section Queries

variable {P : Prop} {e e' : Element}

theorem property?_alike (h : Alike P e e') (key : String) : property? e key = property? e' key := by
  have hproperties : List.Forall₂ (Alike P)
      ((e.childrenNamed "extensionElements").flatMap (·.childrenNamed "property"))
      ((e'.childrenNamed "extensionElements").flatMap (·.childrenNamed "property")) :=
    List.rel_flatMap (h.childrenNamed _) fun _ _ hd => hd.childrenNamed _
  have hkey : ∀ {d d' : Element}, Alike P d d' →
      decide ((d.child? "key").map Element.text = some key) =
        decide ((d'.child? "key").map Element.text = some key) := by
    intro d d' hd
    have hrel : Option.Rel (Alike P) (d.child? "key") (d'.child? "key") := hd.child? "key"
    rw [map_rel hrel Alike.text_eq]
  exact map_rel (bind_rel (find?_rel hproperties hkey) fun hd => hd.child? "value")
    Alike.text_eq

theorem firstProperty?_alike (h : Alike P e e') (keys : List String) :
    firstProperty? e keys = firstProperty? e' keys := by
  rw [firstProperty?, firstProperty?, funext (property?_alike h)]

/-- A condition holds of both elements or of neither. -/
theorem holds_alike (h : Alike P e e') (c : Condition) : c.holds e = c.holds e' := by
  cases c with
  | oneOf key values => rw [Condition.holds, Condition.holds, property?_alike h]
  | startsWith keys lead => rw [Condition.holds, Condition.holds, firstProperty?_alike h]

theorem displayName_alike (h : Alike P e e') (hname : e.IsSingle "name") (hid : e.IsSingle "id") :
    displayName e = displayName e' := by
  rw [displayName, displayName, h.attr?_eq hname, h.attr?_eq hid]

/-- A filter takes both elements or neither. -/
theorem accepts_alike (h : Alike P e e') (f : ChannelFilter) : f.accepts e = f.accepts e' := by
  have hconditions : Condition.holds e = Condition.holds e' := funext (holds_alike h)
  rw [ChannelFilter.accepts, ChannelFilter.accepts, h.name, hconditions]

/-- A filter finds channels at the same places. -/
theorem channels_alike (h : Alike P e e') (f : ChannelFilter) :
    List.Forall₂ (fun c c' => Alike P c.element c'.element) (channels e f) (channels e' f) := by
  rw [channels_eq, channels_eq, List.forall₂_map_left_iff, List.forall₂_map_right_iff]
  exact filter_rel h.descendants fun hd => accepts_alike hd f

end Queries

end FlowLint.Query

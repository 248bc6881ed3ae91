import FlowLint.Json.Record
import Mathlib.Data.String.Basic
import Mathlib.Data.List.Pairwise

/-!
# Sorted values

To sort a value is to write each object in it in the one form that has its keys in order and
each of them once. What is looked up under a key is the sorted value that was there before, and
a sorted value is its own sorted form. A record can be read from an object just as well when the
object has been sorted, so that a reader is shown to undo a writer once for both forms.
-/

namespace FlowLint.Json

variable {known : List String} {members done more : List (String × Json)} {key k : String}
  {v w : Json}

/-- Induction over a value with its items and the values of its members. -/
theorem induction {motive : Json → Prop} (null : motive .null) (bool : ∀ b, motive (.bool b))
    (num : ∀ n, motive (.num n)) (str : ∀ s, motive (.str s))
    (arr : ∀ items, (∀ v ∈ items, motive v) → motive (.arr items))
    (obj : ∀ members, (∀ m ∈ members, motive m.2) → motive (.obj members)) : ∀ v, motive v
  | .null => null
  | .bool b => bool b
  | .num n => num n
  | .str s => str s
  | .arr items => arr items fun v _h => Json.induction null bool num str arr obj v
  | .obj members => obj members fun m _h => Json.induction null bool num str arr obj m.2
termination_by v => v
decreasing_by
  · have hlt := List.sizeOf_lt_of_mem _h
    simp only [Json.arr.sizeOf_spec]
    omega
  · have hlt := List.sizeOf_lt_of_mem _h
    cases m
    simp only [Prod.mk.sizeOf_spec, Json.obj.sizeOf_spec] at hlt ⊢
    omega

/-! ## Members -/

/-- The last member with a key counts, so that later members go first. -/
@[simp] theorem lookup_append (members more : List (String × Json)) (key : String) :
    lookup (members ++ more) key = (lookup more key).or (lookup members key) := by
  rw [lookup, List.reverse_append, List.find?_append, lookup, lookup]
  cases more.reverse.find? (·.1 = key) <;> rfl

@[simp] theorem lookup_cons (key k : String) (v : Json) (rest : List (String × Json)) :
    lookup ((k, v) :: rest) key = (lookup rest key).or (if k = key then some v else none) := by
  rw [← List.singleton_append, lookup_append]
  congr 1
  by_cases h : k = key <;> simp [lookup, h]

/-- The keys of members are in order, each once. -/
def KeysSorted (members : List (String × Json)) : Prop :=
  members.Pairwise (·.1 < ·.1)

theorem mem_insertMember {m : String × Json} (h : m ∈ insertMember key v members) :
    m = (key, v) ∨ m ∈ members := by
  induction members with
  | nil => exact .inl (List.mem_singleton.mp h)
  | cons first rest ih =>
    obtain ⟨l, w⟩ := first
    rw [insertMember] at h
    split at h
    · exact List.mem_cons.mp h
    · split at h
      · exact (List.mem_cons.mp h).imp id (List.mem_cons_of_mem _)
      · rcases List.mem_cons.mp h with rfl | h
        · exact .inr List.mem_cons_self
        · exact (ih h).imp id (List.mem_cons_of_mem _)

theorem mem_keys_insertMember (h : k ∈ (insertMember key v members).map (·.1)) :
    k = key ∨ k ∈ members.map (·.1) := by
  obtain ⟨m, hm, rfl⟩ := List.mem_map.mp h
  rcases mem_insertMember hm with rfl | hm
  · exact .inl rfl
  · exact .inr (List.mem_map_of_mem hm)

@[simp] theorem keysSorted_cons : KeysSorted ((k, v) :: members) ↔
    (∀ l ∈ members.map (·.1), k < l) ∧ KeysSorted members := by
  rw [KeysSorted, List.pairwise_cons, List.forall_mem_map]
  rfl

/-- Insertion keeps the keys in order. -/
theorem keysSorted_insertMember (key : String) (v : Json) (h : KeysSorted members) :
    KeysSorted (insertMember key v members) := by
  induction members with
  | nil => exact List.pairwise_singleton _ _
  | cons m rest ih =>
    obtain ⟨l, w⟩ := m
    obtain ⟨hl, hrest⟩ := keysSorted_cons.mp h
    rw [insertMember]
    rcases lt_trichotomy key l with hlt | rfl | hgt
    · rw [if_pos hlt]
      refine keysSorted_cons.mpr ⟨fun k hk => ?_, h⟩
      rcases List.mem_cons.mp hk with rfl | hk
      · exact hlt
      · exact hlt.trans (hl k hk)
    · rw [if_neg (lt_irrefl key), if_pos rfl]
      exact keysSorted_cons.mpr ⟨hl, hrest⟩
    · rw [if_neg hgt.asymm, if_neg hgt.ne']
      refine keysSorted_cons.mpr ⟨fun k hk => ?_, ih hrest⟩
      rcases mem_keys_insertMember hk with rfl | hk
      · exact hgt
      · exact hl k hk

theorem lookup_eq_none (h : key ∉ members.map (·.1)) : lookup members key = none := by
  rw [lookup, Option.map_eq_none_iff, List.find?_eq_none]
  intro m hm
  have hne : m.1 ≠ key := fun heq => h (heq ▸ List.mem_map_of_mem (List.mem_reverse.mp hm))
  simpa using hne

/-- Insertion changes what is found under its own key only. -/
theorem lookup_insertMember (h : KeysSorted members) :
    lookup (insertMember key v members) k = if key = k then some v else lookup members k := by
  induction members with
  | nil => rw [insertMember, lookup_cons]; rfl
  | cons m rest ih =>
    obtain ⟨l, w⟩ := m
    obtain ⟨hl, hrest⟩ := keysSorted_cons.mp h
    have hnew : ∀ {other : String}, other ≤ l → other ∉ rest.map (·.1) := fun hle hmem =>
      absurd (hl _ hmem) (not_lt_of_ge hle)
    rw [insertMember]
    rcases lt_trichotomy key l with hlt | rfl | hgt
    · rw [if_pos hlt, lookup_cons]
      by_cases hk : key = k
      · subst hk
        have hne : l ≠ key := hlt.ne'
        rw [lookup_cons, lookup_eq_none (hnew hlt.le), if_neg hne, if_pos rfl, if_pos rfl]
        rfl
      · rw [if_neg hk, if_neg hk, Option.or_none]
    · rw [if_neg (lt_irrefl key), if_pos rfl, lookup_cons, lookup_cons]
      by_cases hk : key = k
      · subst hk
        rw [lookup_eq_none (hnew le_rfl), if_pos rfl, if_pos rfl]
        rfl
      · rw [if_neg hk, if_neg hk]
        rw [if_neg hk]
    · rw [if_neg hgt.asymm, if_neg hgt.ne', lookup_cons, lookup_cons, ih hrest]
      by_cases hk : key = k
      · rw [if_pos hk, if_pos hk]
        rfl
      · rw [if_neg hk, if_neg hk]

/-! ## Sorting -/

@[simp] theorem sortedItems_eq_map (items : List Json) : sortedItems items = items.map sorted := by
  induction items with
  | nil => rfl
  | cons v rest ih => rw [sortedItems, ih, List.map_cons]

theorem keysSorted_sortedMembers (h : KeysSorted done) (members : List (String × Json)) :
    KeysSorted (sortedMembers done members) := by
  induction members generalizing done with
  | nil => exact h
  | cons m rest ih =>
    have hkeysSorted : KeysSorted (insertMember m.1 m.2.sorted done) :=
      keysSorted_insertMember m.1 m.2.sorted h
    exact ih hkeysSorted

/-- Each key keeps the last of its values. -/
theorem lookup_sortedMembers (h : KeysSorted done) (members : List (String × Json))
    (key : String) : lookup (sortedMembers done members) key =
      ((lookup members key).map sorted).or (lookup done key) := by
  induction members generalizing done with
  | nil => rfl
  | cons m rest ih =>
    obtain ⟨k, v⟩ := m
    have hkeysSorted : KeysSorted (insertMember k v.sorted done) :=
      keysSorted_insertMember k v.sorted h
    rw [sortedMembers, ih hkeysSorted, lookup_insertMember h, lookup_cons]
    cases lookup rest key <;> by_cases hk : k = key <;> simp [hk]

/-- Under each key stands the sorted value of the last member with that key. -/
@[simp] theorem lookup_sorted (members : List (String × Json)) (key : String) :
    lookup (sortedMembers [] members) key = (lookup members key).map sorted := by
  rw [lookup_sortedMembers .nil]
  exact Option.or_none

theorem insertMember_of_lt (h : ∀ k ∈ members.map (·.1), k < key) :
    insertMember key v members = members ++ [(key, v)] := by
  induction members with
  | nil => rfl
  | cons m rest ih =>
    obtain ⟨l, w⟩ := m
    obtain ⟨hl, hrest⟩ := List.forall_mem_cons.mp h
    rw [insertMember, if_neg (lt_asymm hl), if_neg (ne_of_gt hl), ih hrest]
    rfl

/-- Members in order are left as they are. -/
theorem sortedMembers_of_keysSorted (h : KeysSorted (done ++ members))
    (hvalues : ∀ m ∈ members, m.2.sorted = m.2) : sortedMembers done members = done ++ members := by
  induction members generalizing done with
  | nil => rw [sortedMembers, List.append_nil]
  | cons m rest ih =>
    obtain ⟨k, v⟩ := m
    obtain ⟨hv, hrest⟩ := List.forall_mem_cons.mp hvalues
    have hlast : ∀ l ∈ done.map (·.1), l < k :=
      List.forall_mem_map.mpr fun m hm =>
        (List.pairwise_append.mp h).2.2 m hm (k, v) List.mem_cons_self
    have hv : v.sorted = v := hv
    rw [List.append_cons] at h
    rw [sortedMembers, hv, insertMember_of_lt hlast, ih h hrest, ← List.append_cons]

theorem mem_sortedMembers {m : String × Json} (h : m ∈ sortedMembers done members) :
    m ∈ done ∨ ∃ m' ∈ members, m.2 = m'.2.sorted := by
  induction members generalizing done with
  | nil => exact .inl h
  | cons first rest ih =>
    rcases ih h with h | ⟨m', hm', heq⟩
    · rcases mem_insertMember h with rfl | h
      · exact .inr ⟨first, List.mem_cons_self, rfl⟩
      · exact .inl h
    · exact .inr ⟨m', List.mem_cons_of_mem _ hm', heq⟩

/-- Sorting a second time changes nothing. -/
@[simp] theorem sorted_sorted (v : Json) : v.sorted.sorted = v.sorted := by
  induction v using Json.induction with
  | null => rfl
  | bool b => rfl
  | num n => rfl
  | str s => rfl
  | arr items ih =>
    simp only [sorted, sortedItems_eq_map, List.map_map]
    have hitems : items.map (sorted ∘ sorted) = items.map sorted := List.map_congr_left ih
    rw [hitems]
  | obj members ih =>
    rw [sorted, sorted]
    have hkeysSorted : KeysSorted (sortedMembers [] members) :=
      keysSorted_sortedMembers .nil members
    refine congrArg obj (sortedMembers_of_keysSorted hkeysSorted ?_)
    intro m hm
    rcases mem_sortedMembers hm with hnil | ⟨m', hm', heq⟩
    · exact absurd hnil List.not_mem_nil
    · rw [heq, ih m' hm']

/-- An object is sorted if its keys are in order, each once, and its values are sorted. -/
theorem sorted_obj_eq_self : (obj members).sorted = obj members ↔
    KeysSorted members ∧ ∀ m ∈ members, m.2.sorted = m.2 := by
  rw [sorted, obj.injEq]
  constructor
  · intro h
    constructor
    · rw [← h]
      exact keysSorted_sortedMembers .nil members
    · intro m hm
      rw [← h] at hm
      rcases mem_sortedMembers hm with hnil | ⟨m', -, heq⟩
      · exact absurd hnil List.not_mem_nil
      · rw [heq, sorted_sorted]
  · rintro ⟨hkeys, hvalues⟩
    exact sortedMembers_of_keysSorted hkeys hvalues

theorem sorted_arr_eq_self {items : List Json} :
    (arr items).sorted = arr items ↔ ∀ v ∈ items, v.sorted = v := by
  have hid : items.map sorted = items ↔ items.map sorted = items.map id := by rw [List.map_id]
  rw [sorted, sortedItems_eq_map, arr.injEq, hid, List.map_inj_left]
  rfl

/-! ## Arrangements -/

/-- A way to arrange a value that a reader of records does not notice: texts and numbers stay,
items are arranged one by one, and what is read from an object is what was there, arranged. -/
structure Arrangement (f : Json → Json) : Prop where
  str : ∀ s, f (.str s) = .str s
  num : ∀ n, f (.num n) = .num n
  arr : ∀ items, f (.arr items) = .arr (items.map f)
  obj : ∀ members, ∃ arranged, f (.obj members) = .obj arranged ∧
    (∀ known, eachOnce known members = true → eachOnce known arranged = true) ∧
    ∀ key, lookup arranged key = (lookup members key).map f
  sorted : ∀ v, (f v).sorted = v.sorted

theorem arrangement_id : Arrangement id where
  str _ := rfl
  num _ := rfl
  arr items := congrArg Json.arr (List.map_id items).symm
  obj members := ⟨members, rfl, fun _ h => h, fun _ => Option.map_id'.symm⟩
  sorted _ := rfl

theorem eachOnce_of_keysSorted (known : List String) (h : KeysSorted members) :
    eachOnce known members = true := by
  refine List.all_eq_true.mpr fun key _ => decide_eq_true ?_
  have hkeys : ∀ m ∈ members.filter (·.1 = key), m.1 = key := fun m hm =>
    of_decide_eq_true (List.mem_filter.mp hm).2
  have hsorted : KeysSorted (members.filter (·.1 = key)) := List.Pairwise.filter _ h
  generalize members.filter (·.1 = key) = found at hkeys hsorted
  match found with
  | [] => exact Nat.zero_le 1
  | [m] => exact le_rfl
  | first :: second :: rest =>
    have hlt := (List.pairwise_cons.mp hsorted).1 second List.mem_cons_self
    rw [hkeys first List.mem_cons_self, hkeys second (List.mem_cons_of_mem _ List.mem_cons_self)]
      at hlt
    exact absurd hlt (lt_irrefl key)

/-- Sorted values are an arrangement: what readers look up is where it was. -/
theorem arrangement_sorted : Arrangement sorted where
  str _ := rfl
  num _ := rfl
  arr items := by rw [sorted, sortedItems_eq_map]
  obj members := ⟨sortedMembers [] members, by rw [sorted],
    fun known _ => eachOnce_of_keysSorted known (keysSorted_sortedMembers .nil members),
    lookup_sorted members⟩
  sorted := sorted_sorted

namespace Arrangement

variable {α : Type} {f : Json → Json} {arranged : List (String × Json)}

/-- A record with known keys is read as one, whatever the order of its members. -/
theorem record? (hf : Arrangement f) (known : List String) (members : List (String × Json))
    (h : eachOnce known members = true) :
    ∃ arranged, Json.record? known (f (.obj members)) = some arranged ∧
      ∀ key, lookup arranged key = (lookup members key).map f := by
  obtain ⟨arranged, hobj, honce, hlookup⟩ := hf.obj members
  exact ⟨arranged, by rw [hobj, Json.record?, if_pos (honce known h)], hlookup⟩

theorem obj_ne_null (hf : Arrangement f) (members : List (String × Json)) :
    f (.obj members) ≠ .null := by
  obtain ⟨arranged, hobj, -⟩ := hf.obj members
  rw [hobj]
  simp

theorem str_ne_null (hf : Arrangement f) (s : String) : f (.str s) ≠ .null := by
  rw [hf.str]
  simp

variable (hf : Arrangement f) (hlookup : ∀ key, lookup arranged key = (lookup members key).map f)
include hlookup

theorem value (read? : Json → Option α) (h : lookup members key = some v) :
    (lookup arranged key).bind read? = read? (f v) := by
  rw [hlookup, h]
  rfl

include hf in
theorem text? {s : String} (h : lookup members key = some (.str s)) :
    Json.text? arranged key = some s := by
  rw [Json.text?, Option.bind_eq_bind, value hlookup asString? h, hf.str]
  rfl

/-- A member that is left out if there is no value is read back. -/
theorem optional? (read? : Json → Option α) (write : α → Json) {o : Option α}
    (h : lookup members key = o.map write)
    (hread : ∀ x ∈ o, f (write x) ≠ .null ∧ read? (f (write x)) = some x) :
    Json.optional? read? arranged key = some o := by
  rw [Json.optional?, hlookup, h]
  cases o with
  | none => rfl
  | some x =>
    obtain ⟨hnull, hx⟩ := hread x rfl
    dsimp only [Option.map_some]
    split
    · next heq => cases heq
    · next heq => exact absurd (Option.some.inj heq) hnull
    · next heq =>
      rw [← Option.some.inj heq, hx]
      rfl

include hf in
/-- A text that is left out if there is none is read back. -/
theorem optionalText? {o : Option String} (h : lookup members key = o.map .str) :
    Json.optional? asString? arranged key = some o :=
  optional? hlookup asString? .str h fun s _ => ⟨hf.str_ne_null s, by rw [hf.str]; rfl⟩

omit hlookup
include hf

/-- Two texts of a record are read back. -/
theorem texts {first second : String} (honce : eachOnce known members = true)
    (hfirst : lookup members key = some (.str first))
    (hsecond : lookup members k = some (.str second)) (make : String → String → α) :
    (do
      let members ← Json.record? known (f (.obj members))
      return make (← Json.text? members key) (← Json.text? members k)) =
    some (make first second) := by
  obtain ⟨arranged, hrecord, hlookup⟩ := hf.record? known members honce
  simp only [hrecord, Option.bind_eq_bind, Option.bind_some, hf.text? hlookup hfirst,
    hf.text? hlookup hsecond]
  rfl

/-- Items are read back one by one. -/
theorem items? {read? : Json → Option α} {write : α → Json} {xs : List α}
    (h : ∀ x ∈ xs, read? (f (write x)) = some x) :
    Json.items? read? (f (.arr (xs.map write))) = some xs := by
  rw [hf.arr, Json.items?, asArray?, Option.bind_eq_bind, Option.bind_some, List.map_map]
  induction xs with
  | nil => rfl
  | cons x rest ih =>
    obtain ⟨hx, hrest⟩ := List.forall_mem_cons.mp h
    rw [List.map_cons, readEach?, Function.comp_apply, hx, ih hrest]
    rfl

end Arrangement

end FlowLint.Json

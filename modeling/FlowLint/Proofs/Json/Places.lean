import FlowLint.Proofs.Json.Sorted

/-!
# Places in a value

A place is the way to a value inside another: keys of objects and positions in arrays. Two values
have the same sorted form exactly if they have the same places with the same outlines, so that it
can be said where they differ. They differ at most in what stands at some places if they agree
everywhere else, the presence of something at those places included.

A mask puts a fixed mark at such places and changes nothing else. Masked values are compared as the
values would be if what stands there were left out of account.
-/

namespace FlowLint.Json

/-- One step into a value. -/
inductive Step
  | key (name : String)
  | index (place : Nat)
deriving DecidableEq

/-- The value that one step leads to; of several members with a key the last one counts. -/
def child? : Json → Step → Option Json
  | obj members, .key name => lookup members name
  | arr items, .index place => items[place]?
  | _, _ => none

/-- The value at a place. -/
def at? (v : Json) : List Step → Option Json
  | [] => some v
  | s :: rest => (v.child? s).bind (·.at? rest)

/-- What can be seen of a value without a step into it. -/
def outline : Json → Json
  | arr _ => arr []
  | obj _ => obj []
  | v => v

variable {v w v' w' c : Json} {members more : List (String × Json)} {s : Step}
  {place : List Step}

@[simp] theorem at?_cons (v : Json) (s : Step) (rest : List Step) :
    v.at? (s :: rest) = (v.child? s).bind (·.at? rest) :=
  rfl

theorem at?_singleton (v : Json) (s : Step) : v.at? [s] = v.child? s := by
  rw [at?_cons]
  exact Option.bind_fun_some _

theorem mem_of_lookup {key : String} (h : lookup members key = some v) : (key, v) ∈ members := by
  obtain ⟨m, hm, rfl⟩ := Option.map_eq_some_iff.mp h
  have hkey : m.1 = key := by simpa using List.find?_some hm
  rw [← hkey]
  exact List.mem_reverse.mp (List.mem_of_find?_eq_some hm)

/-! ## Members with other values -/

/-- The members with what a function makes of their values. -/
def mapValues (f : String → Json → Json) (members : List (String × Json)) : List (String × Json) :=
  members.map fun m => (m.1, f m.1 m.2)

/-- Two replacements of values are one. -/
@[simp] theorem mapValues_mapValues (f g : String → Json → Json) (members : List (String × Json)) :
    mapValues g (mapValues f members) = mapValues (fun k v => g k (f k v)) members :=
  List.map_map

@[simp] theorem lookup_mapValues (f : String → Json → Json) (members : List (String × Json))
    (key : String) : lookup (mapValues f members) key = (lookup members key).map (f key) := by
  induction members with
  | nil => rfl
  | cons m rest ih =>
    obtain ⟨k, v⟩ := m
    have ih : lookup (rest.map fun m => (m.1, f m.1 m.2)) key = (lookup rest key).map (f key) := ih
    rw [mapValues, List.map_cons, lookup_cons, lookup_cons, ih]
    by_cases hk : k = key
    · subst hk
      cases lookup rest k <;> simp
    · cases lookup rest key <;> simp [hk]

/-- Sorted members stay sorted if their values do. -/
theorem sorted_mapValues {f : String → Json → Json} (h : (obj members).sorted = obj members)
    (hf : ∀ m ∈ members, (f m.1 m.2).sorted = f m.1 m.2) :
    (obj (mapValues f members)).sorted = obj (mapValues f members) :=
  sorted_obj_eq_self.mpr ⟨List.pairwise_map.mpr (sorted_obj_eq_self.mp h).1,
    List.forall_mem_map.mpr hf⟩

/-- What holds of a value if it holds of all that a step leads to holds of every value. -/
theorem child_induction {motive : Json → Prop}
    (step : ∀ v, (∀ s c, v.child? s = some c → motive c) → motive v) (v : Json) : motive v := by
  induction v using Json.induction with
  | null | bool | num | str => exact step _ fun s c h => nomatch h
  | arr items ih =>
    refine step _ fun s c h => ?_
    cases s with
    | key name => cases h
    | index place => exact ih c (List.mem_of_getElem? h)
  | obj members ih =>
    refine step _ fun s c h => ?_
    cases s with
    | key name => exact ih _ (mem_of_lookup h)
    | index place => cases h

/-! ## Sorted values have the same places -/

@[simp]
theorem child?_sorted (v : Json) (s : Step) : v.sorted.child? s = (v.child? s).map sorted := by
  cases v <;> cases s <;> simp [sorted, child?]

@[simp] theorem outline_sorted (v : Json) : v.sorted.outline = v.outline := by
  cases v <;> simp [sorted, outline]

/-- Sorting keeps everything at its place. -/
@[simp] theorem at?_sorted (v : Json) (place : List Step) :
    v.sorted.at? place = (v.at? place).map sorted := by
  induction place generalizing v with
  | nil => rfl
  | cons s rest ih =>
    rw [at?_cons, at?_cons, child?_sorted]
    cases v.child? s with
    | none => rfl
    | some c => exact ih c

theorem mem_iff_lookup (h : KeysSorted members) (m : String × Json) :
    m ∈ members ↔ lookup members m.1 = some m.2 := by
  refine ⟨fun hm => ?_, mem_of_lookup⟩
  induction members with
  | nil => exact absurd hm List.not_mem_nil
  | cons first rest ih =>
    obtain ⟨k, w⟩ := first
    obtain ⟨hk, hrest⟩ := keysSorted_cons.mp h
    rw [lookup_cons]
    rcases List.mem_cons.mp hm with rfl | hm
    · rw [lookup_eq_none fun hmem => lt_irrefl _ (hk _ hmem), if_pos rfl]
      rfl
    · rw [ih hrest hm]
      rfl

/-- Members in the order of their keys are known by what is looked up in them. -/
theorem eq_of_lookup (h : KeysSorted members) (h' : KeysSorted more)
    (heq : ∀ key, lookup members key = lookup more key) : members = more := by
  have hmem : ∀ m, m ∈ members ↔ m ∈ more := fun m => by
    rw [mem_iff_lookup h, mem_iff_lookup h', heq]
  have hnodup : ∀ {ms : List (String × Json)}, KeysSorted ms → ms.Nodup :=
    fun hms => List.Pairwise.imp (fun hlt heq => hlt.ne (congrArg Prod.fst heq)) hms
  have hperm : members.Perm more := (List.perm_ext_iff_of_nodup (hnodup h) (hnodup h')).mpr hmem
  exact hperm.eq_of_pairwise (fun _ _ _ _ hlt hgt => absurd hlt hgt.asymm) h h'

/-- Values of one outline whose children have the same sorted form have it themselves. -/
theorem sorted_eq_of_children (houtline : v.outline = w.outline)
    (hchild : ∀ s, (v.child? s).map sorted = (w.child? s).map sorted) : v.sorted = w.sorted := by
  cases v <;> cases w <;> first | exact houtline | skip
  case arr.arr xs ys =>
    rw [sorted, sorted, sortedItems_eq_map, sortedItems_eq_map]
    refine congrArg arr (List.ext_getElem? fun i => ?_)
    rw [List.getElem?_map, List.getElem?_map]
    exact hchild (.index i)
  case obj.obj ms ns =>
    rw [sorted, sorted]
    refine congrArg obj (eq_of_lookup (keysSorted_sortedMembers .nil ms)
      (keysSorted_sortedMembers .nil ns) fun key => ?_)
    rw [lookup_sorted, lookup_sorted]
    exact hchild (.key key)
  all_goals cases houtline

/-- Values have one sorted form exactly if their outlines agree at every place. -/
theorem sorted_eq_iff : v.sorted = w.sorted ↔
    ∀ place, (v.at? place).map outline = (w.at? place).map outline := by
  constructor
  · intro h place
    have hat : (v.at? place).map sorted = (w.at? place).map sorted := by
      rw [← at?_sorted, ← at?_sorted, h]
    have houtline := congrArg (Option.map outline) hat
    rw [Option.map_map, Option.map_map] at houtline
    simpa [Function.comp_def] using houtline
  · intro h
    induction v using child_induction generalizing w with
    | step v ih =>
      refine sorted_eq_of_children (Option.some.inj (h [])) fun s => ?_
      have hstep := fun rest => h (s :: rest)
      simp only [at?_cons] at hstep
      cases hv : v.child? s with
      | none =>
        have hhere := hstep []
        cases hw : w.child? s with
        | none => rfl
        | some d => simp [hv, hw, at?] at hhere
      | some c =>
        have hhere := hstep []
        cases hw : w.child? s with
        | none => simp [hv, hw, at?] at hhere
        | some d =>
          refine congrArg some (ih s c hv fun rest => ?_)
          simpa [hv, hw] using hstep rest

/-! ## Comparing values -/

theorem sameItems_iff {items others : List Json}
    (h : ∀ v ∈ items, ∀ w, v.same w = true ↔ v = w) :
    sameItems items others = true ↔ items = others := by
  induction items generalizing others with
  | nil => cases others <;> simp [sameItems]
  | cons v rest ih =>
    obtain ⟨hv, hrest⟩ := List.forall_mem_cons.mp h
    cases others with
    | nil => simp [sameItems]
    | cons w others => rw [sameItems, Bool.and_eq_true, hv, ih hrest, List.cons.injEq]

theorem sameMembers_iff {others : List (String × Json)}
    (h : ∀ m ∈ members, ∀ w, m.2.same w = true ↔ m.2 = w) :
    sameMembers members others = true ↔ members = others := by
  induction members generalizing others with
  | nil => cases others <;> simp [sameMembers]
  | cons m rest ih =>
    obtain ⟨hm, hrest⟩ := List.forall_mem_cons.mp h
    cases others with
    | nil => simp [sameMembers]
    | cons m' others =>
      rw [sameMembers, Bool.and_eq_true, Bool.and_eq_true, beq_iff_eq, hm, ih hrest,
        List.cons.injEq, Prod.mk.injEq]

/-- Values are the same if they are equal. -/
theorem same_iff : v.same w = true ↔ v = w := by
  induction v using Json.induction generalizing w with
  | null => cases w <;> simp [same]
  | bool b => cases w <;> simp [same]
  | num n => cases w <;> simp [same]
  | str s => cases w <;> simp [same]
  | arr items ih =>
    cases w with
    | arr others => rw [same, sameItems_iff fun v hv w => ih v hv, arr.injEq]
    | _ => simp [same]
  | obj members ih =>
    cases w with
    | obj others => rw [same, sameMembers_iff fun m hm w => ih m hm, obj.injEq]
    | _ => simp [same]

/-! ## Differences at some places -/

/-- Nothing on the way to a place is one of the places. -/
def Outside (places : List Step → Prop) (place : List Step) : Prop :=
  ∀ before s after, place = before ++ s :: after → ¬ places before

/-- Two values agree everywhere but in what stands at some places: the same places are there, as
far as none of the given ones leads to them, and they look the same but for the given ones. -/
structure DifferAtMost (places : List Step → Prop) (v w : Json) : Prop where
  present : ∀ place, Outside places place → (v.at? place).isSome = (w.at? place).isSome
  outline : ∀ place, Outside places place → ¬ places place →
    (v.at? place).map outline = (w.at? place).map outline

@[simp] theorem differAtMost_sorted_left {places : List Step → Prop} :
    DifferAtMost places v.sorted w ↔ DifferAtMost places v w := by
  have hpresent : ∀ place, (v.sorted.at? place).isSome = (v.at? place).isSome := fun place => by
    rw [at?_sorted, Option.isSome_map]
  have houtline : ∀ place, (v.sorted.at? place).map Json.outline = (v.at? place).map Json.outline :=
    sorted_eq_iff.mp (sorted_sorted v)
  constructor
  · intro h
    exact ⟨fun place ho => hpresent place ▸ h.present place ho,
      fun place ho hp => houtline place ▸ h.outline place ho hp⟩
  · intro h
    constructor
    · intro place ho
      rw [hpresent place, h.present place ho]
    · intro place ho hp
      rw [houtline place, h.outline place ho hp]

/-- Of two values neither is the original. -/
theorem DifferAtMost.symm {places : List Step → Prop} (h : DifferAtMost places v w) :
    DifferAtMost places w v :=
  ⟨fun place ho => (h.present place ho).symm, fun place ho hp => (h.outline place ho hp).symm⟩

@[simp] theorem differAtMost_sorted_right {places : List Step → Prop} :
    DifferAtMost places v w.sorted ↔ DifferAtMost places v w :=
  ⟨fun h => (differAtMost_sorted_left.mp h.symm).symm,
    fun h => (differAtMost_sorted_left.mpr h.symm).symm⟩

/-- A mask of some places of a value: marks stand there and all else is as before. -/
structure Masks (places : List Step → Prop) (mark : List Step → Json) (v v' : Json) : Prop where
  kept : ∀ place, Outside places place → ¬ places place →
    (v'.at? place).map outline = (v.at? place).map Json.outline
  marked : ∀ place, Outside places place → places place →
    v'.at? place = (v.at? place).map fun _ => mark place
  shut : ∀ place, ¬ Outside places place → v'.at? place = none

variable {places : List Step → Prop} {mark : List Step → Json}

/-- Masked values are the same exactly if the values differ at most at the masked places. -/
theorem Masks.sorted_eq_iff (h : Masks places mark v v') (h' : Masks places mark w w') :
    v'.sorted = w'.sorted ↔ DifferAtMost places v w := by
  rw [Json.sorted_eq_iff]
  constructor
  · intro heq
    have hkept : ∀ place, Outside places place → ¬ places place →
        (v.at? place).map Json.outline = (w.at? place).map Json.outline := by
      intro place ho hp
      rw [← h.kept place ho hp, ← h'.kept place ho hp, heq]
    refine ⟨fun place ho => ?_, hkept⟩
    by_cases hp : places place
    · have hmarked := congrArg Option.isSome (heq place)
      rw [h.marked place ho hp, h'.marked place ho hp] at hmarked
      simpa using hmarked
    · have heq' : Option.map outline (v.at? place) = Option.map outline (w.at? place) :=
        hkept place ho hp
      simpa using congrArg Option.isSome heq'
  · intro hdiffer place
    by_cases ho : Outside places place
    · by_cases hp : places place
      · have hpresent := hdiffer.present place ho
        rw [h.marked place ho hp, h'.marked place ho hp]
        cases hv : v.at? place <;> cases hw : w.at? place <;> simp_all
      · rw [h.kept place ho hp, h'.kept place ho hp, hdiffer.outline place ho hp]
    · rw [h.shut place ho, h'.shut place ho]

/-- A masked value differs from the value at most at the masked places. -/
theorem Masks.differAtMost (h : Masks places mark v v') : DifferAtMost places v v' := by
  refine ⟨fun place ho => ?_, fun place ho hp => (h.kept place ho hp).symm⟩
  by_cases hp : places place
  · rw [h.marked place ho hp, Option.isSome_map]
  · simpa using congrArg Option.isSome (h.kept place ho hp).symm

/-- Values with one sorted form differ nowhere. -/
theorem differAtMost_of_sorted_eq (h : v.sorted = w.sorted) : DifferAtMost places v w :=
  differAtMost_sorted_left.mp (h ▸ differAtMost_sorted_left.mpr
    ⟨fun _ _ => rfl, fun _ _ _ => rfl⟩)

/-! ## Masks level by level -/

theorem outside_nil (places : List Step → Prop) : Outside places [] :=
  fun _ _ _ h => absurd h (by simp)

theorem outside_cons (hroot : ¬ places []) (s : Step) (rest : List Step) :
    Outside places (s :: rest) ↔ Outside (fun place => places (s :: place)) rest := by
  constructor
  · rintro ho before t after rfl
    exact ho (s :: before) t after rfl
  · intro ho before t after heq
    cases before with
    | nil => exact hroot
    | cons s' before =>
      obtain ⟨rfl, rfl⟩ := List.cons.inj heq
      exact ho before t after rfl

/-- A mask is put on level by level: a step leads to a mark, or else to a value with a mask on it
where it led to a value before. -/
theorem Masks.of_children (hroot : ¬ places []) (houtline : v'.outline = v.outline)
    (hmarked : ∀ s, places [s] → v'.child? s = (v.child? s).map fun _ => mark [s])
    (hscalar : ∀ s, places [s] → ∀ t, (mark [s]).child? t = none)
    (hkept : ∀ s, ¬ places [s] → ∃ f, v'.child? s = (v.child? s).map f ∧
      ∀ c, v.child? s = some c →
        Masks (fun place => places (s :: place)) (fun place => mark (s :: place)) c (f c)) :
    Masks places mark v v' := by
  have hlast : ∀ s rest, places [s] → Outside places (s :: rest) → rest = [] := by
    intro s rest hs ho
    cases rest with
    | nil => rfl
    | cons t rest => exact absurd hs (ho [s] t rest rfl)
  constructor
  · intro place ho hp
    cases place with
    | nil => exact congrArg some houtline
    | cons s rest =>
      by_cases hs : places [s]
      · rw [hlast s rest hs ho] at hp
        exact absurd hs hp
      · rw [at?_cons, at?_cons]
        obtain ⟨f, hv', hmasks⟩ := hkept s hs
        rw [hv']
        cases hv : v.child? s with
        | none => rfl
        | some c =>
          have houtside : Outside (fun place => places (s :: place)) rest :=
            (outside_cons hroot s rest).mp ho
          exact (hmasks c hv).kept rest houtside hp
  · intro place ho hp
    cases place with
    | nil => exact absurd hp hroot
    | cons s rest =>
      rw [at?_cons, at?_cons]
      by_cases hs : places [s]
      · rw [hlast s rest hs ho, hmarked s hs]
        cases v.child? s <;> rfl
      · obtain ⟨f, hv', hmasks⟩ := hkept s hs
        rw [hv']
        cases hv : v.child? s with
        | none => rfl
        | some c =>
          have houtside : Outside (fun place => places (s :: place)) rest :=
            (outside_cons hroot s rest).mp ho
          exact (hmasks c hv).marked rest houtside hp
  · intro place ho
    cases place with
    | nil => exact absurd (outside_nil places) ho
    | cons s rest =>
      have ho := mt (outside_cons hroot s rest).mpr ho
      rw [at?_cons]
      by_cases hs : places [s]
      · rw [hmarked s hs]
        cases rest with
        | nil =>
          have houtside : Outside (fun place => places (s :: place)) [] := outside_nil _
          exact absurd houtside ho
        | cons t rest => cases v.child? s <;> simp [hscalar s hs t]
      · obtain ⟨f, hv', hmasks⟩ := hkept s hs
        rw [hv']
        cases hv : v.child? s with
        | none => rfl
        | some c => exact (hmasks c hv).shut rest ho

end FlowLint.Json

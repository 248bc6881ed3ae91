import FlowLint.Proofs.Json.Places
import FlowLint.Proofs.Json.Tokens
import FlowLint.Report.Masking

/-!
# What masking leaves out of account

Masking a value twice is masking it once. Two values of which one is a report are the same when
masked exactly if they differ at most in what stands under the keys of times, wherever it stands,
and in the version of the tool of the whole report. That a key is there at all is never left out of
account, nor is a version anywhere else.

Values that are no reports keep their versions; nothing is said of two such values.
-/

namespace FlowLint.Report

open FlowLint.Json (DifferAtMost Legible Masks Outside Step child? child_induction lookup mapValues
  mapValues_mapValues outline)

variable {v w : Json} {members : List (String × Json)} {key : String} {s : Step}
  {place : List Step}

/-! ## Volatile places -/

/-- The last step to a place is the key of a time. -/
def IsTime (place : List Step) : Prop :=
  ∃ key ∈ timeKeys, place.getLast? = some (.key key)

/-- What stands at a place may change from run to run. -/
def IsVolatile (place : List Step) : Prop :=
  IsTime place ∨ place = [.key "tool", .key "version"]

/-- A value has what all reports have, be it a report or not. -/
structure IsEnvelope (v : Json) : Prop where
  members : ∀ key ∈ ["schema", "tool", "verdict", "issues", "data"], (v.child? (.key key)).isSome
  tool : ∃ tool, v.child? (.key "tool") = some tool ∧
    ∀ key ∈ ["name", "version"], (tool.child? (.key key)).isSome

/-- The mark at a volatile place. -/
def markAt (place : List Step) : Json :=
  if place = [.key "tool", .key "version"] then versionMark else timeMark

/-! ## Masking twice -/

@[simp] theorem maskItems_eq_map (items : List Json) : maskItems items = items.map maskTimes := by
  induction items with
  | nil => rfl
  | cons v rest ih => rw [maskItems, ih, List.map_cons]

/-- What becomes of the value of a key. -/
def maskValue (key : String) (v : Json) : Json :=
  if timeKeys.contains key then timeMark else maskTimes v

@[simp] theorem maskMembers_eq (members : List (String × Json)) :
    maskMembers members = mapValues maskValue members := by
  induction members with
  | nil => rfl
  | cons m rest ih =>
    obtain ⟨k, v⟩ := m
    rw [maskMembers, ih]
    rfl

/-- What becomes of the value of a key in a tool. -/
def maskVersionValue (key : String) (v : Json) : Json :=
  if key = "version" then versionMark else v

theorem maskTool_obj (members : List (String × Json)) : maskTool (.obj members) =
    .obj (if hasKey members "name" && hasKey members "version" then
      mapValues maskVersionValue members else members) := by
  rw [maskTool]
  split
  · refine congrArg Json.obj (List.map_congr_left fun m _ => ?_)
    rw [maskVersionValue]
    split
    · next h => rw [h]
    · rfl
  · rfl

/-- What becomes of the value of a key in a report. -/
def maskToolValue (key : String) (v : Json) : Json :=
  if key = "tool" then maskTool v else v

theorem maskVersion_obj (members : List (String × Json)) : maskVersion (.obj members) =
    .obj (if isEnvelope members then mapValues maskToolValue members else members) := by
  rw [maskVersion]
  split
  · refine congrArg Json.obj (List.map_congr_left fun m _ => ?_)
    rw [maskToolValue]
    split <;> rfl
  · rfl

@[simp] theorem hasKey_mapValues (f : String → Json → Json) (members : List (String × Json)) :
    hasKey (mapValues f members) = hasKey members := by
  funext key
  rw [hasKey, mapValues, List.any_map]
  rfl

@[simp] theorem isEnvelope_mapValues (f : String → Json → Json) (members : List (String × Json)) :
    isEnvelope (mapValues f members) = isEnvelope members := by
  simp [isEnvelope]

@[simp] theorem maskTimes_maskTimes (v : Json) : maskTimes (maskTimes v) = maskTimes v := by
  induction v using Json.induction with
  | null | bool | num | str => rfl
  | arr items ih =>
    simp only [maskTimes, maskItems_eq_map, List.map_map]
    have hitems : items.map (maskTimes ∘ maskTimes) = items.map maskTimes :=
      List.map_congr_left ih
    rw [hitems]
  | obj members ih =>
    simp only [maskTimes, maskMembers_eq, mapValues_mapValues]
    refine congrArg Json.obj (List.map_congr_left fun m hm => ?_)
    simp only [maskValue]
    split
    · rfl
    · rw [ih m hm]

@[simp] theorem maskTool_maskTool (v : Json) : maskTool (maskTool v) = maskTool v := by
  cases v with
  | null | bool | num | str | arr => rfl
  | obj members =>
    have hvalue : ∀ k v, maskVersionValue k (maskVersionValue k v) = maskVersionValue k v := by
      intro k v
      simp only [maskVersionValue]
      split <;> rfl
    rw [maskTool_obj, maskTool_obj]
    split <;> simp_all [hasKey_mapValues, mapValues_mapValues]

/-- Masking the version and masking the times do not interfere. -/
theorem maskTool_maskTimes (v : Json) : maskTool (maskTimes v) = maskTimes (maskTool v) := by
  cases v with
  | null | bool | num | str | arr => rfl
  | obj members =>
    have hvalue : ∀ k v,
        maskVersionValue k (maskValue k v) = maskValue k (maskVersionValue k v) := by
      intro k v
      by_cases hk : k = "version"
      · subst hk
        rfl
      · rw [maskVersionValue, if_neg hk, maskVersionValue, if_neg hk]
    simp only [maskTool_obj, maskTimes, maskMembers_eq, hasKey_mapValues]
    split <;> simp [hvalue]

@[simp]
theorem maskVersion_maskVersion (v : Json) : maskVersion (maskVersion v) = maskVersion v := by
  cases v with
  | null | bool | num | str | arr => rfl
  | obj members =>
    have hvalue : ∀ k v, maskToolValue k (maskToolValue k v) = maskToolValue k v := by
      intro k v
      simp only [maskToolValue]
      split
      · exact maskTool_maskTool v
      · rfl
    rw [maskVersion_obj, maskVersion_obj]
    split <;> simp_all [isEnvelope_mapValues, mapValues_mapValues]

theorem maskVersion_maskTimes (v : Json) :
    maskVersion (maskTimes v) = maskTimes (maskVersion v) := by
  cases v with
  | null | bool | num | str | arr => rfl
  | obj members =>
    have hvalue : ∀ k v, maskToolValue k (maskValue k v) = maskValue k (maskToolValue k v) := by
      intro k v
      by_cases hk : k = "tool"
      · subst hk
        exact maskTool_maskTimes v
      · rw [maskToolValue, if_neg hk, maskToolValue, if_neg hk]
    simp only [maskVersion_obj, maskTimes, maskMembers_eq, isEnvelope_mapValues]
    split <;> simp [hvalue]

/-- Masking a value a second time changes nothing. -/
@[simp] theorem mask_mask (v : Json) : mask (mask v) = mask v := by
  simp [mask, maskVersion_maskTimes]

/-! ## Masks on volatile places -/

theorem isTime_singleton : IsTime [s] ↔ ∃ key ∈ timeKeys, s = .key key := by
  simp [IsTime]

/-- Below a place that is not that of a time, the times are those of what stands there. -/
theorem isTime_append {before : List Step} (h : ¬ IsTime before)
    (place : List Step) : IsTime (before ++ place) ↔ IsTime place := by
  cases place with
  | nil =>
    rw [List.append_nil]
    exact iff_of_false h (by simp [IsTime])
  | cons t rest => rw [IsTime, IsTime, List.getLast?_append_of_ne_nil _ (List.cons_ne_nil t rest)]

@[simp] theorem outline_maskTimes (v : Json) : outline (maskTimes v) = outline v := by
  cases v <;> simp [maskTimes, outline]

/-- Masking keeps every child at its place and masks it, as a time or further inside. -/
theorem child?_maskTimes (v : Json) (s : Step) : child? (maskTimes v) s =
    (child? v s).map fun c => match s with
      | .key name => maskValue name c
      | .index _ => maskTimes c := by
  cases v <;> cases s <;>
    simp [maskTimes, child?]

theorem child?_maskTimes_time (hs : IsTime [s]) (v : Json) :
    child? (maskTimes v) s = (child? v s).map fun _ => timeMark := by
  obtain ⟨key, hkey, rfl⟩ := isTime_singleton.mp hs
  simp [child?_maskTimes, maskValue, hkey]

theorem child?_maskTimes_other (hs : ¬ IsTime [s]) (v : Json) :
    child? (maskTimes v) s = (child? v s).map maskTimes := by
  rw [child?_maskTimes]
  cases s with
  | index place => rfl
  | key name =>
    have hname : name ∉ timeKeys := fun h => hs (isTime_singleton.mpr ⟨name, h, rfl⟩)
    simp [maskValue, hname]

/-- Times are replaced, at whatever depth, and nothing else. -/
theorem masks_maskTimes (v : Json) : Masks IsTime (fun _ => timeMark) v (maskTimes v) := by
  induction v using child_induction with
  | step v ih =>
    have houtline : (maskTimes v).outline = v.outline := outline_maskTimes v
    refine .of_children ?_ houtline (fun s hs => child?_maskTimes_time hs v)
      (fun _ _ t => by cases t <;> rfl) fun s hs => ?_
    · simp [IsTime]
    · have hbelow : (fun place => IsTime (s :: place)) = IsTime :=
        funext fun place => propext (isTime_append hs place)
      rw [hbelow]
      exact ⟨maskTimes, child?_maskTimes_other hs v, ih s⟩

/-- Below a place that is not that of a time and does not lead to the version of the tool, to mask
the times is to put on the whole mask. -/
theorem masks_below {before : List Step} (h : ¬ IsTime before)
    (hversion : ∀ place, before ++ place ≠ [.key "tool", .key "version"]) (v : Json) :
    Masks (fun place => IsVolatile (before ++ place)) (fun place => markAt (before ++ place)) v
      (maskTimes v) := by
  have hplaces : (fun place => IsVolatile (before ++ place)) = IsTime :=
    funext fun place => propext ((or_iff_left (hversion place)).trans (isTime_append h place))
  have hmarks : (fun place => markAt (before ++ place)) = fun _ => timeMark :=
    funext fun place => if_neg (hversion place)
  rw [hplaces, hmarks]
  exact masks_maskTimes v

theorem hasKey_eq (members : List (String × Json)) (key : String) :
    hasKey members key = (lookup members key).isSome := by
  rw [Bool.eq_iff_iff, lookup, Option.isSome_map, List.find?_isSome]
  simp [hasKey]

@[simp] theorem outline_maskTool (v : Json) : outline (maskTool v) = outline v := by
  cases v with
  | null | bool | num | str | arr => rfl
  | obj members => rw [maskTool_obj]; rfl

/-- In a tool the version is replaced and nothing else. -/
theorem child?_maskTool (hname : (child? v (.key "name")).isSome)
    (hversion : (child? v (.key "version")).isSome) (s : Step) : child? (maskTool v) s =
      if s = .key "version" then (child? v s).map fun _ => versionMark else child? v s := by
  cases v with
  | null | bool | num | str | arr => cases hname
  | obj members =>
    have hmembers : (hasKey members "name" && hasKey members "version") = true := by
      rw [hasKey_eq, hasKey_eq, Bool.and_eq_true]
      exact ⟨hname, hversion⟩
    rw [maskTool_obj, if_pos hmembers]
    cases s with
    | index place => rfl
    | key name =>
      rw [child?, child?, Json.lookup_mapValues]
      by_cases hversion : name = "version"
      · subst hversion
        rw [if_pos rfl]
        rfl
      · have hid : maskVersionValue name = id := funext fun _ => if_neg hversion
        rw [if_neg (by simpa using hversion), hid, Option.map_id_fun, id]

@[simp] theorem outline_maskVersion (v : Json) : outline (maskVersion v) = outline v := by
  cases v with
  | null | bool | num | str | arr => rfl
  | obj members => rw [maskVersion_obj]; rfl

theorem child?_maskVersion_other (hs : s ≠ .key "tool") (v : Json) :
    child? (maskVersion v) s = child? v s := by
  cases v with
  | null | bool | num | str | arr => rfl
  | obj members =>
    rw [maskVersion_obj]
    split
    · cases s with
      | index place => rfl
      | key name =>
        have hid : maskToolValue name = id :=
          funext fun _ => if_neg fun h => hs (congrArg Step.key h)
        simp [child?, hid]
    · rfl

theorem child?_maskVersion_tool (h : IsEnvelope v) :
    child? (maskVersion v) (.key "tool") = (child? v (.key "tool")).map maskTool := by
  have hmembers := h.members
  cases v with
  | null | bool | num | str | arr => cases hmembers "schema" (by simp)
  | obj members =>
    have henvelope : isEnvelope members = true := by
      refine List.all_eq_true.mpr fun key hkey => ?_
      rw [hasKey_eq]
      exact hmembers key hkey
    rw [maskVersion_obj, if_pos henvelope, child?, child?, Json.lookup_mapValues]
    rfl

@[simp] theorem child?_markAt (place : List Step) (s : Step) : child? (markAt place) s = none := by
  rw [markAt]
  split <;> cases s <;> rfl

theorem masks_tool (hname : (child? v (.key "name")).isSome)
    (hversion : (child? v (.key "version")).isSome) :
    Masks (fun place => IsVolatile (.key "tool" :: place))
      (fun place => markAt (.key "tool" :: place)) v (maskTimes (maskTool v)) := by
  have htool : ¬ IsTime [.key "tool"] := by simp [isTime_singleton, timeKeys]
  have htime : ∀ {s}, IsTime [.key "tool", s] ↔ IsTime [s] := fun {s} =>
    isTime_append htool [s]
  have hother : ∀ {s : Step}, s ≠ .key "version" → child? (maskTool v) s = child? v s := by
    intro s hs
    rw [child?_maskTool hname hversion, if_neg hs]
  refine .of_children ?_ ?_ (fun s hs => ?_) (fun _ _ => child?_markAt _) fun s hs => ?_
  · rintro (htime | heq)
    · exact htool htime
    · cases heq
  · rw [outline_maskTimes, outline_maskTool]
  · by_cases hs' : s = .key "version"
    · subst hs'
      have hother : ¬ IsTime [.key "version"] := by simp [isTime_singleton, timeKeys]
      rw [child?_maskTimes_other hother, child?_maskTool hname hversion, if_pos rfl, Option.map_map]
      rfl
    · have hne : ([.key "tool", s] : List Step) ≠ [.key "tool", .key "version"] := by
        simpa using hs'
      have hmark : markAt [.key "tool", s] = timeMark := if_neg hne
      have hs := htime.mp (hs.resolve_right hne)
      rw [child?_maskTimes_time hs, hother hs', hmark]
  · obtain ⟨hs, hne⟩ := not_or.mp hs
    have hs' : s ≠ .key "version" := by simpa using hne
    refine ⟨maskTimes, ?_, fun c _ => masks_below hs (by simp [hs']) c⟩
    rw [child?_maskTimes_other (mt htime.mpr hs), hother hs']

/-- In an envelope the times and the version of the tool are replaced, and nothing else. -/
theorem masks_mask (h : IsEnvelope v) : Masks IsVolatile markAt v (mask v) := by
  have hsingle : ∀ {s}, IsVolatile [s] ↔ IsTime [s] := fun {s} => or_iff_left (by simp)
  refine .of_children ?_ ?_ (fun s hs => ?_) (fun _ _ => child?_markAt _) fun s hs => ?_
  · simp [IsVolatile, IsTime]
  · simp [mask]
  · have hs := hsingle.mp hs
    have hs' : s ≠ .key "tool" := by
      rintro rfl
      simp [isTime_singleton, timeKeys] at hs
    have hmark : markAt [s] = timeMark := if_neg (by simp)
    rw [mask, child?_maskTimes_time hs, child?_maskVersion_other hs', hmark]
  · have hs := mt hsingle.mpr hs
    rw [mask, child?_maskTimes_other hs]
    by_cases hs' : s = .key "tool"
    · subst hs'
      obtain ⟨tool, htool, hkeys⟩ := h.tool
      refine ⟨fun tool => maskTimes (maskTool tool), ?_, fun c hc => ?_⟩
      · rw [child?_maskVersion_tool h, Option.map_map]
        rfl
      · obtain rfl := Option.some.inj (htool.symm.trans hc)
        have hsome : (tool.child? (Step.key "name")).isSome = true := hkeys "name" (by simp)
        have hisSome' : (tool.child? (Step.key "version")).isSome = true :=
          hkeys "version" (by simp)
        exact masks_tool hsome hisSome'
    · refine ⟨maskTimes, ?_, fun c _ => masks_below hs (by simp [hs']) c⟩
      rw [child?_maskVersion_other hs']

/-! ## Reports that differ in volatile places -/

theorem outside_one (s : Step) : Outside IsVolatile [s] :=
  (Json.outside_cons (by simp [IsVolatile, IsTime]) s []).mpr (Json.outside_nil _)

theorem outside_two (hs : ¬ IsTime [s]) (s' : Step) : Outside IsVolatile [s, s'] := by
  have houtside : Outside (fun place => IsVolatile (s :: place)) [s'] :=
    (Json.outside_cons (by simpa [IsVolatile] using hs) s' []).mpr (Json.outside_nil _)
  exact (Json.outside_cons (by simp [IsVolatile, IsTime]) s [s']).mpr houtside

/-- What differs from an envelope in volatile places is an envelope. -/
theorem isEnvelope_of_differAtMost (h : DifferAtMost IsVolatile v w) (hv : IsEnvelope v) :
    IsEnvelope w := by
  have hone : ∀ s, (child? v s).isSome = (child? w s).isSome := fun s => by
    rw [← Json.at?_singleton, ← Json.at?_singleton]
    exact h.present [s] (outside_one s)
  refine ⟨fun key hkey => hone _ ▸ hv.members key hkey, ?_⟩
  obtain ⟨tool, htool, hkeys⟩ := hv.tool
  have hsome : (w.child? (Step.key "tool")).isSome = true :=
    (hone (.key "tool")).symm.trans (congrArg Option.isSome htool)
  obtain ⟨tool', htool'⟩ := Option.isSome_iff_exists.mp hsome
  refine ⟨tool', htool', fun key hkey => ?_⟩
  have htwo := h.present [.key "tool", .key key]
    (outside_two (by simp [isTime_singleton, timeKeys]) (.key key))
  rw [Json.at?_cons, htool, Option.bind_some, Json.at?_singleton, Json.at?_cons, htool',
    Option.bind_some, Json.at?_singleton] at htwo
  rw [← htwo]
  exact hkeys key hkey

theorem isSome_child?_maskTool (v : Json) (s : Step) :
    (child? (maskTool v) s).isSome = (child? v s).isSome := by
  cases v with
  | null | bool | num | str | arr => rfl
  | obj members =>
    rw [maskTool_obj]
    split
    · cases s with
      | index place => rfl
      | key name => rw [child?, child?, Json.lookup_mapValues, Option.isSome_map]
    · rfl

theorem child?_maskVersion (v : Json) (s : Step) : ∃ f : Json → Json, (f = id ∨ f = maskTool) ∧
    child? (maskVersion v) s = (child? v s).map f := by
  by_cases hs : s = .key "tool"
  · subst hs
    cases v with
    | null | bool | num | str | arr => exact ⟨id, .inl rfl, rfl⟩
    | obj members =>
      rw [maskVersion_obj]
      split
      · have hlookup : lookup (mapValues maskToolValue members) "tool" =
            Option.map (maskToolValue "tool") (lookup members "tool") :=
          Json.lookup_mapValues _ _ _
        exact ⟨maskTool, .inr rfl, hlookup⟩
      · exact ⟨id, .inl rfl, (Option.map_id_apply).symm⟩
  · exact ⟨id, .inl rfl, (child?_maskVersion_other hs v).trans Option.map_id_apply.symm⟩

/-- Masking makes no report of what is none. -/
theorem isEnvelope_of_mask (h : IsEnvelope (mask v)) : IsEnvelope v := by
  have hother : ∀ key ∈ ["schema", "tool", "verdict", "issues", "data"], ¬ IsTime [.key key] := by
    simp [isTime_singleton, timeKeys]
  have htoolKeys : ∀ key ∈ ["name", "version"], ¬ IsTime [.key key] := by
    simp [isTime_singleton, timeKeys]
  constructor
  · intro key hkey
    obtain ⟨f, -, hf⟩ := child?_maskVersion v (.key key)
    have hsome := h.members key hkey
    rwa [mask, child?_maskTimes_other (hother key hkey), hf, Option.isSome_map,
      Option.isSome_map] at hsome
  · obtain ⟨tool, htool, hkeys⟩ := h.tool
    obtain ⟨f, hf, hversion⟩ := child?_maskVersion v (.key "tool")
    rw [mask, child?_maskTimes_other (hother "tool" (by simp)), hversion, Option.map_map] at htool
    obtain ⟨t, ht, rfl⟩ := Option.map_eq_some_iff.mp htool
    refine ⟨t, ht, fun key hkey => ?_⟩
    have hsome := hkeys key hkey
    rw [Function.comp_apply, child?_maskTimes_other (htoolKeys key hkey),
      Option.isSome_map] at hsome
    rcases hf with rfl | rfl
    · exact hsome
    · rwa [isSome_child?_maskTool] at hsome

/-- Of two values one of which is a report the masked ones are the same exactly if the values
differ at most in volatile places. -/
theorem sorted_mask_eq_iff (hv : IsEnvelope v) :
    (mask v).sorted = (mask w).sorted ↔ DifferAtMost IsVolatile v w := by
  have hboth : IsEnvelope w →
      ((mask v).sorted = (mask w).sorted ↔ DifferAtMost IsVolatile v w) :=
    fun hw => (masks_mask hv).sorted_eq_iff (masks_mask hw)
  constructor
  · intro h
    have hmasked : IsEnvelope (mask v) :=
      isEnvelope_of_differAtMost (masks_mask hv).differAtMost hv
    have hw := isEnvelope_of_mask
      (isEnvelope_of_differAtMost (Json.differAtMost_of_sorted_eq h) hmasked)
    exact (hboth hw).mp h
  · intro h
    have henvelope : IsEnvelope w := isEnvelope_of_differAtMost h hv
    exact (hboth henvelope).mpr h

/-! ## Masks on sorted values -/

/-- Masking keeps members in order. -/
theorem sorted_maskTimes (h : v.sorted = v) : (maskTimes v).sorted = maskTimes v := by
  induction v using Json.induction with
  | null | bool | num | str => rfl
  | arr items ih =>
    have hitems := Json.sorted_arr_eq_self.mp h
    rw [maskTimes, maskItems_eq_map, Json.sorted_arr_eq_self, List.forall_mem_map]
    exact fun v hv => ih v hv (hitems v hv)
  | obj members ih =>
    rw [maskTimes, maskMembers_eq]
    refine Json.sorted_mapValues h fun m hm => ?_
    rw [maskValue]
    split
    · rfl
    · have hsorted : m.2.sorted = m.2 := (Json.sorted_obj_eq_self.mp h).2 m hm
      exact ih m hm hsorted

theorem sorted_maskTool (h : v.sorted = v) : (maskTool v).sorted = maskTool v := by
  cases v with
  | null | bool | num | str | arr => exact h
  | obj members =>
    rw [maskTool_obj]
    split
    · refine Json.sorted_mapValues h fun m hm => ?_
      rw [maskVersionValue]
      split
      · rfl
      · exact (Json.sorted_obj_eq_self.mp h).2 m hm
    · exact h

theorem sorted_maskVersion (h : v.sorted = v) : (maskVersion v).sorted = maskVersion v := by
  cases v with
  | null | bool | num | str | arr => exact h
  | obj members =>
    rw [maskVersion_obj]
    split
    · refine Json.sorted_mapValues h fun m hm => ?_
      have hm := (Json.sorted_obj_eq_self.mp h).2 m hm
      rw [maskToolValue]
      split
      · exact sorted_maskTool hm
      · exact hm
    · exact h

/-- What is sorted stays sorted when it is masked. -/
theorem sorted_mask (h : v.sorted = v) : (mask v).sorted = mask v :=
  sorted_maskTimes (sorted_maskVersion h)

/-- Sorted reports are compared by their masked forms. -/
theorem mask_sorted_eq_iff (hv : IsEnvelope v) :
    mask v.sorted = mask w.sorted ↔ DifferAtMost IsVolatile v w := by
  have hsorted : IsEnvelope v.sorted :=
    isEnvelope_of_differAtMost (Json.differAtMost_of_sorted_eq (Json.sorted_sorted v).symm) hv
  rw [← sorted_mask (Json.sorted_sorted v), ← sorted_mask (Json.sorted_sorted w),
    sorted_mask_eq_iff hsorted, Json.differAtMost_sorted_left, Json.differAtMost_sorted_right]

/-! ## Masks on legible values -/

theorem legible_mapValues {f : String → Json → Json} {levels : Nat}
    (h : ∀ m ∈ members, Legible levels (f m.1 m.2)) :
    Legible (levels + 1) (.obj (mapValues f members)) :=
  .obj (List.forall_mem_map.mpr h)

theorem legible_maskTimes {levels : Nat} (h : Legible levels v) : Legible levels (maskTimes v) := by
  induction h with
  | null => exact .null
  | bool b => exact .bool b
  | num h => exact .num h
  | str s => exact .str s
  | arr _ ih =>
    rw [maskTimes, maskItems_eq_map]
    exact .arr (List.forall_mem_map.mpr ih)
  | obj _ ih =>
    rw [maskTimes, maskMembers_eq]
    refine legible_mapValues fun m hm => ?_
    rw [maskValue]
    split
    · exact .str _
    · exact ih m hm

theorem legible_maskTool {levels : Nat} (h : Legible levels v) : Legible levels (maskTool v) := by
  cases v with
  | null | bool | num | str | arr => exact h
  | obj members =>
    cases h with
    | obj h =>
      rw [maskTool_obj]
      split
      · refine legible_mapValues fun m hm => ?_
        rw [maskVersionValue]
        split
        · exact .str _
        · exact h m hm
      · exact .obj h

theorem legible_maskVersion {levels : Nat} (h : Legible levels v) :
    Legible levels (maskVersion v) := by
  cases v with
  | null | bool | num | str | arr => exact h
  | obj members =>
    cases h with
    | obj h =>
      rw [maskVersion_obj]
      split
      · refine legible_mapValues fun m hm => ?_
        rw [maskToolValue]
        split
        · exact legible_maskTool (h m hm)
        · exact h m hm
      · exact .obj h

/-- What is legible stays legible when it is masked. -/
theorem legible_mask {levels : Nat} (h : Legible levels v) : Legible levels (mask v) :=
  legible_maskTimes (legible_maskVersion h)

end FlowLint.Report

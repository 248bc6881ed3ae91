import FlowLint.Catalog.Factory
import FlowLint.Proofs.Query.Conditions

/-!
# Lists and their complements

An allow list and a disallow list over the same words divide the uses of a facet's values between
them: each use is objected to by one of the two lists, once. What a use is, is said here element by
element and resource by resource, without queries. An element or resource that is no use of a
value of the facet's domain is objected to by neither list, whatever words they hold.
-/

namespace FlowLint.Catalog

open FlowLint.Flow (Adapter Artifact Category Direction MappingType Resource ScriptingLanguage)
open FlowLint.Markup (Element)
open FlowLint.Query (Channel ChannelFilter Condition ProcessStep StepFilter)

variable {facet : Facet} {allow : Bool} {e : Element} {o : Occurrence} {v w : Listed}

/-! ## Uses -/

/-- The adapter that an element uses as a channel of a direction, if it is in the domain. -/
def channelUse (d : Direction) (domain : List Adapter) (e : Element) : Option Occurrence :=
  let channel : Channel := ⟨e⟩
  if e.name = "messageFlow" ∧ channel.direction? = some d then
    (channel.adapter?.filter domain.contains).map fun a => ⟨.adapter a, "channel", channel.name⟩
  else none

/-- The mapping type that an element uses as a step of a process. -/
def mappingUse (e : Element) : Option Occurrence :=
  let step : ProcessStep := ⟨e⟩
  if e.name = "callActivity" ∨ e.name = "serviceTask" then
    step.mappingType?.map fun m => ⟨.mapping m, "mapping step", step.name⟩
  else none

/-- The language of the scripts of a category. -/
def languageOf? : Category → Option ScriptingLanguage
  | .groovyScript => some .groovy
  | .javascript => some .javascript
  | _ => none

/-- The language that a resource uses as a script. -/
def scriptUse (r : Resource) : Option Occurrence :=
  (languageOf? r.category).map fun l => ⟨.language l, "script", r.name⟩

/-- The uses of a facet's values: those of the elements of the document in their order, or those of
the resources in theirs. -/
def uses (a : Artifact) : Facet → List Occurrence
  | .receiverAdapter => a.document.descendants.filterMap (channelUse .receiver Adapter.receivers)
  | .senderAdapter => a.document.descendants.filterMap (channelUse .sender Adapter.senders)
  | .mappingType => a.document.descendants.filterMap mappingUse
  | .scriptingLanguage => a.allResources.filterMap scriptUse

/-- A search for a word finds the one value that has it. -/
theorem find?_word {α : Type} {word : α → String} {values : List α} {x : α} {s : String}
    (h : ∀ x ∈ values, ∀ y ∈ values, word x = word y → x = y) :
    values.find? (fun y => word y = s) = some x ↔ x ∈ values ∧ word x = s := by
  constructor
  · intro hx
    exact ⟨List.mem_of_find?_eq_some hx, by simpa using List.find?_some hx⟩
  · rintro ⟨hx, hword⟩
    have hsome : (values.find? fun y => word y = s).isSome :=
      List.find?_isSome.mpr ⟨x, hx, by simpa using hword⟩
    obtain ⟨y, hy⟩ := Option.isSome_iff_exists.mp hsome
    have hsame : word y = s := by simpa using List.find?_some hy
    rw [hy, h x hx y (List.mem_of_find?_eq_some hy) (hword.trans hsame.symm)]

theorem adapterOccurrences_eq (a : Artifact) (d : Direction) (domain : List Adapter) :
    adapterOccurrences a { direction := some d } domain =
      a.document.descendants.filterMap (channelUse d domain) := by
  rw [adapterOccurrences, Query.channels_eq, List.filterMap_map, List.filterMap_filter]
  refine List.filterMap_congr fun e _ => ?_
  have haccepts : ({ direction := some d } : ChannelFilter).accepts e = true ↔
      e.name = "messageFlow" ∧ (⟨e⟩ : Channel).direction? = some d := by
    have hdirection := Query.direction_holds_iff (c := ⟨e⟩) (d := d)
    simp [ChannelFilter.accepts, ChannelFilter.conditions, hdirection]
  simp only [haccepts, channelUse, Function.comp_apply]

theorem mappingOccurrences_eq (a : Artifact) :
    mappingOccurrences a = a.document.descendants.filterMap mappingUse := by
  rw [mappingOccurrences, Query.processSteps_eq, List.filterMap_map, List.filterMap_filter]
  refine List.filterMap_congr fun e _ => ?_
  have haccepts : StepFilter.mappings.accepts e = true ↔
      (e.name = "callActivity" ∨ e.name = "serviceTask") ∧
        (⟨e⟩ : ProcessStep).activityType? = some Query.mappingActivity :=
    Query.accepts_mappings_iff (s := ⟨e⟩)
  simp only [haccepts, mappingUse, Function.comp_apply]
  by_cases hname : e.name = "callActivity" ∨ e.name = "serviceTask"
  · rw [if_pos hname]
    by_cases hactivity : (⟨e⟩ : ProcessStep).activityType? = some Query.mappingActivity
    · rw [if_pos ⟨hname, hactivity⟩]
    · have hnone : (⟨e⟩ : ProcessStep).mappingType? = none := if_neg hactivity
      rw [if_neg fun h => hactivity h.2, hnone]
      rfl
  · rw [if_neg hname, if_neg fun h => hname h.1]

/-- Scripts, listed category by category, are the resources that are uses. -/
theorem scriptOccurrences_eq (a : Artifact) :
    scriptOccurrences a .groovyScript .groovy ++ scriptOccurrences a .javascript .javascript =
      a.allResources.filterMap scriptUse := by
  have hcategory : ∀ c : Category, (a.resourcesOf c).filterMap scriptUse =
      match languageOf? c with
      | some l => scriptOccurrences a c l
      | none => [] := by
    intro c
    have hsame : ∀ r ∈ a.resourcesOf c, scriptUse r =
        (languageOf? c).map fun l => ⟨.language l, "script", r.name⟩ := by
      intro r hr
      have hr : r.category = c := by simpa using (List.mem_filter.mp hr).2
      rw [scriptUse, hr]
    rw [List.filterMap_congr hsame]
    cases languageOf? c with
    | none => simp
    | some l => simp [scriptOccurrences]
  rw [Artifact.allResources, List.filterMap_flatMap]
  simp [hcategory, Category.all, languageOf?]

/-- What the rules look up is what is called a use here, facet by facet. -/
theorem occurrences_eq (a : Artifact) (facet : Facet) : occurrences a facet = uses a facet := by
  cases facet with
  | receiverAdapter => exact adapterOccurrences_eq a .receiver Adapter.receivers
  | senderAdapter => exact adapterOccurrences_eq a .sender Adapter.senders
  | mappingType => exact mappingOccurrences_eq a
  | scriptingLanguage => exact scriptOccurrences_eq a

/-! ## Words and values -/

theorem token_injective {facet : Facet} : ∀ v ∈ facet.domain, ∀ w ∈ facet.domain,
    v.token = w.token → v = w := by
  cases facet <;> decide

/-- A word is read as the value of the domain that it is the token of. -/
theorem read?_iff {word : String} : facet.read? word = some v ↔ v ∈ facet.domain ∧ v.token = word :=
  find?_word token_injective

theorem adapter_mem_domain {domain : List Adapter} {d : Direction}
    (h : channelUse d domain e = some o) : o.value ∈ domain.map Listed.adapter := by
  rw [channelUse] at h
  split at h
  · obtain ⟨a, ha, rfl⟩ := Option.map_eq_some_iff.mp h
    have hdomain : domain.contains a = true := (Option.filter_eq_some_iff.mp ha).2
    exact List.mem_map_of_mem (List.contains_iff_mem.mp hdomain)
  · cases h

/-- A use is one of a value of the domain. -/
theorem value_mem_domain {a : Artifact} (h : o ∈ uses a facet) : o.value ∈ facet.domain := by
  cases facet with
  | receiverAdapter =>
    obtain ⟨e, -, he⟩ := List.mem_filterMap.mp h
    exact adapter_mem_domain he
  | senderAdapter =>
    obtain ⟨e, -, he⟩ := List.mem_filterMap.mp h
    exact adapter_mem_domain he
  | mappingType =>
    obtain ⟨e, -, he⟩ := List.mem_filterMap.mp h
    rw [mappingUse] at he
    split at he
    · obtain ⟨m, -, rfl⟩ := Option.map_eq_some_iff.mp he
      have hall : m ∈ MappingType.all := by cases m <;> decide
      exact List.mem_map_of_mem hall
    · cases he
  | scriptingLanguage =>
    obtain ⟨r, -, hr⟩ := List.mem_filterMap.mp h
    obtain ⟨l, -, rfl⟩ := Option.map_eq_some_iff.mp hr
    have hall : l ∈ ScriptingLanguage.all := by cases l <;> decide
    exact List.mem_map_of_mem hall

/-! ## Reading lists -/

/-- The words that the element of a list holds. -/
def listedWords (e : Element) : List String :=
  e.children.map Element.text

/-- An element that can be read as a list. -/
structure Lists (facet : Facet) (allow : Bool) (e : Element) : Prop where
  entries : ∀ c ∈ e.children, c.uri = none ∧ c.name = ListRule.entry allow
  some : e.children ≠ []
  words : ∀ word ∈ listedWords e, ∃ v ∈ facet.domain, v.token = word

theorem readWords_ok_iff {α : Type} {meaning : String → Option α}
    {unknown : String → Misconfiguration} {words : List String} {values : List α} :
    readWords meaning unknown words = .ok values ↔ words.map meaning = values.map some := by
  induction words generalizing values with
  | nil => cases values <;> simp [readWords]
  | cons word rest ih =>
    rw [readWords]
    cases hword : meaning word with
    | none => cases values <;> simp [hword]
    | some value =>
      cases values with
      | nil => cases readWords meaning unknown rest <;> simp [Except.map]
      | cons v others =>
        rw [List.map_cons, List.map_cons, hword, List.cons.injEq, ← ih]
        cases readWords meaning unknown rest <;> simp [Except.map]

theorem onlyChildren_ok_iff {names : List String} :
    onlyChildren e names = .ok () ↔ ∀ c ∈ e.children, c.uri = none ∧ c.name ∈ names := by
  have hchild : ∀ c, isAllowedChild names c = true ↔ c.uri = none ∧ c.name ∈ names := by
    intro c
    rw [isAllowedChild, Bool.and_eq_true, Option.isNone_iff_eq_none, List.contains_iff_mem]
  unfold onlyChildren
  cases hfound : e.children.find? (!isAllowedChild names ·) with
  | some c =>
    have hrefused : isAllowedChild names c = false := by simpa using List.find?_some hfound
    have hmem := List.mem_of_find?_eq_some hfound
    simp only [reduceCtorEq, false_iff, not_forall]
    exact ⟨c, hmem, fun h => by rw [(hchild c).mpr h] at hrefused; cases hrefused⟩
  | none =>
    have hall := List.find?_eq_none.mp hfound
    simp only [true_iff]
    intro c hc
    have hc := hall c hc
    exact (hchild c).mp (by simpa using hc)

theorem childTexts_of_entries (h : ∀ c ∈ e.children, c.uri = none ∧ c.name = ListRule.entry allow) :
    childTexts e (ListRule.entry allow) =
      if (listedWords e).contains "" then .error (.emptyChild (ListRule.entry allow))
      else .ok (listedWords e) := by
  have hnamed : e.childrenNamed (ListRule.entry allow) = e.children :=
    List.filter_eq_self.mpr fun c hc => decide_eq_true (h c hc).2
  rw [childTexts, hnamed]
  rfl

theorem token_ne_empty {facet : Facet} : ∀ v ∈ facet.domain, v.token ≠ "" := by
  cases facet <;> decide

theorem words_of_values {values : List Listed}
    (h : (listedWords e).map facet.read? = values.map some) {word : String}
    (hword : word ∈ listedWords e) : ∃ v ∈ values, facet.read? word = some v := by
  have hmem := List.mem_map_of_mem (f := facet.read?) hword
  rw [h] at hmem
  obtain ⟨v, hv, hread⟩ := List.mem_map.mp hmem
  exact ⟨v, hv, hread.symm⟩

/-- With entries only, a list is refused for an empty entry or an unknown word, and read
otherwise. -/
theorem read_of_entries (h : ∀ c ∈ e.children, c.uri = none ∧ c.name = ListRule.entry allow) :
    ListRule.read facet allow e =
      if (listedWords e).contains "" then .error (.emptyChild (ListRule.entry allow))
      else
        match readWords facet.read? (.unknownValue · (facet.domain.map Listed.token))
          (listedWords e) with
        | .error m => .error m
        | .ok values =>
          if values.isEmpty then .error (.noneOf (ListRule.entry allow))
          else .ok ⟨facet, allow, values⟩ := by
  have honly : onlyChildren e [ListRule.entry allow] = .ok () :=
    onlyChildren_ok_iff.mpr (by simpa using h)
  rw [ListRule.read, honly, childTexts_of_entries h]
  split
  · rfl
  · simp only [bind, Except.bind]
    cases readWords facet.read? (.unknownValue · (facet.domain.map Listed.token))
      (listedWords e) with
    | error m => rfl
    | ok values => cases values <;> rfl

/-- What was read as a list lists values of the domain. -/
theorem lists_of_read {r : ListRule} (h : ListRule.read facet allow e = .ok r) :
    Lists facet allow e ∧ r.facet = facet ∧ r.allow = allow ∧
      (listedWords e).map facet.read? = r.values.map some := by
  cases honly : onlyChildren e [ListRule.entry allow] with
  | error m =>
    rw [ListRule.read, honly] at h
    cases h
  | ok u =>
    have hentries : ∀ c ∈ e.children, c.uri = none ∧ c.name = ListRule.entry allow := by
      simpa using onlyChildren_ok_iff.mp honly
    rw [read_of_entries hentries] at h
    split at h
    · cases h
    · split at h
      · cases h
      · next values hread =>
        split at h
        · cases h
        · next hsome =>
          obtain rfl := Except.ok.inj h
          have hvalues := readWords_ok_iff.mp hread
          refine ⟨⟨hentries, ?_, fun word hword => ?_⟩, rfl, rfl, hvalues⟩
          · intro hnone
            rw [listedWords, hnone] at hvalues
            exact hsome (by simpa using hvalues.symm)
          · obtain ⟨v, -, hv⟩ := words_of_values hvalues hword
            exact ⟨v, read?_iff.mp hv⟩

/-- What lists values of the domain is read as a list of these. -/
theorem read_of_lists {values : List Listed} (hlists : Lists facet allow e)
    (hvalues : (listedWords e).map facet.read? = values.map some) :
    ListRule.read facet allow e = .ok ⟨facet, allow, values⟩ := by
  have hempty : (listedWords e).contains "" = false := by
    rw [Bool.eq_false_iff]
    intro hmem
    obtain ⟨v, hv, htoken⟩ := hlists.words "" (List.contains_iff_mem.mp hmem)
    exact token_ne_empty v hv htoken
  have hsome : values.isEmpty = false := by
    cases values with
    | nil =>
      rw [listedWords] at hvalues
      exact absurd (by simpa using hvalues) hlists.some
    | cons => rfl
  rw [read_of_entries hlists.entries, hempty, readWords_ok_iff.mpr hvalues]
  simp [hsome]

theorem exists_values {words : List String}
    (h : ∀ word ∈ words, ∃ v ∈ facet.domain, v.token = word) :
    ∃ values : List Listed, words.map facet.read? = values.map some := by
  induction words with
  | nil => exact ⟨[], rfl⟩
  | cons word rest ih =>
    obtain ⟨values, hrest⟩ := ih fun w hw => h w (List.mem_cons_of_mem _ hw)
    obtain ⟨v, hv, hword⟩ := h word List.mem_cons_self
    have hread : facet.read? word = some v := read?_iff.mpr ⟨hv, hword⟩
    exact ⟨v :: values, by rw [List.map_cons, List.map_cons, hread, hrest]⟩

/-- An element that lists values of the domain is read as a list. -/
theorem exists_read (h : Lists facet allow e) : ∃ r, ListRule.read facet allow e = .ok r := by
  obtain ⟨values, hread⟩ := exists_values h.words
  have hreadLists : ListRule.read facet allow e = .ok ⟨facet, allow, values⟩ :=
    read_of_lists h hread
  exact ⟨⟨facet, allow, values⟩, hreadLists⟩

/-! ## Reports -/

/-- What is said of a use of a value by a list that objects to it. It names the value and what
carries it. -/
def objection (facet : Facet) (allow : Bool) (a : Artifact) (o : Occurrence) : Issue :=
  .single (.disallowedValue facet o.value.token (some o.name)) a.tag <|
    if allow then
      s!"{o.value.token} is not on the list of allowed {facet.describe}s ({o.carrier} '{o.name}')"
    else s!"{o.value.token} {facet.describe} is not allowed ({o.carrier} '{o.name}')"

theorem domain_subset_values {facet : Facet} : ∀ v ∈ facet.domain, v ∈ facet.values := by
  cases facet <;> decide

/-- A list has the values whose words are listed. -/
theorem mem_values_iff {r : ListRule} (h : ListRule.read facet allow e = .ok r)
    (hv : v ∈ facet.domain) : v ∈ r.values ↔ v.token ∈ listedWords e := by
  obtain ⟨-, -, -, hvalues⟩ := lists_of_read h
  constructor
  · intro hmem
    have hmem := List.mem_map_of_mem (f := some) hmem
    rw [← hvalues] at hmem
    obtain ⟨word, hword, hread⟩ := List.mem_map.mp hmem
    rwa [(read?_iff.mp hread).2]
  · intro hword
    obtain ⟨w, hw, hread⟩ := words_of_values hvalues hword
    have hsame : facet.read? v.token = some v := read?_iff.mpr ⟨hv, rfl⟩
    obtain rfl := Option.some.inj (hread.symm.trans hsame)
    exact hw

/-- An allow list objects to what is not on it, a disallow list to what is. -/
theorem objectionable_contains {r : ListRule} (h : ListRule.read facet allow e = .ok r)
    (hv : v ∈ facet.domain) :
    r.objectionable.contains v = ((listedWords e).contains v.token != allow) := by
  have hlisted : r.values.contains v = (listedWords e).contains v.token := by
    rw [Bool.eq_iff_iff, List.contains_iff_mem, List.contains_iff_mem]
    exact mem_values_iff h hv
  obtain ⟨-, rfl, rfl, -⟩ := lists_of_read h
  rw [← hlisted, ListRule.objectionable, Bool.eq_iff_iff]
  cases r.allow with
  | true => simp [hv]
  | false => simp [domain_subset_values v hv]

/-- A list objects to the uses of values whose words it lists, or of the others if it says what is
allowed. -/
theorem inspect_list {r : ListRule} (h : ListRule.read facet allow e = .ok r) (a : Artifact) :
    r.inspect a =
      { issues := ((uses a facet).filter fun o =>
          (listedWords e).contains o.value.token != allow).map (objection facet allow a) } := by
  have hobjection : r.issue a = objection facet allow a := by
    obtain ⟨-, rfl, rfl, -⟩ := lists_of_read h
    funext o
    rfl
  have hfacet : r.facet = facet := (lists_of_read h).2.1
  rw [ListRule.inspect, hobjection, hfacet, occurrences_eq]
  have hfilter : ((uses a facet).filter fun o => r.objectionable.contains o.value) =
      (uses a facet).filter fun o => (listedWords e).contains o.value.token != allow :=
    List.filter_congr fun o ho => objectionable_contains h (value_mem_domain ho)
  rw [hfilter]

/-- The registry reads the elements of lists as such. -/
theorem create_list (huri : e.uri = none) (hname : e.name = (RuleKind.list facet allow).element) :
    registry.create e = ((RuleKind.list facet allow).read e).map BuiltIn.toRule := by
  have hfamily : families.filter (fun kinds =>
      (kinds.map RuleKind.element).contains (RuleKind.list facet allow).element) =
        [[.list facet true, .list facet false]] := by
    cases facet <;> cases allow <;> decide
  have hkind : [RuleKind.list facet true, .list facet false].find?
      (fun kind => kind.element = (RuleKind.list facet allow).element) =
        some (.list facet allow) := by
    cases facet <;> cases allow <;> decide
  have hclaims : registry.claimants e = [factoryOf [.list facet true, .list facet false]] := by
    rw [← List.map_singleton, ← hfamily, registry, Registry.claimants, List.filter_map]
    simp [RuleName.ofElement, factoryOf, huri, hname, Function.comp_def]
  rw [Registry.create, hclaims]
  simp only [factoryOf, hname, hkind]

/-- A rule made from the element of a list inspects artifacts as the list does. -/
theorem create_list_ok {rule : Rule} (huri : e.uri = none)
    (hname : e.name = (RuleKind.list facet allow).element) :
    registry.create e = .ok rule ↔
      ∃ r, ListRule.read facet allow e = .ok r ∧ (BuiltIn.list r).toRule = rule := by
  rw [create_list huri hname, RuleKind.read, ofReading]
  cases ListRule.read facet allow e <;> simp [Except.map, Except.mapError]

/-- The registry makes rules of the elements that list values of the domain. -/
theorem exists_rule_iff (huri : e.uri = none)
    (hname : e.name = (RuleKind.list facet allow).element) :
    (∃ rule, registry.create e = .ok rule) ↔ Lists facet allow e := by
  constructor
  · rintro ⟨rule, hrule⟩
    obtain ⟨r, hread, -⟩ := (create_list_ok huri hname).mp hrule
    exact (lists_of_read hread).1
  · intro hlists
    obtain ⟨r, hread⟩ := exists_read hlists
    have hcreate : registry.create e = .ok (BuiltIn.list r).toRule :=
      (create_list_ok huri hname).mpr ⟨r, hread, rfl⟩
    exact ⟨_, hcreate⟩

/-- The two lists of a facet over the same words. The registry makes rules of them if they list
words of the facet's domain, at least one, and nothing else. The rules then report complementary
parts of the uses of the domain, each in the order of the uses: the disallow list reports those of
listed values and the allow list the others. -/
theorem lists_complementary (facet : Facet) (allowed disallowed : Element)
    (hallowed : allowed.uri = none ∧ allowed.name = (RuleKind.list facet true).element)
    (hdisallowed : disallowed.uri = none ∧ disallowed.name = (RuleKind.list facet false).element)
    (hwords : ∀ word, word ∈ listedWords allowed ↔ word ∈ listedWords disallowed) :
    ((∃ rule, registry.create allowed = .ok rule) ↔ Lists facet true allowed) ∧
    ((∃ rule, registry.create disallowed = .ok rule) ↔ Lists facet false disallowed) ∧
    ∀ allow disallow, registry.create allowed = .ok allow →
      registry.create disallowed = .ok disallow → ∀ entered a,
        allow.logic.inspect entered a =
          { issues := ((uses a facet).filter fun o => o.value.token ∉ listedWords allowed).map
              (objection facet true a) } ∧
        disallow.logic.inspect entered a =
          { issues := ((uses a facet).filter fun o => o.value.token ∈ listedWords allowed).map
              (objection facet false a) } ∧
        ∀ o ∈ uses a facet, o.value ∈ facet.domain := by
  refine ⟨exists_rule_iff hallowed.1 hallowed.2, exists_rule_iff hdisallowed.1 hdisallowed.2, ?_⟩
  intro allow disallow hallow hdisallow entered a
  obtain ⟨r, hread, rfl⟩ := (create_list_ok hallowed.1 hallowed.2).mp hallow
  obtain ⟨r', hread', rfl⟩ := (create_list_ok hdisallowed.1 hdisallowed.2).mp hdisallow
  refine ⟨(inspect_list hread a).trans ?_, (inspect_list hread' a).trans ?_,
    fun o => value_mem_domain⟩
  · have hothers : ((uses a facet).filter fun o =>
        (listedWords allowed).contains o.value.token != true) =
          (uses a facet).filter fun o => o.value.token ∉ listedWords allowed := by
      refine List.filter_congr fun o _ => ?_
      rw [Bool.eq_iff_iff]
      simp
    rw [hothers]
  · have hlisted : ((uses a facet).filter fun o =>
        (listedWords disallowed).contains o.value.token != false) =
          (uses a facet).filter fun o => o.value.token ∈ listedWords allowed := by
      refine List.filter_congr fun o _ => ?_
      rw [Bool.eq_iff_iff]
      simp [hwords]
    rw [hlisted]

/-- The element of a list that holds some words. -/
def listElement (facet : Facet) (allow : Bool) (words : List String) : Element :=
  { Element.named (RuleKind.list facet allow).element with
    children := words.map (Element.named (ListRule.entry allow)).withText }

/-- A flow with scripts in two languages and a resource that is no script. -/
def mixedScripts : Artifact :=
  { tag := { id := "F", name := "F" }
    document := Element.named "definitions"
    resources := [⟨"a.js", .javascript, []⟩, ⟨"b.groovy", .groovyScript, []⟩, ⟨"c.xsd", .xsd, []⟩] }

theorem lists_mixedScripts :
    let allowed := listElement .scriptingLanguage true ["groovy"]
    let disallowed := listElement .scriptingLanguage false ["groovy"]
    ∃ allow disallow, registry.create allowed = .ok allow ∧
      registry.create disallowed = .ok disallow ∧
      (allow.logic.inspect [] mixedScripts).issues.map (·.message) =
        ["javascript is not on the list of allowed scripting languages (script 'a.js')"] ∧
      (disallow.logic.inspect [] mixedScripts).issues.map (·.message) =
        ["groovy scripting language is not allowed (script 'b.groovy')"] := by
  intro allowed disallowed
  obtain ⟨hallowed, hdisallowed, hreports⟩ := lists_complementary .scriptingLanguage allowed
    disallowed ⟨rfl, rfl⟩ ⟨rfl, rfl⟩ fun _ => Iff.rfl
  obtain ⟨allow, hallow⟩ := hallowed.mpr ⟨by decide, by decide, by decide⟩
  obtain ⟨disallow, hdisallow⟩ := hdisallowed.mpr ⟨by decide, by decide, by decide⟩
  obtain ⟨h, h', -⟩ := hreports allow disallow hallow hdisallow [] mixedScripts
  refine ⟨allow, disallow, hallow, hdisallow, ?_, ?_⟩
  · rw [h]
    decide
  · rw [h']
    decide

end FlowLint.Catalog

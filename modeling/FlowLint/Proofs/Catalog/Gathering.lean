import FlowLint.Proofs.Catalog.SharedContents
import FlowLint.Proofs.Rule.Memory

/-!
# What the rules that wait for the end gather

Two of the built-in rules judge a run as a whole, and are said to judge its artifacts. They can do
with less. Against duplicates it is enough to keep the groups of the resources seen so far, and to
put each resource that is shown into its group; of direct calls, to keep those that wait for a server
and the addresses that are served. With such a memory both rules do in every run, and whatever else
they are asked, what is said of them.
-/

namespace FlowLint.Catalog

open FlowLint.Flow (Artifact Category)

/-! ## Groups, entry by entry -/

/-- Groups with one more entry. Its member joins the group of its key, which is made if need be. -/
def recordEntry (e : Entry) : List Group → List Group
  | [] => [⟨e.key, [e.member]⟩]
  | g :: rest =>
    if e.key < g.key then ⟨e.key, [e.member]⟩ :: g :: rest
    else if e.key = g.key then { g with members := Order.insert e.member g.members } :: rest
    else g :: recordEntry e rest

/-- One more entry adds its member under its key and changes nothing elsewhere. -/
theorem membersAt_cons (e : Entry) (entries : List Entry) (key : ContentKey) :
    membersAt (e :: entries) key =
      if key = e.key then Order.insert e.member (membersAt entries key)
      else membersAt entries key := by
  by_cases hkey : key = e.key
  · rw [if_pos hkey, membersAt, List.filter_cons_of_pos (by simp [hkey])]
    rfl
  · rw [if_neg hkey, membersAt, List.filter_cons_of_neg (by simpa using Ne.symm hkey)]
    rfl

/-- Recording keeps the groups in the order of their keys. -/
theorem recordEntry_map {members : ContentKey → List Member} {keys : List ContentKey} {e : Entry}
    (hsorted : keys.Pairwise (· < ·)) (hnew : e.key ∉ keys → members e.key = []) :
    recordEntry e (keys.map fun key => ⟨key, members key⟩) =
      (Order.insert e.key keys).map fun key =>
        ⟨key, if key = e.key then Order.insert e.member (members key) else members key⟩ := by
  induction keys with
  | nil => simp [recordEntry, Order.insert, hnew]
  | cons first rest ih =>
    obtain ⟨hfirst, hrest⟩ := List.pairwise_cons.mp hsorted
    -- Beyond the place of the entry's key no group has it.
    have hothers : ∀ more : List ContentKey, e.key ∉ more → (more.map fun key =>
        (⟨key, if key = e.key then Order.insert e.member (members key) else members key⟩ : Group)) =
          more.map fun key => ⟨key, members key⟩ := by
      intro more hmore
      refine List.map_congr_left fun key hkey => ?_
      have hne : key ≠ e.key := fun heq => hmore (heq ▸ hkey)
      rw [if_neg hne]
    rw [List.map_cons, recordEntry, Order.insert]
    by_cases hlt : e.key < first
    · have habsent : e.key ∉ first :: rest := by
        intro hmem
        rcases List.mem_cons.mp hmem with heq | hmem
        · exact ne_of_irrefl hlt heq
        · have htrans : e.key < e.key := trans_of (· < ·) hlt (hfirst _ hmem)
          exact irrefl e.key htrans
      rw [if_pos hlt, if_pos hlt, List.map_cons, if_pos rfl, hnew habsent, hothers _ habsent]
      rfl
    · rw [if_neg hlt, if_neg hlt]
      by_cases heq : e.key = first
      · have habsent : e.key ∉ rest := fun hmem => irrefl first (heq ▸ hfirst _ hmem)
        rw [if_pos heq, if_pos heq, List.map_cons, if_pos heq.symm, hothers _ habsent]
      · have hnew' : e.key ∉ rest → members e.key = [] := by
          intro habsent
          have hnotMem : e.key ∉ first :: rest := List.not_mem_cons_of_ne_of_not_mem heq habsent
          exact hnew hnotMem
        rw [if_neg heq, if_neg heq, List.map_cons, if_neg (Ne.symm heq), ih hrest hnew']

/-- One more entry is one step, whatever groups there were. -/
theorem groupsOf_cons (e : Entry) (entries : List Entry) :
    groupsOf (e :: entries) = recordEntry e (groupsOf entries) := by
  have hnew : e.key ∉ Order.ofList (entries.map (·.key)) → membersAt entries e.key = [] := by
    intro habsent
    rw [List.eq_nil_iff_forall_not_mem]
    intro m hm
    have hentry := mem_membersAt.mp hm
    have hkey : e.key ∈ entries.map (·.key) := List.mem_map.mpr ⟨_, hentry, rfl⟩
    have hmem : e.key ∈ Order.ofList (entries.map (·.key)) := (Order.mem_ofList _ _).mpr hkey
    exact habsent hmem
  have hstep := recordEntry_map (Order.sorted_ofList (entries.map (·.key))) hnew
  simp only [← membersAt_cons] at hstep
  exact hstep.symm

/-- Groups can be kept while artifacts are shown: those of a run come of taking its entries one
after another. -/
theorem groupsOf_eq_foldl (entries : List Entry) :
    groupsOf entries = entries.foldl (fun groups e => recordEntry e groups) [] := by
  have hreverse : groupsOf entries = groupsOf entries.reverse :=
    groupsOf_congr fun e => List.mem_reverse.symm
  rw [hreverse, ← List.foldr_reverse]
  induction entries.reverse with
  | nil => rfl
  | cons e rest ih => rw [groupsOf_cons, ih, List.foldr_cons]

variable {categories : List Category}

theorem entries_foldl (entries : Artifact → List Entry) (artifacts : List Artifact)
    (groups : List Group) :
    artifacts.foldl (fun groups a => (entries a).foldl (fun groups e => recordEntry e groups) groups)
        groups =
      (artifacts.flatMap entries).foldl (fun groups e => recordEntry e groups) groups :=
  List.foldl_flatMap.symm

/-- The groups of what has been shown so far; the rule lets go of them when it reports. -/
def groupMemory (categories : List Category) : Memory (List Group) where
  initial := []
  gather groups a := (entriesOf categories a).foldl (fun groups e => recordEntry e groups) groups
  judge groups := reportGroups (groups.filter fun g => 2 ≤ g.members.length)
  left _ := []

/-- The rule against duplicates never fails, there being an issue about any group of several. -/
theorem finishDuplicates_passes (categories : List Category) (artifacts : List Artifact) :
    (finishDuplicates categories artifacts).failure = none := by
  have hissue : ∀ g ∈ duplicates categories artifacts, ∃ i, g.issue? = some i ∧ True := by
    intro g hg
    obtain ⟨i, hi⟩ := exists_issue? (members_ne_nil hg)
    exact ⟨i, hi, trivial⟩
  have hreported : (reportGroups (duplicates categories artifacts)).failure = none ∧
      List.Forall₂ (fun _ _ => True) (duplicates categories artifacts)
        (reportGroups (duplicates categories artifacts)).issues :=
    reportGroups_forall₂ hissue
  exact hreported.1

/-- The groups of what was inspected are all that the rule has to remember. -/
theorem groupMemory_suffices (categories : List Category) :
    (groupMemory categories).Suffices (finishDuplicates categories) where
  judges artifacts := by
    have hgroups : artifacts.foldl (groupMemory categories).gather [] =
        groupsOf (artifacts.flatMap (entriesOf categories)) := by
      rw [groupsOf_eq_foldl]
      exact entries_foldl (entriesOf categories) artifacts []
    rw [finishDuplicates, duplicates, ← hgroups]
    rfl
  passes := finishDuplicates_passes categories

/-! ## Calls and addresses -/

/-- The calls that wait for a server, and the addresses that are served, in order. -/
structure Switchboard where
  waiting : List DirectCall
  served : List String

/-- The calls and addresses of an artifact added to those seen so far. -/
def Switchboard.connect (b : Switchboard) (a : Artifact) : Switchboard where
  waiting := b.waiting ++ directCalls a
  served := (servedAddresses a).foldl (fun served address => Order.insert address served) b.served

/-- The calls and addresses of what has been shown so far. The rule lets go of the calls when it
reports, and keeps the addresses. -/
def switchboard : Memory Switchboard where
  initial := ⟨[], []⟩
  gather := Switchboard.connect
  judge b := { issues := (b.waiting.filter (!b.served.contains ·.address)).map DirectCall.issue }
  left b := { b with waiting := [] }

theorem mem_foldl_insert (addresses served : List String) (address : String) :
    address ∈ addresses.foldl (fun served new => Order.insert new served) served ↔
      address ∈ served ∨ address ∈ addresses := by
  induction addresses generalizing served with
  | nil => simp
  | cons first rest ih =>
    rw [List.foldl_cons, ih, Order.mem_insert, List.mem_cons]
    tauto

/-- What the rule has gathered: all calls in order, and the addresses that are served. -/
theorem connect_foldl (artifacts : List Artifact) (b : Switchboard) :
    (artifacts.foldl Switchboard.connect b).waiting = b.waiting ++ artifacts.flatMap directCalls ∧
      ∀ address, address ∈ (artifacts.foldl Switchboard.connect b).served ↔
        address ∈ b.served ∨ address ∈ artifacts.flatMap servedAddresses := by
  induction artifacts generalizing b with
  | nil => simp
  | cons a rest ih =>
    obtain ⟨hwaiting, hserved⟩ := ih (b.connect a)
    constructor
    · rw [List.foldl_cons, hwaiting, List.flatMap_cons, ← List.append_assoc]
      rfl
    · intro address
      have hfirst : address ∈ (b.connect a).served ↔
          address ∈ b.served ∨ address ∈ servedAddresses a := mem_foldl_insert _ _ _
      rw [List.foldl_cons, hserved, hfirst, List.flatMap_cons, List.mem_append, or_assoc]

/-- The waiting calls and the served addresses are all that the rule has to remember. -/
theorem switchboard_suffices : switchboard.Suffices finishDirectCalls where
  judges artifacts := by
    obtain ⟨hwaiting, hserved⟩ := connect_foldl artifacts ⟨[], []⟩
    have hcontains : ∀ address : String,
        (artifacts.foldl Switchboard.connect ⟨[], []⟩).served.contains address =
          (artifacts.flatMap servedAddresses).contains address := by
      intro address
      rw [Bool.eq_iff_iff, List.contains_iff_mem, List.contains_iff_mem, hserved]
      simp
    simp only [switchboard, finishDirectCalls, hwaiting, hcontains, List.nil_append]
  passes _ := rfl

/-! ## The rules -/

/-- A built-in rule with a memory instead of all the artifacts it is shown, as far as it waits for
the end. -/
def BuiltIn.gathering (b : BuiltIn) : Rule :=
  match b with
  | .duplicates categories => { b.toRule with logic := (groupMemory categories).logic }
  | .directCalls => { b.toRule with logic := switchboard.logic }
  | _ => b.toRule

/-- Nothing that a built-in rule is asked, in a run or out of order, shows whether it remembers the
artifacts or what it has gathered of them. -/
theorem gathering_indistinct (b : BuiltIn) (id : Option String) :
    let keeps : Rule := { b.toRule with id }
    let gathers : Rule := { b.gathering with id }
    (∀ requests, List.Forall₂ Exchange.Alike (history keeps requests) (history gathers requests)) ∧
      ∀ {σ : Type} [Sink σ] (before later : List Rule)
        (supply : List (Except Markup.Error Artifact)) (sink : σ),
        Outcome.Alike Rule.SameBut (run (before ++ keeps :: later) supply sink)
          (run (before ++ gathers :: later) supply sink) := by
  intro keeps gathers
  cases b with
  | duplicates categories =>
    have hsuffices : (groupMemory categories).Suffices (finishDuplicates categories) :=
      groupMemory_suffices categories
    exact hsuffices.indistinct _ id
  | directCalls => exact switchboard_suffices.indistinct _ id
  | list | description | naming | endpoints | passwords | protection =>
    refine ⟨fun requests => history_alike_refl _, ?_⟩
    intro σ _ before later supply sink
    exact Outcome.alike_refl Rule.sameBut_refl _

end FlowLint.Catalog

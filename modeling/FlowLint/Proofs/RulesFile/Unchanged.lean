import FlowLint.Proofs.Files.Writing
import FlowLint.Proofs.RulesFile.MergeOrder
import FlowLint.RulesFile.Disk

/-!
# What a load depends on

A load reads the entry and the files that it leads to, and follows their references. From a source
in which these files have the same texts and their references lead to the same files, the same is
loaded, whatever else there is. In a file tree that is so after a file has been written that the
entry does not lead to. Of a load that fails nothing is said.
-/

namespace FlowLint.RulesFile

open FlowLint.Files (Tree Wrote)

variable {s s' : Source} {g : Registry} {p q start : Path} {l : List Path} {root : Markup.Element}
  {t t' : Tree}

/-- Another source has what a file of this one leads to: the texts, and the files that are referred
to in them. -/
structure Kept (s s' : Source) (start : Path) : Prop where
  text : ∀ {p}, Reaches s start p → ∀ {text}, s.text p = .ok text → s'.text p = .ok text
  reference : ∀ {p root}, Reaches s start p → document s p = .ok root →
    ∀ r ∈ imports p root, ∀ {q}, s.locate r = .ok q → s'.locate r = .ok q

namespace Kept

theorem document (h : Kept s s' start) (hp : Reaches s start p) (hroot : document s p = .ok root) :
    RulesFile.document s' p = .ok root := by
  obtain ⟨text, htext, hparse⟩ := document_eq_ok.mp hroot
  exact document_eq_ok.mpr ⟨text, h.text hp htext, hparse⟩

theorem loadable (h : Kept s s' start) (hp : Reaches s start p) (hload : Loadable s g p) :
    Loadable s' g p := by
  obtain ⟨root, file, hroot, hlocated, hown⟩ := hload
  have hdocument : RulesFile.document s' p = .ok root := h.document hp hroot
  refine ⟨root, file, hdocument, fun r hr => ?_, hown⟩
  obtain ⟨q, hq⟩ := hlocated r hr
  exact ⟨q, h.reference hp hroot r hr hq⟩

theorem targets (h : Kept s s' start) (hp : Reaches s start p) (hload : Loadable s g p) :
    targets s' p = targets s p := by
  obtain ⟨root, file, hroot, hlocated, -⟩ := hload
  have hdocument : RulesFile.document s' p = .ok root := h.document hp hroot
  rw [targets_eq hroot, targets_eq hdocument]
  refine List.filterMap_congr fun r hr => ?_
  obtain ⟨q, hq⟩ := hlocated r hr
  rw [hq, h.reference hp hroot r hr hq]

/-- Files that are kept unfold as they did. -/
theorem unfolding (h : Kept s s' start) (hp : Reaches s start p) (hu : Unfolding s p l)
    (hload : ∀ q ∈ l, Loadable s g q) : Unfolding s' p l := by
  induction hu with
  | @intro p below hbelow ih =>
    have hself := (Unfolding.intro below hbelow).self_mem
    have htargets : RulesFile.targets s' p = RulesFile.targets s p := h.targets hp (hload p hself)
    refine .of_targets below htargets fun q hq => ?_
    exact ih q hq (hp.tail hq) fun c hc =>
      hload c (List.mem_append_left _ (List.mem_flatMap.mpr ⟨q, hq, hc⟩))

theorem contribution (h : Kept s s' start) (hp : Reaches s start p) (hload : Loadable s g p) :
    contribution s' g p = contribution s g p := by
  obtain ⟨root, file, hroot, -, hown⟩ := hload
  have hdocument : RulesFile.document s' p = .ok root := h.document hp hroot
  rw [contribution_eq hroot hown, contribution_eq hdocument hown]

theorem gather (h : Kept s s' start) (hl : ∀ p ∈ l, Reaches s start p ∧ Loadable s g p) :
    gather s' g l = gather s g l := by
  have hcontribution : ∀ p ∈ l, RulesFile.contribution s' g p = RulesFile.contribution s g p :=
    fun p hp => h.contribution (hl p hp).1 (hl p hp).2
  simp only [RulesFile.gather]
  rw [List.flatMap_congr fun p hp => congrArg RulesFile.rules (hcontribution p hp),
    List.flatMap_congr fun p hp => congrArg RulesFile.exemptions (hcontribution p hp)]

/-- What can be loaded is loaded from another source that has it. -/
theorem load (h : Kept s s' start) {entry : Path} {result : RulesFile}
    (hstart : s.locate entry = .ok start) (hstart' : s'.locate entry = .ok start)
    (hload : load s g entry = .ok result) : RulesFile.load s' g entry = .ok result := by
  obtain ⟨first, l, hfirst, hu, hl, rfl, hids, hrules⟩ := load_eq_ok_iff.mp hload
  obtain rfl := Except.ok.inj (hstart.symm.trans hfirst)
  have hreached : ∀ p ∈ l, Reaches s start p ∧ Loadable s g p :=
    fun p hp => ⟨hu.reaches_of_mem hp, hl p hp⟩
  refine load_eq_ok_iff.mpr ⟨start, l, hstart', h.unfolding .refl hu hl, ?_, ?_, hids, hrules⟩
  · exact fun q hq => h.loadable (hreached q hq).1 (hreached q hq).2
  · exact (h.gather fun p hp => hreached p (List.mem_eraseDups.mp hp)).symm

end Kept

/-! ## Writing another file -/

theorem locate_ofTree : (Source.ofTree t).locate p = .ok q ↔
    ∃ l, t.locate p = .ok l ∧ q = Tree.pathOf l.names := by
  rw [Source.locate, mapError_eq_ok]
  dsimp only [Source.ofTree]
  cases t.locate p <;> simp [Except.map, eq_comm]

theorem text_ofTree {text : String} :
    (Source.ofTree t).text p = .ok text ↔ t.text p = .ok text := by
  rw [Source.text, mapError_eq_ok]
  rfl

theorem locate_of_wrote {place : List String} {content : List UInt8}
    (h : Wrote t t' place content) (hq : (Source.ofTree t).locate p = .ok q) :
    (Source.ofTree t').locate p = .ok q := by
  obtain ⟨l, hl, rfl⟩ := locate_ofTree.mp hq
  obtain ⟨n, hn, -⟩ := h.locate hl
  exact locate_ofTree.mpr ⟨_, hn, rfl⟩

/-- A tree in which a file was written has what led to other files. -/
theorem kept_of_wrote {place : List String} {content : List UInt8} (h : Wrote t t' place content)
    (hother : ∀ p, Reaches (.ofTree t) start p → ∀ n, t'.locate p ≠ .ok ⟨place, n⟩) :
    Kept (.ofTree t) (.ofTree t') start where
  text hp _ htext := text_ofTree.mpr (h.text (text_ofTree.mp htext) (hother _ hp))
  reference _ _ _ _ _ hq := locate_of_wrote h hq

end FlowLint.RulesFile

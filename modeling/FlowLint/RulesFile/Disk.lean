import FlowLint.Files.Tree
import FlowLint.RulesFile.Source

/-! # Rules files in a file tree

A reference resolves to the absolute path of the place it leads to.
-/

namespace FlowLint.RulesFile

open FlowLint.Files (Tree Node)

/-- What is located is a place of the tree. -/
theorem mem_places_of_locate {t : Tree} {p : Path} {l : Files.Located} (h : t.locate p = .ok l) :
    l.names ∈ t.root.places := by
  unfold Tree.locate at h
  split at h
  · simp at h
  · split at h
    · simp at h
    · split at h
      · next hat =>
        cases h
        exact Node.mem_places hat
      · simp at h

def Source.ofTree (t : Tree) : Source :=
  { paths := t.root.places.map Tree.pathOf
    resolve := fun p => (t.locate p).map fun l => Tree.pathOf l.names
    read := t.text
    mem_paths := by
      intro p q h
      cases hl : t.locate p with
      | error e => rw [hl] at h; cases h
      | ok l =>
        rw [hl] at h
        cases h
        exact List.mem_map.2 ⟨l.names, mem_places_of_locate hl, rfl⟩ }

end FlowLint.RulesFile

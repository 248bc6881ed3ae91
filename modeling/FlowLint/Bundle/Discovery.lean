import FlowLint.Files.Tree
import FlowLint.Path.Order

/-! # Discovering artifacts

A directory is an artifact if it holds a manifest. A root is searched from the top, and what lies
inside an artifact is not searched further.
-/

namespace FlowLint.Bundle

open FlowLint.Files (Node Tree named?)

/-- The place of the manifest in an artifact. -/
def manifestNames : List String := ["META-INF", "MANIFEST.MF"]

def isArtifact (n : Node) : Bool :=
  (n.at? manifestNames).any Node.isFile

mutual
/-- The artifacts at a path or below it, in the order of a walk. -/
def artifactsAt (p : Path) : Node → List Path
  | .file _ => []
  | .directory entries =>
    if isArtifact (.directory entries) then [p] else artifactsIn p entries
def artifactsIn (p : Path) : List (String × Node) → List Path
  | [] => []
  | (name, n) :: rest => artifactsAt (p.join ⟨name⟩) n ++ artifactsIn p rest
end

/-- The artifacts under a root in the order of paths; none if the root is no directory. -/
def discover? (t : Tree) (root : Path) : Option (List Path) :=
  match t.locate root with
  | .ok ⟨_, .directory entries⟩ => some ((artifactsAt root (.directory entries)).mergeSort Path.le)
  | _ => none

end FlowLint.Bundle

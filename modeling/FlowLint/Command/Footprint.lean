import FlowLint.Command.Golden

/-! # What is read and written

What a command reads and writes can be told from its arguments, save the rules files that others refer
to: of these the first one that is missing can be told.
-/

namespace FlowLint.Command

open FlowLint.Files (Tree)

/-- The lints that are run, the other files that are read, and the files that are written. -/
structure Footprint where
  lints : List Lint := []
  reads : List Path := []
  writes : List Path := []
deriving Repr, Inhabited

/-- What a command reads and writes. -/
def footprint : Command → Footprint
  | check l reportOut markdownOut => { lints := [l], writes := reportOut :: markdownOut.toList }
  | markdown report out => { reads := [report], writes := out.toList }
  | annotations report _ => { reads := [report] }
  | explain _ => {}

def upkeepFootprint (fixtures : Path) : Footprint :=
  let files := goldens.map fun x => fixtures.join ⟨x.expected⟩
  { lints := goldens.map (·.lint fixtures), reads := files, writes := files }

def Lint.missing? (l : Lint) (t : Tree) : Option Path :=
  match RulesFile.load (.ofTree t) Catalog.registry l.rules with
  | .error (.unreadable file .notFound) => some file
  | _ => none

namespace Footprint

/-- A rules file that is not in the tree. -/
def missing? (f : Footprint) (t : Tree) : Option Path :=
  f.lints.findSome? (·.missing? t)

/-- The files that have come to differ, with their content. -/
def changes (f : Footprint) (before after : Tree) : List (Path × List UInt8) :=
  f.writes.filterMap fun file =>
    match after.bytes file with
    | .ok content =>
      if (before.bytes file).toOption = some content then none else some (file, content)
    | .error _ => none

end Footprint

end FlowLint.Command

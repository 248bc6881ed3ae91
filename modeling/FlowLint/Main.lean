import FlowLint.Command.Footprint
import Std.Time.DateTime

/-! # The program

What a command may read is copied from the disk into a file tree, the command is executed on the tree,
and what it has written is copied back. Nothing but this copying touches the disk. A rules file that
another one refers to is copied when it is found to be missing.
-/

namespace FlowLint.Program

open FlowLint.Files (Node Tree)
open FlowLint.Command (Footprint Result)

/-- Directories that lie deeper than this are taken to be empty; no path is long enough to name one. -/
def deepest : Nat := 4096

/-- More rules files than this are not followed. -/
def mostFiles : Nat := 100000

/-- What is on the disk at a path, with directories down to a depth. -/
def readNode : Nat → String → IO (Option Node)
  | depth, path => do
    let place := System.mkFilePath [path]
    if ← place.isDir then
      match depth with
      | 0 => return some (.directory [])
      | depth + 1 =>
        let mut entries := []
        for e in ← place.readDir do
          if let some n ← readNode depth e.path.toString then
            entries := Files.putEntry e.fileName n entries
        return some (.directory entries)
    else if ← place.pathExists then
      return some (.file (← IO.FS.readBinFile place).toList)
    else return none

/-- The tree with a node copied from the disk to its place, unless it is there. -/
def copy (t : Tree) (names : List String) (depth : Nat) : IO Tree := do
  if depth = 0 ∧ (t.root.at? names).isSome then return t
  match ← readNode depth (Tree.pathOf names).text with
  | some n => return t.put names n
  | none => return t

/-- Follows pieces of a path and copies what lies on the way; what it leads to is copied down to a
depth. -/
def copyAlong (depth : Nat) (t : Tree) (names : List String) : List (List Char) → IO Tree
  | [] => copy t names depth
  | piece :: rest => do
    match Path.component? piece with
    | some (.normal name) =>
      let names := names ++ [name]
      copyAlong depth (← copy t names 0) names rest
    | some .parent => copyAlong depth t names.dropLast rest
    | _ => copyAlong depth t names rest

def copyPath (depth : Nat) (t : Tree) (p : Path) : IO Tree :=
  copyAlong depth t (t.start p) (Tree.piecesOf p)

/-- Copies rules files until none is missing that is on the disk. -/
def copyMissing (f : Footprint) : Nat → Tree → IO Tree
  | 0, t => return t
  | n + 1, t => do
    match f.missing? t with
    | none => return t
    | some file =>
      let copied ← copyPath 0 t file
      match copied.locate file with
      | .ok _ => copyMissing f n copied
      | .error _ => return copied

def copyAll (f : Footprint) : IO Tree := do
  let current : Path := ⟨(← IO.currentDir).toString⟩
  let names := current.components.filterMap fun
    | .normal name => some name
    | _ => none
  let t : Tree := { root := .directory [], current := names }
  let t ← copyPath 0 t current
  let t ← (f.lints.map (·.rules) ++ f.reads ++ f.writes).foldlM (copyPath 0) t
  let t ← (f.lints.flatMap (·.directories)).foldlM (copyPath deepest) t
  copyMissing f mostFiles t

def now : IO Moment := do
  let m := Std.Time.PlainDateTime.ofWallTime ((← Std.Time.Timestamp.now).toWallTime .zero)
  return (Moment.make? m.date.year.toInt.toNat m.date.month.toInt.toNat m.date.day.toInt.toNat
    m.time.hour.toInt.toNat m.time.minute.toInt.toNat m.time.second.toInt.toNat
    m.time.nanosecond.toInt.toNat 0).getD .epoch

def writeBack (change : Path × List UInt8) : IO Unit := do
  let (file, content) := change
  let directory := (file.parent?.getD ⟨""⟩).text
  if directory ≠ "" then IO.FS.createDirAll directory
  IO.FS.writeBinFile file.text ⟨content.toArray⟩

/-- Executes something on a copy of what it reads and writes. -/
def perform (f : Footprint) (execute : Tree → Command.Span → Result) : IO UInt32 := do
  let started ← now
  let t ← copyAll f
  let r := execute t ⟨started, ← now⟩
  (f.changes t r.tree).forM writeBack
  IO.print r.output
  IO.eprint r.errors
  return UInt32.ofNat r.code

/-- Executes an upkeep task in the current directory. -/
def upkeep (arguments : List String) : IO UInt32 := do
  let project : Path := ⟨(← IO.currentDir).toString⟩
  perform (Command.upkeepFootprint (Command.fixturesFolder project)) fun t span =>
    Command.executeUpkeep t span project arguments

end FlowLint.Program

open FlowLint in
/-- The program; under the name of the upkeep program it is that one. -/
def main (arguments : List String) : IO UInt32 := do
  if (← IO.appPath).fileName = some "xtask" then Program.upkeep arguments
  else
    let footprint := ((Command.ofArguments? arguments).map (·.footprint)).getD {}
    Program.perform footprint fun t span => Command.executeArguments t span arguments

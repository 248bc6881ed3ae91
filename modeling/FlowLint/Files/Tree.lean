import FlowLint.Files.Failure
import FlowLint.Files.Node
import FlowLint.Path.Basic
import FlowLint.Text.Utf8

/-! # File trees

A file tree is all there is to read and write: one directory that holds everything, and the place that
relative paths start from. A path is followed piece by piece; whatever is not its last piece must be a
directory, and `..` leads to the directory that holds the one reached.
-/

namespace FlowLint.Files

/-- All files and directories, and the current directory. -/
structure Tree where
  root : Node
  current : List String := []
deriving Repr, Inhabited

/-- A node with its place. -/
structure Located where
  names : List String
  node : Node
deriving Repr, Inhabited

namespace Tree

/-- Follows pieces of a path from a place. -/
def follow (t : Tree) (names : List String) : List (List Char) → Except FileFailure (List String)
  | [] => .ok names
  | piece :: rest =>
    match t.root.at? names with
    | some (.directory entries) =>
      match Path.component? piece with
      | some (.normal name) =>
        match named? entries name with
        | some _ => t.follow (names ++ [name]) rest
        | none => .error .notFound
      | some .parent => t.follow names.dropLast rest
      | _ => t.follow names rest
    | _ => .error .notADirectory

/-- Where a path starts. -/
def start (t : Tree) (p : Path) : List String :=
  if p.isAbsolute then [] else t.current

def piecesOf (p : Path) : List (List Char) :=
  Text.splitAt '/' p.text.toList

/-- The node that a path leads to. -/
def locate (t : Tree) (p : Path) : Except FileFailure Located :=
  if p.text = "" then .error .notFound
  else
    match t.follow (t.start p) (piecesOf p) with
    | .error e => .error e
    | .ok names =>
      match t.root.at? names with
      | some node => .ok ⟨names, node⟩
      | none => .error .notFound

/-- The absolute path of a place. -/
def pathOf (names : List String) : Path :=
  ⟨"/" ++ "/".intercalate names⟩

def isDirectory (t : Tree) (p : Path) : Bool :=
  match t.locate p with
  | .ok l => l.node.isDirectory
  | .error _ => false

def entries (t : Tree) (p : Path) : Except FileFailure (List (String × Node)) :=
  match t.locate p with
  | .error e => .error e
  | .ok ⟨_, .directory es⟩ => .ok es
  | .ok ⟨_, .file _⟩ => .error .notADirectory

def bytes (t : Tree) (p : Path) : Except FileFailure (List UInt8) :=
  match t.locate p with
  | .error e => .error e
  | .ok ⟨_, .file content⟩ => .ok content
  | .ok ⟨_, .directory _⟩ => .error .isADirectory

def text (t : Tree) (p : Path) : Except FileFailure String :=
  match t.bytes p with
  | .error e => .error e
  | .ok content =>
    match Text.ofBytes? content with
    | some s => .ok s
    | none => .error .notText

def put (t : Tree) (names : List String) (n : Node) : Tree :=
  { t with root := Node.put n t.root names }

/-- Where a path leads that need not exist: a name in a directory, and whether a separator follows. The
result is nothing if the path does not end in a name. -/
structure Target where
  directory : List String
  entries : List (String × Node)
  name : Option String
  closed : Bool
deriving Repr, Inhabited

/-- Follows a path up to its last piece. -/
def target (t : Tree) (p : Path) : Except FileFailure Target :=
  if p.text = "" then .error .notFound
  else
    let reversed := (piecesOf p).reverse
    let pieces := reversed.dropWhile (· = [])
    match t.follow (t.start p) (pieces.drop 1).reverse with
    | .error e => .error e
    | .ok names =>
      match t.root.at? names with
      | some (.directory entries) =>
        let name :=
          match pieces.head? >>= Path.component? with
          | some (.normal name) => some name
          | _ => none
        .ok ⟨names, entries, name, pieces.length < reversed.length⟩
      | _ => .error .notADirectory

/-- The tree with one more directory. -/
def makeDirectory (t : Tree) (p : Path) : Except FileFailure Tree :=
  match t.target p with
  | .error e => .error e
  | .ok ⟨_, _, none, _⟩ => .error .exists
  | .ok ⟨names, entries, some name, _⟩ =>
    if (named? entries name).isSome then .error .exists
    else .ok (t.put (names ++ [name]) (.directory []))

/-- A path and those above it, nearest first, at most `n` of them. -/
def upward : Nat → Path → List Path
  | 0, _ => []
  | n + 1, p =>
    p :: match p.parent? with
      | some q => upward n q
      | none => []

/-- Makes the first of several directories, each in the next one, with as many of the others as are
missing. -/
def makeEach (t : Tree) : List Path → Except FileFailure Tree
  | [] => .error .notFound
  | p :: above =>
    if p.text = "" then .ok t
    else
      match t.makeDirectory p with
      | .ok made => .ok made
      | .error .notFound =>
        match t.makeEach above with
        | .error e => .error e
        | .ok made =>
          match made.makeDirectory p with
          | .ok done => .ok done
          | .error e => if made.isDirectory p then .ok made else .error e
      | .error e => if t.isDirectory p then .ok t else .error e

/-- The tree in which a path leads to a directory. -/
def makeDirectories (t : Tree) (p : Path) : Except FileFailure Tree :=
  t.makeEach (upward (p.components.length + 1) p)

def write (t : Tree) (p : Path) (content : List UInt8) : Except FileFailure Tree :=
  match t.target p with
  | .error e => .error e
  | .ok ⟨names, entries, some name, false⟩ =>
    match named? entries name with
    | some (.directory _) => .error .isADirectory
    | _ => .ok (t.put (names ++ [name]) (.file content))
  | .ok _ => .error .isADirectory

end Tree

end FlowLint.Files

import FlowLint.Text.Split

/-! # Paths

A path is kept as it is written, because messages show it so; what it means is its components.
Repeated separators, a separator at the end and components `.` say nothing, save one `.` at the very
start of a relative path.
-/

namespace FlowLint

/-- A path as written, with `/` between its components. -/
structure Path where
  text : String
deriving Repr, DecidableEq, Inhabited

namespace Path

/-- A component of a path. -/
inductive Component
  | root
  | current
  | parent
  | normal (name : String)
deriving Repr, DecidableEq, Inhabited

def isAbsolute (p : Path) : Bool :=
  p.text.toList.head? = some '/'

/-- What a piece between separators stands for, unless it is the first one. -/
def component? (piece : List Char) : Option Component :=
  if piece = [] ∨ piece = ['.'] then none
  else if piece = ['.', '.'] then some .parent
  else some (.normal (String.ofList piece))

/-- What the first piece stands for. -/
def leading? (absolute : Bool) (piece : List Char) : Option Component :=
  if absolute then some .root
  else if piece = ['.'] then some .current
  else component? piece

/-- The first piece and the others; the first is empty if the path is absolute or empty. -/
def pieces (p : Path) : List Char × List (List Char) :=
  match Text.splitAt '/' p.text.toList with
  | [] => ([], [])
  | first :: others => (first, others)

def components (p : Path) : List Component :=
  let (first, others) := p.pieces
  (leading? p.isAbsolute first).toList ++ others.filterMap component?

/-- The path `q` seen from `p`: an absolute path stands for itself. -/
def join (p q : Path) : Path :=
  if q.isAbsolute then q
  else if p.text = "" ∨ p.text.toList.getLast? = some '/' then ⟨p.text ++ q.text⟩
  else ⟨p.text ++ "/" ++ q.text⟩

/-- Whether a piece that is not the first says nothing. -/
def isSilent (piece : List Char) : Bool :=
  (component? piece).isNone

/-- A path of the given pieces. The root alone needs its separator. -/
def ofPieces (absolute : Bool) (first : List Char) (others : List (List Char)) : Path :=
  if absolute ∧ others = [] then ⟨"/"⟩ else ⟨String.ofList (Text.joinWith '/' (first :: others))⟩

/-- The path without its last component, otherwise written as before; none for the root and for the
empty path. -/
def parent? (p : Path) : Option Path :=
  let (first, others) := p.pieces
  match others.reverse.dropWhile isSilent with
  | _ :: before => some (ofPieces p.isAbsolute first (before.dropWhile isSilent).reverse)
  | [] => if p.isAbsolute ∨ first = [] then none else some ⟨""⟩

/-- The last component, if it is a name. -/
def fileName? (p : Path) : Option String :=
  match p.components.getLast? with
  | some (.normal name) => some name
  | _ => none

/-- What follows the last point of a file name, unless that point is its first character. -/
def extensionOf? (name : String) : Option String :=
  let reversed := name.toList.reverse
  match reversed.dropWhile (· ≠ '.') with
  | _ :: _ :: _ => some (String.ofList (reversed.takeWhile (· ≠ '.')).reverse)
  | _ => none

def extension? (p : Path) : Option String :=
  p.fileName? >>= extensionOf?

end Path

end FlowLint

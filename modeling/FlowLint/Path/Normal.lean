import FlowLint.Path.Basic

/-! # Resolving paths by their text

A path is resolved without looking at any directory: `.` says nothing, `..` takes back the name
before it, stays at the root, and is kept where there is nothing to take back. Two references to one
document are the same reference when they resolve to the same path.
-/

namespace FlowLint.Path

/-- One more component after resolved ones, which are kept latest first. -/
def resolveStep (resolved : List Component) : Component → List Component
  | .current => resolved
  | .parent =>
    match resolved with
    | .normal _ :: rest => rest
    | .root :: _ => resolved
    | _ => .parent :: resolved
  | c => c :: resolved

/-- The components with `.` and `..` resolved. -/
def resolve (cs : List Component) : List Component :=
  (cs.foldl resolveStep []).reverse

def Component.text : Component → List Char
  | root => []
  | current => ['.']
  | parent => ['.', '.']
  | normal name => name.toList

def ofComponents (cs : List Component) : Path :=
  if cs = [.root] then ⟨"/"⟩ else ⟨String.ofList (Text.joinWith '/' (cs.map Component.text))⟩

def normalize (p : Path) : Path :=
  ofComponents (resolve p.components)

end FlowLint.Path

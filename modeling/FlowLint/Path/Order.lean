import FlowLint.Path.Basic

/-! # The order of paths

Paths are ordered component by component, not by their text: `a/b` comes before `a-b`. Two paths with
the same components are at the same place in the order however they are written.
-/

namespace FlowLint.Path

/-- The kinds of components in order. -/
def Component.rank : Component → Nat
  | root => 0
  | current => 1
  | parent => 2
  | normal _ => 3

def Component.before : Component → Component → Bool
  | normal a, normal b => a < b
  | a, b => a.rank < b.rank

/-- Whether components come before others or are the same. -/
def componentsLe : List Component → List Component → Bool
  | [], _ => true
  | _ :: _, [] => false
  | a :: as, b :: bs => a.before b || (a = b && componentsLe as bs)

/-- Whether a path comes before another or has the same components. -/
def le (p q : Path) : Bool :=
  componentsLe p.components q.components

/-- The list without paths that have the components of the one right before. -/
def dropRepeats : List Path → List Path
  | p :: q :: rest =>
    if p.components = q.components then dropRepeats (p :: rest) else p :: dropRepeats (q :: rest)
  | ps => ps
termination_by ps => ps.length

/-- Paths in order. Of several with the same components the first one is kept. -/
def sortDistinct (ps : List Path) : List Path :=
  dropRepeats (ps.mergeSort le)

end FlowLint.Path

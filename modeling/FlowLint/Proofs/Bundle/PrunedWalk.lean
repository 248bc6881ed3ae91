import FlowLint.Proofs.Bundle.Topmost

/-!
# The walk of a search

A search walks through a directory with a stack of listings, the innermost on top: it takes the
next entry of the innermost listing that is not used up and, if that is a directory, puts its
listing on top. Where the directory is an artifact, the listing just put there is taken off
again, so that nothing inside is come to and nothing beside is missed. What a search finds from
any stack is what the artifacts of its entries are, one after the other.
-/

namespace FlowLint.Bundle

open FlowLint.Files (Node)

/-- A node with its path. -/
abbrev Visit := Path × Node

variable {walk rest : List (List Visit)} {x : Visit} {p : Path}

/-- What stands in a directory. -/
def listing (p : Path) (entries : List (String × Node)) : List Visit :=
  entries.map fun e => (p.join ⟨e.1⟩, e.2)

/-- The stack after an entry has been taken from it. -/
def enter (x : Visit) (outer : List (List Visit)) : List (List Visit) :=
  match x.2 with
  | .file _ => outer
  | .directory entries => listing x.1 entries :: outer

/-- The next entry of a walk, and the stack when it has been entered. -/
def advance? : List (List Visit) → Option (Visit × List (List Visit))
  | [] => none
  | [] :: outer => advance? outer
  | (x :: later) :: outer => some (x, enter x (later :: outer))

/-- The walk that goes on beside the directory just entered and not in it. -/
def leave (walk : List (List Visit)) : List (List Visit) :=
  walk.drop 1

/-- The number of nodes that a walk has still to come to if it leaves nothing out. -/
def ahead (walk : List (List Visit)) : Nat :=
  (walk.flatten.flatMap (·.2.places)).length

/-! ## Steps -/

@[simp] theorem listing_cons (p : Path) (e : String × Node) (rest : List (String × Node)) :
    listing p (e :: rest) = (p.join ⟨e.1⟩, e.2) :: listing p rest :=
  rfl

theorem length_places_listing (p : Path) (entries : List (String × Node)) :
    ((listing p entries).flatMap (·.2.places)).length = (Node.placesIn entries).length := by
  induction entries with
  | nil => rfl
  | cons e rest ih =>
    simp [ih, Node.placesIn]

/-- The recursive walk over entries goes through their listing. -/
theorem artifactsIn_listing (p : Path) (entries : List (String × Node)) :
    artifactsIn p entries = (listing p entries).flatMap fun x => artifactsAt x.1 x.2 := by
  induction entries with
  | nil => rfl
  | cons e rest ih =>
    simp [artifactsIn, ih]

theorem ahead_enter (x : Visit) (outer : List (List Visit)) :
    ahead (enter x outer) + 1 = x.2.places.length + ahead outer := by
  obtain ⟨p, n⟩ := x
  cases n with
  | file content =>
    rw [enter, Node.places, List.length_singleton, Nat.add_comm]
  | directory entries =>
    rw [enter, ahead, List.flatten_cons, List.flatMap_append, List.length_append,
      length_places_listing, Node.places, List.length_cons, ahead]
    omega

/-- An entry that is come to is no longer ahead, but everything in it is. -/
theorem ahead_advance? (h : advance? walk = some (x, rest)) : ahead rest + 1 = ahead walk := by
  fun_induction advance? walk with
  | case1 => cases h
  | case2 outer ih => exact ih h
  | case3 first later outer =>
    obtain ⟨rfl, rfl⟩ := Prod.mk.inj (Option.some.inj h)
    rw [ahead_enter, ahead, ahead, List.flatten_cons, List.flatten_cons, List.cons_append,
      List.flatMap_cons, List.length_append]

theorem ahead_leave (walk : List (List Visit)) : ahead (leave walk) ≤ ahead walk := by
  cases walk with
  | nil => exact Nat.le_refl _
  | cons top outer =>
    rw [leave, List.drop_one, List.tail_cons, ahead, ahead, List.flatten_cons,
      List.flatMap_append, List.length_append]
    omega

/-! ## The search -/

/-- The directories that a search finds, in the order in which its walk comes to them. -/
def search (walk : List (List Visit)) : List Path :=
  match _ : advance? walk with
  | none => []
  | some (x, rest) =>
    if isArtifact x.2 then x.1 :: search (leave rest) else search rest
termination_by ahead walk
decreasing_by
  · have hleave := ahead_leave rest
    have hless := ahead_advance? ‹advance? walk = some (x, rest)›
    omega
  · have hless := ahead_advance? ‹advance? walk = some (x, rest)›
    omega

theorem search_of_none (h : advance? walk = none) : search walk = [] := by
  rw [search]
  split
  · rfl
  · next heq => cases h.symm.trans heq

/-- One step of the search: an artifact is reported and left, any other place is entered. -/
theorem search_of_some (h : advance? walk = some (x, rest)) :
    search walk = if isArtifact x.2 then x.1 :: search (leave rest) else search rest := by
  rw [search]
  split
  · next heq => cases h.symm.trans heq
  · next heq =>
    obtain ⟨rfl, rfl⟩ := Prod.mk.inj (Option.some.inj (h.symm.trans heq))
    rfl

/-- The artifacts of a stack: those of each entry that has not been taken, from the top down. -/
def artifactsOf (walk : List (List Visit)) : List Path :=
  walk.flatten.flatMap fun x => artifactsAt x.1 x.2

@[simp] theorem artifactsOf_cons (first : List Visit) (outer : List (List Visit)) :
    artifactsOf (first :: outer) =
      (first.flatMap fun x => artifactsAt x.1 x.2) ++ artifactsOf outer := by
  rw [artifactsOf, List.flatten_cons, List.flatMap_append, artifactsOf]

theorem artifactsOf_of_none (h : advance? walk = none) : artifactsOf walk = [] := by
  fun_induction advance? walk with
  | case1 => rfl
  | case2 outer ih => exact ih h
  | case3 x later outer => cases h

/-- An artifact stands for all there is in it; another directory adds nothing of its own. -/
theorem artifactsOf_enter (x : Visit) (outer : List (List Visit)) :
    artifactsAt x.1 x.2 ++ artifactsOf outer =
      if isArtifact x.2 then x.1 :: artifactsOf (leave (enter x outer))
      else artifactsOf (enter x outer) := by
  obtain ⟨p, n⟩ := x
  cases n with
  | file content =>
    rw [if_neg (by rw [isArtifact_file]; exact Bool.false_ne_true), artifactsAt, enter,
      List.nil_append]
  | directory entries =>
    rw [artifactsAt]
    by_cases h : isArtifact (.directory entries) = true
    · rw [if_pos h, if_pos h, enter, leave, List.drop_one, List.tail_cons, List.singleton_append]
    · rw [if_neg h, if_neg h, enter, artifactsOf_cons, ← artifactsIn_listing]

/-- The recursive description takes the same step as the search. -/
theorem artifactsOf_of_some (h : advance? walk = some (x, rest)) :
    artifactsOf walk = if isArtifact x.2 then x.1 :: artifactsOf (leave rest)
      else artifactsOf rest := by
  fun_induction advance? walk with
  | case1 => cases h
  | case2 outer ih => exact ih h
  | case3 first later outer =>
    obtain ⟨rfl, rfl⟩ := Prod.mk.inj (Option.some.inj h)
    rw [← artifactsOf_enter, artifactsOf_cons, artifactsOf_cons, List.flatMap_cons,
      List.append_assoc]

/-- A search finds the artifacts of its stack. -/
theorem search_eq (walk : List (List Visit)) : search walk = artifactsOf walk := by
  induction hn : ahead walk using Nat.strongRecOn generalizing walk with
  | ind n ih =>
    cases h : advance? walk with
    | none => rw [search_of_none h, artifactsOf_of_none h]
    | some next =>
      obtain ⟨x, rest⟩ := next
      have hstep := ahead_advance? h
      have hleave := ahead_leave rest
      rw [search_of_some h, artifactsOf_of_some h, ih _ (by omega) (leave rest) rfl,
        ih _ (by omega) rest rfl]

theorem search_root (root : Path) (n : Node) : search [[(root, n)]] = artifactsAt root n := by
  rw [search_eq, artifactsOf, List.flatten_singleton, List.flatMap_singleton]

end FlowLint.Bundle

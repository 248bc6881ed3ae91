/-! # Files and directories

A node is a file with its content or a directory with named nodes in the order of their names. The
place of a node in another is the list of names on the way to it. There are no links, so a node has
one place.
-/

namespace FlowLint.Files

/-- A file or a directory. -/
inductive Node
  | file (content : List UInt8)
  | directory (entries : List (String × Node))
deriving Repr, Inhabited

def named? (entries : List (String × Node)) (name : String) : Option Node :=
  (entries.find? (·.1 = name)).map (·.2)

/-- Adds a node in the order of names, or replaces the one with that name. -/
def putEntry (name : String) (n : Node) : List (String × Node) → List (String × Node)
  | [] => [(name, n)]
  | (other, m) :: rest =>
    if name < other then (name, n) :: (other, m) :: rest
    else if name = other then (name, n) :: rest
    else (other, m) :: putEntry name n rest

namespace Node

def isFile : Node → Bool
  | file _ => true
  | directory _ => false

def isDirectory (n : Node) : Bool :=
  !n.isFile

/-- The node at a place. -/
def at? : Node → List String → Option Node
  | n, [] => some n
  | file _, _ :: _ => none
  | directory entries, name :: rest =>
    match named? entries name with
    | none => none
    | some n => n.at? rest
termination_by _ names => names.length

/-- The node with another put at a place; directories on the way are made if there are none. -/
def put (new : Node) : Node → List String → Node
  | _, [] => new
  | file _, name :: rest => directory [(name, put new (directory []) rest)]
  | directory entries, name :: rest =>
    directory (putEntry name (put new ((named? entries name).getD (directory [])) rest) entries)
termination_by _ names => names.length

mutual
/-- The places in a node, its own first. -/
def places : Node → List (List String)
  | file _ => [[]]
  | directory entries => [] :: placesIn entries
def placesIn : List (String × Node) → List (List String)
  | [] => []
  | (name, n) :: rest => (places n).map (name :: ·) ++ placesIn rest
end

theorem mem_placesIn {entries : List (String × Node)} {name : String} {n : Node}
    {names : List String} (he : (name, n) ∈ entries) (hn : names ∈ n.places) :
    name :: names ∈ placesIn entries := by
  induction entries with
  | nil => simp at he
  | cons x rest ih =>
    obtain ⟨other, m⟩ := x
    rw [placesIn, List.mem_append]
    rcases List.mem_cons.1 he with h | h
    · cases h
      exact Or.inl (List.mem_map.2 ⟨names, hn, rfl⟩)
    · exact Or.inr (ih h)

theorem mem_of_named? {entries : List (String × Node)} {name : String} {n : Node}
    (h : named? entries name = some n) : (name, n) ∈ entries := by
  unfold named? at h
  obtain ⟨⟨other, m⟩, hf, rfl⟩ := Option.map_eq_some_iff.1 h
  have hname := List.find?_some hf
  simp only [decide_eq_true_eq] at hname
  exact hname ▸ List.mem_of_find?_eq_some hf

theorem nil_mem_places (n : Node) : [] ∈ n.places := by
  cases n <;> simp [places]

/-- Where there is a node, there is a place. -/
theorem mem_places {n m : Node} {names : List String} (h : n.at? names = some m) :
    names ∈ n.places := by
  induction names generalizing n with
  | nil => exact nil_mem_places n
  | cons name rest ih =>
    cases n with
    | file content => simp [at?] at h
    | directory entries =>
      rw [at?] at h
      cases he : named? entries name with
      | none => simp [he] at h
      | some child =>
        rw [he] at h
        rw [places]
        exact List.mem_cons_of_mem _ (mem_placesIn (mem_of_named? he) (ih h))

end Node

end FlowLint.Files

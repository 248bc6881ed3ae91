import FlowLint.Files.Tree
import FlowLint.Proofs.Text.Bytes
import Mathlib.Data.List.Nodup

/-!
# Places in a file tree

What is at a place of a tree is found by following a path to it. From a directory, a path made
of names leads to what lies there under these names, and nowhere else; where any path leads, if
it leads anywhere, depends on its components alone. Nodes are taken to have names that files can
have, which differ within a directory; nothing is said of what follows a name such as `a/b`.
-/

namespace FlowLint.Files

open FlowLint.Path (Component)

/-! ## Nodes -/

/-- Induction over a node with the nodes of its entries. -/
theorem Node.induction {motive : Node → Prop} (file : ∀ content, motive (.file content))
    (directory : ∀ entries, (∀ e ∈ entries, motive e.2) → motive (.directory entries)) :
    ∀ n, motive n
  | .file content => file content
  | .directory entries => directory entries fun e _he => Node.induction file directory e.2
termination_by n => n
decreasing_by
  have hlt := List.sizeOf_lt_of_mem _he
  cases e
  simp only [Prod.mk.sizeOf_spec, Node.directory.sizeOf_spec] at hlt ⊢
  omega

/-- Whether a file or a directory can have the name. -/
def isName (name : String) : Bool :=
  !(["", ".", ".."].contains name) && !(name.toList.contains '/')

mutual
/-- Whether all names in a node are possible and differ within each directory. -/
def Node.isProper : Node → Bool
  | .file _ => true
  | .directory entries => decide (entries.map (·.1)).Nodup && areProper entries
/-- Whether named nodes are proper and have possible names. -/
def areProper : List (String × Node) → Bool
  | [] => true
  | (name, n) :: rest => isName name && n.isProper && areProper rest
end

variable {entries : List (String × Node)} {name : String} {names rel : List String} {n m : Node}

theorem areProper_iff : areProper entries = true ↔
    ∀ e ∈ entries, isName e.1 = true ∧ e.2.isProper = true := by
  induction entries with
  | nil => simp [areProper]
  | cons e rest ih => simp [areProper, ih]

@[simp] theorem isProper_directory : (Node.directory entries).isProper = true ↔
    (entries.map (·.1)).Nodup ∧ ∀ e ∈ entries, isName e.1 = true ∧ e.2.isProper = true := by
  rw [Node.isProper, Bool.and_eq_true, decide_eq_true_iff, areProper_iff]

/-- Among distinct names a search by name is membership. -/
theorem named?_eq_some_iff (h : (entries.map (·.1)).Nodup) :
    named? entries name = some n ↔ (name, n) ∈ entries := by
  refine ⟨Node.mem_of_named?, fun hmem => ?_⟩
  unfold named?
  induction entries with
  | nil => exact absurd hmem List.not_mem_nil
  | cons e rest ih =>
    obtain ⟨hnew, hrest⟩ := List.nodup_cons.mp h
    rcases List.mem_cons.mp hmem with rfl | hmem
    · simp
    · have hne : e.1 ≠ name := by
        rintro rfl
        exact hnew (List.mem_map_of_mem (f := (·.1)) hmem)
      rw [List.find?_cons_of_neg (by simpa using hne)]
      exact ih hrest hmem

namespace Node

@[simp] theorem at?_nil (n : Node) : n.at? [] = some n := by
  cases n <;> rw [at?]

@[simp]
theorem at?_directory (entries : List (String × Node)) (name : String) (names : List String) :
    (directory entries).at? (name :: names) = (named? entries name).bind (·.at? names) := by
  rw [at?]
  cases named? entries name <;> rfl

@[simp] theorem at?_file (content : List UInt8) (name : String) (names : List String) :
    (file content).at? (name :: names) = none := by
  rw [at?]

theorem at?_append (n : Node) (names rel : List String) :
    n.at? (names ++ rel) = (n.at? names).bind (·.at? rel) := by
  induction names generalizing n with
  | nil => rw [at?_nil]; rfl
  | cons name rest ih =>
    cases n with
    | file content => rw [List.cons_append, at?_file, at?_file]; rfl
    | directory entries =>
      rw [List.cons_append, at?_directory, at?_directory]
      cases named? entries name with
      | none => rfl
      | some child => exact ih child

theorem at?_directory_cons : (directory entries).at? (name :: rel) = some m ↔
    ∃ child, named? entries name = some child ∧ child.at? rel = some m := by
  rw [at?_directory, Option.bind_eq_some_iff]

/-- What lies in a proper node is proper, under names that are names. -/
theorem isProper_of_at? (h : n.isProper = true) (hat : n.at? names = some m) :
    m.isProper = true ∧ ∀ name ∈ names, isName name = true := by
  induction names generalizing n with
  | nil =>
    rw [at?_nil] at hat
    exact ⟨Option.some.inj hat ▸ h, fun _ hname => absurd hname List.not_mem_nil⟩
  | cons name rest ih =>
    cases n with
    | file content => simp at hat
    | directory entries =>
      obtain ⟨child, hchild, hat⟩ := at?_directory_cons.mp hat
      obtain ⟨hname, hproper⟩ := (isProper_directory.mp h).2 _ (mem_of_named? hchild)
      obtain ⟨hm, hrest⟩ := ih hproper hat
      have hall : ∀ x ∈ name :: rest, isName x = true := List.forall_mem_cons.mpr ⟨hname, hrest⟩
      exact ⟨hm, hall⟩

end Node

/-! ## Pieces of a path -/

theorem splitAt_eq_splitOn (separator : Char) (cs : List Char) :
    Text.splitAt separator cs = cs.splitOn separator := by
  induction cs with
  | nil => rfl
  | cons c cs ih =>
    rw [Text.splitAt, ih, List.splitOn_cons_eq_if_modifyHead]
    by_cases h : c = separator
    · simp [h]
    · have hne := List.splitOn_ne_nil separator cs
      cases hs : cs.splitOn separator with
      | nil => exact absurd hs hne
      | cons piece rest => simp [h, List.modifyHead]

theorem splitAt_append_separator (separator : Char) (xs ys : List Char) :
    Text.splitAt separator (xs ++ separator :: ys) =
      Text.splitAt separator xs ++ Text.splitAt separator ys := by
  simp only [splitAt_eq_splitOn]
  exact List.splitOn_append_cons_self xs ys

theorem splitAt_of_notMem {separator : Char} {cs : List Char} (h : separator ∉ cs) :
    Text.splitAt separator cs = [cs] := by
  induction cs with
  | nil => rfl
  | cons c rest ih =>
    obtain ⟨hc, hrest⟩ := not_or.mp (mt List.mem_cons.mpr h)
    rw [Text.splitAt, if_neg (Ne.symm hc), ih hrest]

/-- The pieces of names with separators between them are the names. -/
theorem piecesOf_intercalate (hne : rel ≠ []) (hnames : ∀ name ∈ rel, isName name = true) :
    Tree.piecesOf ⟨"/".intercalate rel⟩ = rel.map String.toList := by
  have hslash : ∀ piece ∈ rel.map String.toList, '/' ∉ piece := by
    intro piece hpiece
    obtain ⟨name, hname, rfl⟩ := List.mem_map.mp hpiece
    have h := hnames name hname
    simp only [isName, Bool.and_eq_true, Bool.not_eq_true', List.contains_eq_mem,
      decide_eq_false_iff_not] at h
    exact h.2
  rw [Tree.piecesOf, splitAt_eq_splitOn, String.toList_intercalate]
  exact List.splitOn_intercalate '/' hslash (by simpa using hne)

theorem component?_of_isName (h : isName name = true) :
    Path.component? name.toList = some (.normal name) := by
  simp only [isName, Bool.and_eq_true, Bool.not_eq_true', List.contains_eq_mem,
    decide_eq_false_iff_not, List.mem_cons, List.not_mem_nil, or_false, not_or] at h
  obtain ⟨⟨hempty, hdot, hdots⟩, -⟩ := h
  have hne : ∀ text : String, name ≠ text → name.toList ≠ text.toList := fun _ h heq =>
    h (String.toList_inj.mp heq)
  rw [Path.component?, if_neg, if_neg, String.ofList_toList]
  · exact hne ".." hdots
  · exact not_or.mpr ⟨hne "" hempty, hne "." hdot⟩

theorem nil_notMem_map_toList (hnames : ∀ name ∈ rel, isName name = true) :
    [] ∉ rel.map String.toList := by
  intro hnil
  obtain ⟨name, hname, hempty⟩ := List.mem_map.mp hnil
  have hcomponent := component?_of_isName (hnames name hname)
  rw [hempty] at hcomponent
  cases hcomponent

theorem isAbsolute_intercalate (hne : rel ≠ []) (hnames : ∀ name ∈ rel, isName name = true) :
    Path.isAbsolute ⟨"/".intercalate rel⟩ = false := by
  cases habsolute : Path.isAbsolute ⟨"/".intercalate rel⟩ with
  | false => rfl
  | true =>
    obtain ⟨cs, hcs⟩ := List.head?_eq_some_iff.mp (of_decide_eq_true habsolute)
    have hpieces := piecesOf_intercalate hne hnames
    rw [Tree.piecesOf, hcs, Text.splitAt, if_pos rfl] at hpieces
    exact absurd (hpieces ▸ List.mem_cons_self) (nil_notMem_map_toList hnames)

/-- Names joined by separators are recovered from the joined text. -/
theorem intercalate_inj {rel' : List String} (hne : rel ≠ []) (hne' : rel' ≠ [])
    (hnames : ∀ name ∈ rel, isName name = true) (hnames' : ∀ name ∈ rel', isName name = true)
    (h : "/".intercalate rel = "/".intercalate rel') : rel = rel' := by
  have hpieces := piecesOf_intercalate hne hnames
  rw [h, piecesOf_intercalate hne' hnames'] at hpieces
  exact (List.map_inj_right fun _ _ => String.toList_inj.mp).mp hpieces.symm

theorem intercalate_ne_empty (hne : rel ≠ []) (hnames : ∀ name ∈ rel, isName name = true) :
    "/".intercalate rel ≠ "" := by
  intro hempty
  have hpieces := piecesOf_intercalate hne hnames
  rw [hempty] at hpieces
  exact nil_notMem_map_toList hnames (hpieces ▸ List.mem_singleton_self [])

/-- A path made of names does not end in a separator. -/
theorem getLast?_intercalate (hne : rel ≠ []) (hnames : ∀ name ∈ rel, isName name = true) :
    ("/".intercalate rel).toList.getLast? ≠ some '/' := by
  intro hlast
  obtain ⟨front, hfront⟩ := List.getLast?_eq_some_iff.mp hlast
  have hpieces := piecesOf_intercalate hne hnames
  rw [Tree.piecesOf, hfront, splitAt_append_separator] at hpieces
  refine nil_notMem_map_toList hnames ?_
  rw [← hpieces]
  exact List.mem_append_right _ (List.mem_singleton_self [])

theorem exists_join (p : Path) :
    ∃ front, ∀ q : Path, q.isAbsolute = false → p.join q = ⟨front ++ q.text⟩ := by
  by_cases hopen : p.text = "" ∨ p.text.toList.getLast? = some '/'
  · refine ⟨p.text, fun q hq => ?_⟩
    rw [Path.join, if_neg (by simp [hq]), if_pos hopen]
  · refine ⟨p.text ++ "/", fun q hq => ?_⟩
    rw [Path.join, if_neg (by simp [hq]), if_neg hopen]

/-- Joining the paths of names one after the other is joining the path of all of them. -/
theorem join_join_names {rel' : List String} (p : Path) (hne : rel ≠ []) (hne' : rel' ≠ [])
    (hnames : ∀ name ∈ rel, isName name = true) (hnames' : ∀ name ∈ rel', isName name = true) :
    (p.join ⟨"/".intercalate rel⟩).join ⟨"/".intercalate rel'⟩ =
      p.join ⟨"/".intercalate (rel ++ rel')⟩ := by
  obtain ⟨front, hjoin⟩ := exists_join p
  have hrelative' := isAbsolute_intercalate hne' hnames'
  have happend := isAbsolute_intercalate (List.append_ne_nil_of_left_ne_nil hne rel')
    (List.forall_mem_append.mpr ⟨hnames, hnames'⟩)
  have hlast := getLast?_intercalate hne hnames
  have htext := intercalate_ne_empty hne hnames
  have hopen : ¬(front ++ "/".intercalate rel = "" ∨
      (front ++ "/".intercalate rel).toList.getLast? = some '/') := by
    have hchars : ("/".intercalate rel).toList ≠ [] := fun h => htext (String.toList_eq_nil_iff.mp h)
    rw [String.toList_append, List.getLast?_append_of_ne_nil _ hchars]
    exact not_or.mpr ⟨fun hempty => htext (String.append_eq_empty_iff.mp hempty).2, hlast⟩
  rw [hjoin _ (isAbsolute_intercalate hne hnames), hjoin _ happend, Path.join,
    if_neg (by simp [hrelative']), if_neg hopen, String.intercalate_append_of_ne_nil hne hne']
  simp only [String.append_assoc]

/-! ## Following a path -/

namespace Tree

variable {t : Tree} {p q : Path} {place : List String}

/-- The node that pieces of a path lead to from a place. -/
def locateFrom (t : Tree) (place : List String) (pieces : List (List Char)) :
    Except FileFailure Located :=
  match t.follow place pieces with
  | .error e => .error e
  | .ok names =>
    match t.root.at? names with
    | some node => .ok ⟨names, node⟩
    | none => .error .notFound

/-- A path that is not empty is followed piece by piece from where it starts. -/
theorem locate_eq (h : p.text ≠ "") : t.locate p = t.locateFrom (t.start p) (piecesOf p) :=
  if_neg h

theorem follow_append (t : Tree) (place : List String) (xs ys : List (List Char)) :
    t.follow place (xs ++ ys) = t.follow place xs >>= fun names => t.follow names ys := by
  induction xs generalizing place with
  | nil => rfl
  | cons piece rest ih =>
    rw [List.cons_append, follow, follow]
    split
    · split
      · split
        · exact ih _
        · rfl
      · exact ih _
      · exact ih _
    · rfl

/-- What is located lies where it is said to lie. -/
theorem at?_of_locate {l : Located} (h : t.locate p = .ok l) : t.root.at? l.names = some l.node := by
  unfold locate at h
  split at h
  · cases h
  split at h
  · cases h
  split at h
  · next hat =>
    cases h
    exact hat
  · cases h

theorem text_ne_empty {l : Located} (h : t.locate p = .ok l) : p.text ≠ "" := by
  intro hempty
  rw [locate, if_pos hempty] at h
  cases h

/-- A piece that names something in a directory leads there. -/
theorem follow_name (hat : t.root.at? place = some (.directory entries))
    (hname : isName name = true) (rest : List (List Char)) :
    t.follow place (name.toList :: rest) =
      match named? entries name with
      | some _ => t.follow (place ++ [name]) rest
      | none => .error .notFound := by
  cases hchild : named? entries name <;>
    simp only [follow, hat, component?_of_isName hname, hchild]

/-- One piece of a path that is a name leads into the entry with that name or nowhere. -/
theorem locateFrom_directory (hat : t.root.at? place = some (.directory entries))
    (hname : isName name = true) (rest : List (List Char)) :
    t.locateFrom place (name.toList :: rest) =
      match named? entries name with
      | some _ => t.locateFrom (place ++ [name]) rest
      | none => .error .notFound := by
  rw [locateFrom, follow_name hat hname]
  cases named? entries name <;> rfl

/-- Names lead from a place to what lies below it under them. -/
theorem locateFrom_names (hat : t.root.at? place = some n)
    (hnames : ∀ name ∈ rel, isName name = true) {l : Located} :
    t.locateFrom place (rel.map String.toList) = .ok l ↔
      l.names = place ++ rel ∧ n.at? rel = some l.node := by
  induction rel generalizing place n with
  | nil =>
    rw [locateFrom, List.map_nil, follow, Node.at?_nil, List.append_nil]
    simp only [hat, Except.ok.injEq, Option.some.injEq]
    constructor
    · rintro rfl
      exact ⟨rfl, rfl⟩
    · rintro ⟨rfl, rfl⟩
      rfl
  | cons name rest ih =>
    obtain ⟨hname, hrest⟩ := List.forall_mem_cons.mp hnames
    cases n with
    | file content => simp [locateFrom, follow, hat]
    | directory entries =>
      rw [List.map_cons, locateFrom_directory hat hname, Node.at?]
      cases hchild : named? entries name with
      | none => simp
      | some child =>
        have hat' : t.root.at? (place ++ [name]) = some child := by
          rw [Node.at?_append, hat, Option.bind_some, Node.at?, hchild]
          exact Node.at?_nil child
        rw [ih hat' hrest, List.append_assoc, List.singleton_append]

/-! ## Paths from a directory -/

theorem text_join (hp : p.text ≠ "") (hq : q.isAbsolute = false) :
    (p.join q).text.toList =
      if p.text.toList.getLast? = some '/' then p.text.toList ++ q.text.toList
      else p.text.toList ++ '/' :: q.text.toList := by
  rw [Path.join, if_neg (by simp [hq])]
  by_cases hlast : p.text.toList.getLast? = some '/'
  · rw [if_pos (.inr hlast), if_pos hlast, String.toList_append]
  · rw [if_neg (not_or.mpr ⟨hp, hlast⟩), if_neg hlast]
    simp

theorem follow_of_locate {l : Located} (h : t.locate p = .ok l) :
    t.follow (t.start p) (piecesOf p) = .ok l.names := by
  rw [locate_eq (text_ne_empty h), locateFrom] at h
  cases hfollow : t.follow (t.start p) (piecesOf p) with
  | error e =>
    rw [hfollow] at h
    cases h
  | ok names =>
    simp only [hfollow] at h
    cases hat : t.root.at? names with
    | none =>
      rw [hat] at h
      cases h
    | some node =>
      rw [hat] at h
      cases h
      rfl

/-- A separator at the end of a path leads nowhere else. -/
theorem follow_closed {names : List String} (h : t.follow place [[]] = .ok names) :
    names = place := by
  simp only [follow] at h
  split at h
  · simpa [Path.component?, follow] using h.symm
  · cases h

theorem start_join (hp : p.text ≠ "") (hq : q.isAbsolute = false) :
    t.start (p.join q) = t.start p := by
  have hne : p.text.toList ≠ [] := by simpa using hp
  obtain ⟨c, cs, hcs⟩ := List.exists_cons_of_ne_nil hne
  have habsolute : (p.join q).isAbsolute = p.isAbsolute := by
    rw [Path.isAbsolute, Path.isAbsolute, text_join hp hq, hcs]
    split <;> rfl
  rw [start, start, habsolute]

/-- A path joined to one that leads to a place is followed from there. -/
theorem locate_join {l : Located} (h : t.locate p = .ok l) (hq : q.isAbsolute = false) :
    t.locate (p.join q) = t.locateFrom l.names (piecesOf q) := by
  have hp := text_ne_empty h
  have hfollow := follow_of_locate h
  have hpieces : t.follow (t.start p) (piecesOf (p.join q)) = t.follow l.names (piecesOf q) := by
    rw [piecesOf, text_join hp hq]
    split
    · next hlast =>
      -- The last, empty piece of `p` is not there when another piece follows.
      obtain ⟨front, hfront⟩ := List.getLast?_eq_some_iff.mp hlast
      rw [piecesOf, hfront, splitAt_append_separator, follow_append] at hfollow
      rw [hfront, List.append_assoc, List.singleton_append, splitAt_append_separator, follow_append]
      cases hmiddle : t.follow (t.start p) (Text.splitAt '/' front) with
      | error e =>
        rw [hmiddle] at hfollow
        cases hfollow
      | ok names =>
        rw [hmiddle] at hfollow
        rw [follow_closed hfollow]
        rfl
    · rw [splitAt_append_separator, follow_append]
      have hfollow : t.follow (t.start p) (Text.splitAt '/' p.text.toList) = .ok l.names := hfollow
      rw [hfollow]
      rfl
  have hjoin : (p.join q).text ≠ "" := by
    intro hempty
    have htext := text_join hp hq
    rw [hempty] at htext
    split at htext <;> simp_all
  rw [locate_eq hjoin, start_join hp hq, locateFrom, locateFrom, hpieces]

/-- What is below a directory under names is found by a path made of them. -/
theorem locate_join_names (h : t.locate p = .ok ⟨place, n⟩)
    (hne : rel ≠ []) (hnames : ∀ name ∈ rel, isName name = true) {l : Located} :
    t.locate (p.join ⟨"/".intercalate rel⟩) = .ok l ↔
      l.names = place ++ rel ∧ n.at? rel = some l.node := by
  rw [locate_join h (isAbsolute_intercalate hne hnames), piecesOf_intercalate hne hnames,
    locateFrom_names (at?_of_locate h) hnames]

theorem text_eq_ok {s : String} : t.text p = .ok s ↔
    ∃ names content, t.locate p = .ok ⟨names, .file content⟩ ∧ Text.ofBytes? content = some s := by
  rw [text, bytes]
  cases t.locate p with
  | error e => simp
  | ok l =>
    obtain ⟨names, node⟩ := l
    cases node with
    | directory entries => simp
    | file content => cases hs : Text.ofBytes? content <;> simp [hs]

theorem text_of_locate {s : String} (h : t.locate p = .ok ⟨names, .file (Text.toBytes s)⟩) :
    t.text p = .ok s := by
  simp [text, bytes, h]

/-- A text below a directory under names is read by a path made of them. -/
theorem text_join_names (h : t.locate p = .ok ⟨place, n⟩) (hne : rel ≠ [])
    (hnames : ∀ name ∈ rel, isName name = true) {s : String}
    (hat : n.at? rel = some (.file (Text.toBytes s))) :
    t.text (p.join ⟨"/".intercalate rel⟩) = .ok s := by
  have hlocate : t.locate (p.join ⟨"/".intercalate rel⟩) =
      .ok ⟨place ++ rel, Node.file (Text.toBytes s)⟩ :=
    (locate_join_names h hne hnames).mpr ⟨rfl, hat⟩
  exact text_of_locate hlocate

/-- Two paths in two trees lead to one and the same node, wherever it is. -/
def SameNode (t t' : Tree) (p p' : Path) : Prop :=
  ∃ place place' n, t.locate p = .ok ⟨place, n⟩ ∧ t'.locate p' = .ok ⟨place', n⟩

/-! ## Components -/

/-- Where a component leads from a place, if it leads anywhere. -/
def move (place : List String) : Component → List String
  | .root => []
  | .current => place
  | .parent => place.dropLast
  | .normal name => place ++ [name]

theorem component?_cases (piece : List Char) : Path.component? piece = none ∨
    Path.component? piece = some .parent ∨
    ∃ name, Path.component? piece = some (.normal name) := by
  unfold Path.component?
  split
  · exact .inl rfl
  · split
    · exact .inr (.inl rfl)
    · exact .inr (.inr ⟨_, rfl⟩)

/-- Where a path leads depends on its components only. -/
theorem follow_eq_ok {pieces : List (List Char)} {names : List String}
    (h : t.follow place pieces = .ok names) :
    names = (pieces.filterMap Path.component?).foldl move place := by
  induction pieces generalizing place with
  | nil => exact (Except.ok.inj h).symm
  | cons piece rest ih =>
    rw [follow] at h
    split at h
    · rw [List.filterMap_cons]
      rcases component?_cases piece with hc | hc | ⟨name, hc⟩
      · rw [hc] at h ⊢
        exact ih h
      · rw [hc] at h ⊢
        exact ih h
      · rw [hc] at h ⊢
        dsimp only at h
        split at h
        · exact ih h
        · cases h
    · cases h

/-- The place that a path leads to depends on its components alone. -/
theorem names_of_locate {l : Located} (h : t.locate p = .ok l) :
    l.names = p.components.foldl move t.current := by
  have hfollow := follow_eq_ok (follow_of_locate h)
  rw [hfollow, Path.components, Path.pieces, piecesOf, start]
  cases hpieces : Text.splitAt '/' p.text.toList with
  | nil =>
    have hne : Text.splitAt '/' p.text.toList ≠ [] := Text.splitAt_ne_nil _ _
    exact absurd hpieces hne
  | cons first others =>
    cases habsolute : p.isAbsolute with
    | true =>
      obtain ⟨cs, hcs⟩ := List.head?_eq_some_iff.mp (of_decide_eq_true habsolute)
      rw [hcs, Text.splitAt, if_pos rfl] at hpieces
      rw [← (List.cons.inj hpieces).1]
      rfl
    | false =>
      rw [List.filterMap_cons]
      by_cases hdot : first = ['.']
      · rw [hdot]
        rfl
      · simp only [Path.leading?, if_neg hdot, Bool.false_eq_true, ↓reduceIte]
        cases Path.component? first <;> rfl

end Tree

end FlowLint.Files

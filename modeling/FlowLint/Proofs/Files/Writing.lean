import FlowLint.Proofs.Files.Places

/-!
# Trees after a file was written

A file that was written is read back by the path it was written to. Every path that led somewhere
leads there still, and what is found there is as it was unless the file lies in it or is it. What a
path leads to that led nowhere before is not said here, and of failed writing nothing.
-/

namespace FlowLint.Files

variable {entries : List (String × Node)} {name other : String} {names rest place : List String}
  {n m new : Node} {t t' : Tree} {p : Path} {content : List UInt8}

/-! ## Putting a node -/

@[simp]
theorem named?_cons (key : String) (n : Node) (entries : List (String × Node)) (other : String) :
    named? ((key, n) :: entries) other = if key = other then some n else named? entries other := by
  rw [named?, List.find?_cons]
  by_cases h : key = other <;> simp [h, named?]

/-- Putting an entry replaces the one with its name and no other. -/
@[simp] theorem named?_putEntry (name other : String) (n : Node) (entries : List (String × Node)) :
    named? (putEntry name n entries) other =
      if name = other then some n else named? entries other := by
  induction entries with
  | nil => exact named?_cons name n [] other
  | cons e rest ih =>
    obtain ⟨key, m⟩ := e
    rw [putEntry]
    split
    · exact named?_cons name n _ other
    · split
      · next h =>
        rw [named?_cons, named?_cons, h]
        split <;> rfl
      · next h =>
        rw [named?_cons, named?_cons, ih]
        by_cases hkey : key = other
        · rw [if_pos hkey, if_pos hkey, if_neg fun hname => h (hname.trans hkey.symm)]
        · rw [if_neg hkey, if_neg hkey]

namespace Node

/-- There is a directory only in a directory. -/
theorem eq_directory_of_at? (h : n.at? names = some (directory entries)) :
    ∃ es, n = directory es := by
  cases n with
  | directory es => exact ⟨es, rfl⟩
  | file content =>
    cases names with
    | nil =>
      rw [at?_nil] at h
      cases h
    | cons name names =>
      rw [at?_file] at h
      cases h

theorem getD_at?_empty (names : List String) :
    ((directory []).at? names).getD (directory []) = directory [] := by
  cases names with
  | nil => rw [at?_nil]; rfl
  | cons name names => rw [at?_directory]; rfl

/-- On the way to its place a node is put into what was there. -/
theorem at?_put_append (new n : Node) (names rest : List String) :
    (put new n (names ++ rest)).at? names =
      some (put new ((n.at? names).getD (directory [])) rest) := by
  induction names generalizing n with
  | nil => rw [at?_nil, at?_nil]; rfl
  | cons name names ih =>
    cases n with
    | file content =>
      have hnone : (file content).at? (name :: names) = none := at?_file ..
      rw [List.cons_append, put, at?_directory, named?_cons, if_pos rfl, Option.bind_some, ih,
        getD_at?_empty, hnone]
      rfl
    | directory entries =>
      rw [List.cons_append, put, at?_directory, named?_putEntry, if_pos rfl, Option.bind_some, ih,
        at?_directory]
      cases named? entries name with
      | none => rw [Option.getD_none, getD_at?_empty]; rfl
      | some child => rfl

@[simp]
theorem at?_put (new n : Node) (place : List String) : (put new n place).at? place = some new := by
  have hput := at?_put_append new n place []
  rwa [List.append_nil, put] at hput

/-- Nothing changes at a place that is not on the way to where a node is put, nor below it. -/
theorem at?_put_other (hup : ¬ names <+: place) (hdown : ¬ place <+: names) :
    (put new n place).at? names = n.at? names := by
  induction place generalizing n names with
  | nil => exact absurd List.nil_prefix hdown
  | cons name place ih =>
    cases names with
    | nil => exact absurd List.nil_prefix hup
    | cons other names =>
      by_cases hother : name = other
      · subst hother
        rw [List.prefix_cons_inj] at hup hdown
        cases n with
        | file content =>
          rw [put, at?_directory, named?_cons, if_pos rfl, Option.bind_some, ih hup hdown, at?]
          cases names with
          | nil => exact absurd List.nil_prefix hup
          | cons next names => rw [at?_directory]; rfl
        | directory entries =>
          rw [put, at?_directory, named?_putEntry, if_pos rfl, Option.bind_some, ih hup hdown,
            at?_directory]
          cases named? entries name with
          | none =>
            cases names with
            | nil => exact absurd List.nil_prefix hup
            | cons next names => rw [Option.getD_none, at?_directory]; rfl
          | some child => rfl
      · cases n with
        | file content =>
          rw [put, at?_directory, named?_cons, if_neg hother, at?]
          rfl
        | directory entries =>
          simp [put, hother]

end Node

/-! ## Writing a file -/

/-- A tree is as it was but for a file at a place, where there was no directory: directories on the
way to it have been there and lose nothing, and what is not on the way is as before. -/
structure Wrote (t t' : Tree) (place : List String) (content : List UInt8) : Prop where
  current : t'.current = t.current
  there : t'.root.at? place = some (.file content)
  free : ∀ entries, t.root.at? place ≠ some (.directory entries)
  elsewhere : ∀ names, ¬ names <+: place → t'.root.at? names = t.root.at? names
  above : ∀ names, names <+: place → names ≠ place → ∃ entries entries',
    t.root.at? names = some (.directory entries) ∧ t'.root.at? names = some (.directory entries') ∧
      ∀ name, (named? entries name).isSome → (named? entries' name).isSome

/-- Below an entry of a directory, a place is one in the entry's node. -/
theorem at?_below_entry (hdir : t.root.at? names = some (.directory entries))
    (more : List String) :
    t.root.at? (names ++ [name] ++ more) = (named? entries name).bind (·.at? more) := by
  simp [Node.at?_append, hdir]

/-- Below a file that is put there is nothing, and there was nothing. -/
theorem at?_put_below (hdir : t.root.at? names = some (.directory entries))
    (hfree : ∀ es, named? entries name ≠ some (.directory es)) {more : List String}
    (hmore : more ≠ []) : (t.put (names ++ [name]) (.file content)).root.at?
      (names ++ [name] ++ more) = t.root.at? (names ++ [name] ++ more) := by
  obtain ⟨next, more, rfl⟩ := List.exists_cons_of_ne_nil hmore
  rw [at?_below_entry hdir, Tree.put, Node.at?_append, Node.at?_put, Option.bind_some,
    Node.at?_file]
  cases hnamed : named? entries name with
  | none => rfl
  | some n =>
    cases n with
    | file content => exact (Node.at?_file ..).symm
    | directory es => exact absurd hnamed (hfree es)

/-- On the way to a file that is put there are directories, which keep their names. -/
theorem at?_put_above {above rest : List String}
    (hdir : t.root.at? (above ++ rest) = some (.directory entries)) :
    ∃ es es', t.root.at? above = some (.directory es) ∧
      (t.put (above ++ rest ++ [name]) (.file content)).root.at? above = some (.directory es') ∧
      ∀ other, (named? es other).isSome → (named? es' other).isSome := by
  rw [Node.at?_append] at hdir
  obtain ⟨n, hn, hrest⟩ := Option.bind_eq_some_iff.mp hdir
  obtain ⟨es, rfl⟩ := Node.eq_directory_of_at? hrest
  obtain ⟨key, more, hmore⟩ : ∃ key more, rest ++ [name] = key :: more :=
    List.exists_cons_of_ne_nil (by simp)
  have hput := Node.at?_put_append (.file content) t.root above (rest ++ [name])
  rw [hn, Option.getD_some, hmore, Node.put, ← hmore, ← List.append_assoc] at hput
  refine ⟨es, _, hn, hput, fun other hother => ?_⟩
  rw [named?_putEntry]
  split
  · rfl
  · exact hother

/-- A file put into a directory, where there is none or another file. -/
theorem wrote_put (hdir : t.root.at? names = some (.directory entries))
    (hfree : ∀ es, named? entries name ≠ some (.directory es)) :
    Wrote t (t.put (names ++ [name]) (.file content)) (names ++ [name]) content := by
  refine ⟨rfl, Node.at?_put _ _ _, fun es hes => ?_, fun names' hup => ?_, fun names' hup hne => ?_⟩
  · have hplace : _ = (named? entries name).bind (·.at? []) := at?_below_entry hdir []
    rw [List.append_nil, hes] at hplace
    obtain ⟨n, hn, hat⟩ := Option.bind_eq_some_iff.mp hplace.symm
    rw [Node.at?_nil, Option.some.injEq] at hat
    exact absurd (hat ▸ hn) (hfree es)
  · by_cases hdown : names ++ [name] <+: names'
    · obtain ⟨more, rfl⟩ := hdown
      refine at?_put_below hdir hfree ?_
      rintro rfl
      rw [List.append_nil] at hup
      exact hup List.prefix_rfl
    · exact Node.at?_put_other hup hdown
  · obtain ⟨rest, rfl⟩ := (List.prefix_concat_iff.mp hup).resolve_left hne
    exact at?_put_above hdir

namespace Wrote

variable {l : Located} {pieces : List (List Char)} {start : List String}

/-- Where there was a directory there is one, with the same names and possibly more. -/
theorem directory (h : Wrote t t' place content)
    (hat : t.root.at? names = some (.directory entries)) :
    ∃ entries', t'.root.at? names = some (.directory entries') ∧
      ∀ name, (named? entries name).isSome → (named? entries' name).isSome := by
  by_cases hup : names <+: place
  · have hne : names ≠ place := by
      rintro rfl
      exact h.free entries hat
    obtain ⟨es, entries', hes, hentries', hnamed⟩ := h.above names hup hne
    cases hat.symm.trans hes
    exact ⟨entries', hentries', hnamed⟩
  · have hat' : t'.root.at? names = some (Node.directory entries) :=
      (h.elsewhere names hup).trans hat
    exact ⟨entries, hat', fun _ hname => hname⟩

/-- Paths that led somewhere before a write lead to the same place after it. -/
theorem follow (h : Wrote t t' place content) (hfollow : t.follow start pieces = .ok names) :
    t'.follow start pieces = .ok names := by
  induction pieces generalizing start with
  | nil => exact hfollow
  | cons piece rest ih =>
    rw [Tree.follow] at hfollow ⊢
    split at hfollow
    · next entries hat =>
      obtain ⟨entries', hat', hnamed⟩ := h.directory hat
      rw [hat']
      dsimp only
      split at hfollow
      · next name hname =>
        split at hfollow
        · next n hn =>
          obtain ⟨n', hn'⟩ := Option.isSome_iff_exists.mp (hnamed name (hn ▸ rfl))
          rw [hn']
          exact ih hfollow
        · cases hfollow
      · exact ih hfollow
      · exact ih hfollow
    · cases hfollow

theorem exists_at? (h : Wrote t t' place content) (hat : t.root.at? names = some n) :
    ∃ n', t'.root.at? names = some n' := by
  by_cases hup : names <+: place
  · obtain ⟨rest, rfl⟩ := hup
    have hthere := h.there
    rw [Node.at?_append] at hthere
    obtain ⟨n', hn', -⟩ := Option.bind_eq_some_iff.mp hthere
    exact ⟨n', hn'⟩
  · have hat' : t'.root.at? names = some n := (h.elsewhere names hup).trans hat
    exact ⟨n, hat'⟩

/-- A path leads where it led. -/
theorem locate (h : Wrote t t' place content) (hl : t.locate p = .ok l) :
    ∃ n, t'.locate p = .ok ⟨l.names, n⟩ ∧ (¬ l.names <+: place → n = l.node) := by
  obtain ⟨n, hn⟩ := h.exists_at? (Tree.at?_of_locate hl)
  have hstart : t'.start p = t.start p := by rw [Tree.start, Tree.start, h.current]
  have hfollow := h.follow (Tree.follow_of_locate hl)
  refine ⟨n, ?_, fun hup => ?_⟩
  · rw [Tree.locate_eq (Tree.text_ne_empty hl), Tree.locateFrom, hstart, hfollow]
    dsimp only
    rw [hn]
  · rw [h.elsewhere l.names hup, Tree.at?_of_locate hl] at hn
    exact (Option.some.inj hn).symm

/-- A file that is not the one written holds what it held. -/
theorem text (h : Wrote t t' place content) {s : String} (hs : t.text p = .ok s)
    (hne : ∀ n, t'.locate p ≠ .ok ⟨place, n⟩) : t'.text p = .ok s := by
  obtain ⟨names, old, hl, hold⟩ := Tree.text_eq_ok.mp hs
  obtain ⟨n, hn, hnode⟩ := h.locate hl
  have hup : ¬ names <+: place := by
    intro hup
    have hneq : names ≠ place := by
      rintro rfl
      exact hne n hn
    obtain ⟨es, -, hes, -⟩ := h.above names hup hneq
    cases hes.symm.trans (Tree.at?_of_locate hl)
  obtain rfl : n = .file old := hnode hup
  exact Tree.text_eq_ok.mpr ⟨names, old, hn, hold⟩

end Wrote

namespace Tree

/-- A path at whose end there can be a file ends in the file's name, in a directory. -/
theorem pieces_of_target (h : t.target p = .ok ⟨names, entries, some name, false⟩) :
    p.text ≠ "" ∧ t.root.at? names = some (.directory entries) ∧
      ∃ before piece, piecesOf p = before ++ [piece] ∧
        Path.component? piece = some (.normal name) ∧ t.follow (t.start p) before = .ok names := by
  rw [target] at h
  split at h
  · cases h
  · next hne =>
    dsimp only at h
    split at h
    · cases h
    · next reached hfollow =>
      split at h
      · next es hat =>
        simp only [Except.ok.injEq, Target.mk.injEq, decide_eq_false_iff_not, Nat.not_lt] at h
        obtain ⟨rfl, rfl, hname, hlength⟩ := h
        have hsuffix := List.dropWhile_suffix (l := (piecesOf p).reverse) (· = [])
        rw [hsuffix.eq_of_length_le hlength] at hname hfollow
        split at hname
        · next found hfound =>
          cases hname
          obtain ⟨piece, hpiece, hcomponent⟩ := Option.bind_eq_some_iff.mp hfound
          obtain ⟨rest, hrest⟩ := List.head?_eq_some_iff.mp hpiece
          rw [hrest] at hfollow
          exact ⟨hne, hat, rest.reverse, piece, by simpa using congrArg List.reverse hrest,
            hcomponent, hfollow⟩
        · cases hname
      · cases h

/-- A file that was written is found by the path it was written to. -/
theorem wrote_of_write (h : t.write p content = .ok t') : ∃ place, Wrote t t' place content ∧
    t'.locate p = .ok ⟨place, .file content⟩ := by
  rw [write] at h
  split at h
  · cases h
  · next names entries name htarget =>
    obtain ⟨hne, hat, before, piece, hpieces, hpiece, hfollow⟩ := pieces_of_target htarget
    have hfree : ∀ es, named? entries name ≠ some (.directory es) := by
      intro es hes
      rw [hes] at h
      cases h
    have hwrote : Wrote t t' (names ++ [name]) content := by
      split at h
      · cases h
      · cases h
        exact wrote_put hat hfree
    refine ⟨names ++ [name], hwrote, ?_⟩
    have hstart : t'.start p = t.start p := by rw [start, start, hwrote.current]
    have hfollow' : t'.follow (t.start p) (piecesOf p) = .ok (names ++ [name]) := by
      obtain ⟨entries', hat', -⟩ := hwrote.directory hat
      have hthere := hwrote.there
      rw [Node.at?_append, hat', Option.bind_some, Node.at?_directory] at hthere
      obtain ⟨n, hn, -⟩ := Option.bind_eq_some_iff.mp hthere
      rw [hpieces, follow_append, hwrote.follow hfollow]
      simp only [bind, Except.bind, follow, hat', hpiece, hn]
    rw [locate_eq hne, locateFrom, hstart, hfollow']
    dsimp only
    rw [hwrote.there]
  · cases h

/-- A text that was written is read back. -/
theorem text_of_write {s : String} (h : t.write p (Text.toBytes s) = .ok t') :
    t'.text p = .ok s := by
  obtain ⟨place, -, hl⟩ := wrote_of_write h
  exact text_of_locate hl

end Tree

end FlowLint.Files

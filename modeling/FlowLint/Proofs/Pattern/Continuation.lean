import FlowLint.Pattern.Escape
import Mathlib.Data.List.Basic

/-!
# Texts that go on

A naming scheme puts `)$` after the text of a pattern. Whatever the text is read with then finds
more text than its own, and what it finds there is of three kinds. As a rule it stops where it
stopped before, with the two characters still to come. A comment that is open at the end of the
text swallows them, which leaves nothing in either case. And where the text was cut short, the
parenthesis may make up for what is missing, as an escaped character for instance; then it is no
longer there to close a group. `Follows` says this of one reader, and also that what is left of a
text is never longer than the text.
-/

namespace FlowLint.Pattern

/-- What is put after the text of a pattern. -/
def closing : List Char := [')', '$']

/-- A text, or rest of a text, that goes on with the closing characters, or is the same. -/
def Continued (cs cs' : List Char) : Prop :=
  cs' = cs ++ closing ∨ cs' = cs

/-- What reading a text tells of reading it as it goes on: the same is read and the rest goes on,
or what is read although nothing was read before is of a kind that leads nowhere. -/
def Follows {α : Type} (n : Nat) (stuck : α → List Char → Prop)
    (r r' : Except Error (α × List Char)) : Prop :=
  match r with
  | .ok (x, rest) => ∃ rest', r' = .ok (x, rest') ∧ Continued rest rest' ∧ rest.length ≤ n
  | .error _ => ∀ x rest', r' = .ok (x, rest') → stuck x rest'

/-- Nothing is read that was not read before. -/
def never {α : Type} : α → List Char → Prop := fun _ _ => False

variable {α β : Type} {n m : Nat} {flags : Flags} {c : Char} {cs cs' rest rest' : List Char}

theorem Continued.refl (cs : List Char) : Continued cs cs := .inr rfl

theorem Continued.nil (h : Continued [] cs') : cs' = closing ∨ cs' = [] := h

/-- A continuation starts where the text starts. -/
theorem Continued.cons (h : Continued (c :: cs) cs') :
    ∃ more, cs' = c :: more ∧ Continued cs more := by
  rcases h with rfl | rfl
  · exact ⟨cs ++ closing, rfl, .inl rfl⟩
  · exact ⟨cs, rfl, .inr rfl⟩

theorem Continued.push (c : Char) (h : Continued cs cs') : Continued (c :: cs) (c :: cs') := by
  rcases h with rfl | rfl
  · exact .inl rfl
  · exact .inr rfl

theorem Continued.head?_eq_some {x : Char} (hx : x ∉ closing) (h : Continued cs cs') :
    cs'.head? = some x ↔ cs.head? = some x := by
  cases cs with
  | nil =>
    rcases h.nil with rfl | rfl
    · have hne : ')' ≠ x := fun heq => hx (heq ▸ List.mem_cons_self)
      simpa [closing] using hne
    · exact Iff.rfl
  | cons c cs =>
    obtain ⟨more, rfl, -⟩ := h.cons
    exact Iff.rfl

/-- Two readings of a text and of the text as it goes on, each with fuel for every character: what
holds at the end of the text, whatever fuel is left, and of a character if it holds of all that may
be left behind it, holds of both. -/
theorem continued_induction {motive : Nat → Nat → List Char → List Char → Prop}
    (done : ∀ fuel fuel' cs', cs' = closing ∨ cs' = [] → motive fuel fuel' [] cs')
    (step : ∀ fuel fuel' c cs cs', Continued cs cs' →
      (∀ {rest rest'}, Continued rest rest' → rest.length ≤ cs.length →
        rest'.length ≤ cs'.length → motive fuel fuel' rest rest') →
      motive (fuel + 1) (fuel' + 1) (c :: cs) (c :: cs'))
    {fuel fuel' : Nat} (hfuel : cs.length ≤ fuel) (hfuel' : cs'.length ≤ fuel')
    (h : Continued cs cs') : motive fuel fuel' cs cs' := by
  induction fuel generalizing cs cs' fuel' with
  | zero =>
    obtain rfl := List.length_eq_zero_iff.mp (Nat.le_zero.mp hfuel)
    exact done 0 fuel' cs' h.nil
  | succ fuel ih =>
    cases cs with
    | nil => exact done (fuel + 1) fuel' cs' h.nil
    | cons c cs =>
      obtain ⟨more, rfl, hmore⟩ := h.cons
      simp only [List.length_cons] at hfuel hfuel'
      obtain ⟨fuel', rfl⟩ : ∃ k, fuel' = k + 1 := ⟨fuel' - 1, by omega⟩
      exact step fuel fuel' c cs more hmore fun hrest hle hle' => ih (by omega) (by omega) hrest

/-! ## Readers one after the other -/

/-- One reader and then another on what is left. -/
def andThen (r : Except Error (α × List Char))
    (f : α → List Char → Except Error (β × List Char)) : Except Error (β × List Char) :=
  match r with
  | .error e => .error e
  | .ok (x, rest) => f x rest

section

variable {stuck : α → List Char → Prop} {stuck' : β → List Char → Prop}
  {r r' : Except Error (α × List Char)}

theorem follows_ok {x : α} (h : Continued rest rest') (hn : rest.length ≤ n) :
    Follows n stuck (.ok (x, rest)) (.ok (x, rest')) :=
  ⟨rest', rfl, h, hn⟩

theorem follows_error {e e' : Error} : Follows n stuck (.error e) (.error e') := by
  intro x rest' h
  cases h

theorem follows_stuck {e : Error} {x : α} (h : stuck x rest') :
    Follows n stuck (.error e) (.ok (x, rest')) := by
  intro y rest hy
  obtain ⟨rfl, rfl⟩ := Prod.mk.inj (Except.ok.inj hy)
  exact h

theorem Follows.of_ok {x : α} (h : Follows n stuck r r') (hr : r = .ok (x, rest)) :
    ∃ rest', r' = .ok (x, rest') ∧ Continued rest rest' ∧ rest.length ≤ n := by
  subst hr
  exact h

theorem Follows.of_error {e : Error} {x : α} (h : Follows n stuck r r') (hr : r = .error e)
    (hr' : r' = .ok (x, rest')) : stuck x rest' := by
  subst hr
  exact h x rest' hr'

/-- A text goes on as itself, so what is left of it is no longer than it is. -/
theorem Follows.length_le {x : α} (h : Follows n stuck r r) (hr : r = .ok (x, rest)) :
    rest.length ≤ n := by
  obtain ⟨-, -, -, hle⟩ := h.of_ok hr
  exact hle

theorem Follows.mono (h : Follows n stuck r r') (hn : n ≤ m) : Follows m stuck r r' := by
  cases r with
  | error e => exact h
  | ok a =>
    obtain ⟨rest', hr', hrest, hlen⟩ := h
    exact ⟨rest', hr', hrest, by omega⟩

/-- The second reader has to be followed only where the first has got. -/
theorem Follows.andThen_of {f f' : α → List Char → Except Error (β × List Char)}
    (h : Follows n stuck r r')
    (hf : ∀ x rest rest', r = .ok (x, rest) → r' = .ok (x, rest') → Continued rest rest' →
      Follows m stuck' (f x rest) (f' x rest'))
    (hstuck : ∀ x rest' y rest'', stuck x rest' → f' x rest' = .ok (y, rest'') →
      stuck' y rest'') : Follows m stuck' (andThen r f) (andThen r' f') := by
  cases hr : r with
  | ok a =>
    obtain ⟨x, rest⟩ := a
    obtain ⟨rest', hr', hrest, -⟩ := h.of_ok hr
    rw [hr']
    exact hf x rest rest' hr hr' hrest
  | error e =>
    cases hr' : r' with
    | error e' => exact follows_error
    | ok a =>
      obtain ⟨x, rest'⟩ := a
      exact fun y rest'' hy => hstuck x rest' y rest'' (h.of_error hr hr') hy

/-- Readers that are followed one by one are followed in a row. -/
theorem Follows.andThen {f f' : α → List Char → Except Error (β × List Char)}
    (h : Follows n stuck r r')
    (hf : ∀ x rest rest', Continued rest rest' → rest.length ≤ n →
      Follows n stuck' (f x rest) (f' x rest'))
    (hstuck : ∀ x rest' y rest'', stuck x rest' → f' x rest' = .ok (y, rest'') →
      stuck' y rest'') : Follows n stuck' (andThen r f) (andThen r' f') := by
  refine h.andThen_of (fun x rest rest' hr _ hrest => ?_) hstuck
  obtain ⟨-, -, -, hlen⟩ := h.of_ok hr
  exact hf x rest rest' hrest hlen

/-- What is read is put into another form. -/
theorem Follows.map {f : α × List Char → β × List Char} (h : Follows n stuck r r')
    (hf : ∀ x rest, (f (x, rest)).2 = rest)
    (hvalue : ∀ x rest rest', (f (x, rest)).1 = (f (x, rest')).1)
    (hstuck : ∀ x rest', stuck x rest' → stuck' (f (x, rest')).1 rest') :
    Follows n stuck' (r.map f) (r'.map f) := by
  have hsame : ∀ x rest rest', f (x, rest') = ((f (x, rest)).1, rest') := fun x rest rest' =>
    Prod.ext (hvalue x rest' rest) (hf x rest')
  cases hr : r with
  | ok a =>
    obtain ⟨x, rest⟩ := a
    obtain ⟨rest', rfl, hrest, hlen⟩ := h.of_ok hr
    simp only [Except.map]
    rw [hsame x rest rest', hsame x rest rest]
    exact follows_ok hrest hlen
  | error e =>
    cases hr' : r' with
    | error e' => exact follows_error
    | ok a =>
      obtain ⟨x, rest'⟩ := a
      simp only [Except.map]
      rw [hsame x rest' rest']
      have hstuck' : stuck' (f (x, rest')).1 rest' := hstuck x rest' (h.of_error hr hr')
      exact follows_stuck hstuck'

end

/-- A result that does not depend on the text, before a rest that does. -/
theorem follows_map_pair {stuck : β → List Char → Prop} (x : Except Error α) (f : α → β)
    (h : Continued rest rest') (hn : rest.length ≤ n) :
    Follows n stuck (x.map fun a => (f a, rest)) (x.map fun a => (f a, rest')) := by
  cases x with
  | error e => exact follows_error
  | ok a => exact follows_ok h hn

/-- The same is read in both texts, and the rest goes on. -/
def FollowsPair {α : Type} (n : Nat) (r r' : α × List Char) : Prop :=
  ∃ x rest rest', r = (x, rest) ∧ r' = (x, rest') ∧ Continued rest rest' ∧ rest.length ≤ n

theorem followsPair {x : α} (h : Continued rest rest') (hn : rest.length ≤ n) :
    FollowsPair n (x, rest) (x, rest') :=
  ⟨x, rest, rest', rfl, rfl, h, hn⟩

theorem FollowsPair.mono {r r' : α × List Char} (h : FollowsPair n r r') (hn : n ≤ m) :
    FollowsPair m r r' := by
  obtain ⟨x, rest, rest', hr, hr', hcont, hlen⟩ := h
  exact ⟨x, rest, rest', hr, hr', hcont, by omega⟩

/-! ## What says nothing -/

theorem dropBlanks_continued (h : Continued cs cs') :
    Continued (cs.dropWhile Text.isBlank) (cs'.dropWhile Text.isBlank) := by
  rcases h with rfl | rfl
  · induction cs with
    | nil => exact .inl rfl
    | cons c cs ih =>
      rw [List.cons_append, List.dropWhile_cons, List.dropWhile_cons]
      split
      · exact ih
      · exact .inl rfl
  · exact .refl _

theorem dropComment_continued (h : Continued cs cs') :
    Continued (dropComment cs) (dropComment cs') := by
  rcases h with rfl | rfl
  · induction cs with
    | nil => exact .inr rfl
    | cons c cs ih =>
      by_cases hc : c = '\n'
      · subst hc
        exact .inl rfl
      · have hdrop : ∀ more : List Char, dropComment (c :: more) = dropComment more := by
          intro more
          rw [dropComment, dropComment, List.dropWhile_cons_of_pos (by simpa using hc)]
        rw [List.cons_append, hdrop, hdrop]
        exact ih
  · exact .refl _

theorem length_dropComment_le (cs : List Char) : (dropComment cs).length ≤ cs.length := by
  have h := (List.dropWhile_sublist (l := cs) (· ≠ '\n')).length_le
  rw [dropComment, List.length_drop]
  omega

theorem length_dropSpaceFrom_le (fuel : Nat) (cs : List Char) :
    (dropSpaceFrom fuel cs).length ≤ cs.length := by
  fun_induction dropSpaceFrom fuel cs with
  | case1 => exact Nat.le_refl _
  | case2 => exact Nat.le_refl _
  | case3 fuel c cs hblank ih => exact Nat.le_succ_of_le ih
  | case4 fuel cs hblank ih =>
    have hle : (dropSpaceFrom fuel (dropComment cs)).length ≤ cs.length :=
      Nat.le_trans ih (length_dropComment_le cs)
    exact Nat.le_succ_of_le hle
  | case5 => exact Nat.le_refl _

theorem length_dropSpace_le (flags : Flags) (cs : List Char) :
    (dropSpace flags cs).length ≤ cs.length := by
  unfold dropSpace
  split
  · exact length_dropSpaceFrom_le _ cs
  · exact Nat.le_refl _

@[simp] theorem dropSpaceFrom_closing (fuel : Nat) : dropSpaceFrom fuel closing = closing := by
  cases fuel <;> rfl

@[simp] theorem dropSpace_closing (flags : Flags) : dropSpace flags closing = closing := by
  unfold dropSpace
  split
  · exact dropSpaceFrom_closing _
  · rfl

theorem dropSpaceFrom_continued {fuel fuel' : Nat} (hfuel : cs.length ≤ fuel)
    (hfuel' : cs'.length ≤ fuel') (h : Continued cs cs') :
    Continued (dropSpaceFrom fuel cs) (dropSpaceFrom fuel' cs') := by
  refine continued_induction (motive := fun fuel fuel' cs cs' =>
    Continued (dropSpaceFrom fuel cs) (dropSpaceFrom fuel' cs')) ?_ ?_ hfuel hfuel' h
  · intro fuel fuel' cs' hcs'
    have hnil : ∀ fuel, dropSpaceFrom fuel [] = [] := by
      intro fuel
      cases fuel <;> rfl
    rcases hcs' with rfl | rfl
    · rw [hnil, dropSpaceFrom_closing]
      exact .inl rfl
    · rw [hnil, hnil]
      exact .refl []
  · intro fuel fuel' c cs more hmore ih
    simp only [dropSpaceFrom]
    split
    · exact ih hmore (Nat.le_refl _) (Nat.le_refl _)
    · split
      · have hcontinued : Continued (dropComment cs) (dropComment more) :=
          dropComment_continued hmore
        have hle : (dropComment cs).length ≤ cs.length := length_dropComment_le cs
        have hlength : (dropComment more).length ≤ more.length :=
          length_dropComment_le more
        exact ih hcontinued hle hlength
      · exact hmore.push c

/-- Dropping blanks and comments leaves a continuation of what is left. -/
theorem dropSpace_continued (flags : Flags) (h : Continued cs cs') :
    Continued (dropSpace flags cs) (dropSpace flags cs') := by
  unfold dropSpace
  split
  · exact dropSpaceFrom_continued (Nat.le_refl _) (Nat.le_refl _) h
  · exact h

/-- A text of which something is left goes on behind its first character. -/
theorem dropSpace_cons (h : Continued cs cs') (hcs : dropSpace flags cs = c :: rest) :
    ∃ rest', dropSpace flags cs' = c :: rest' ∧ Continued rest rest' ∧
      rest.length + 1 ≤ cs.length := by
  have hlen := length_dropSpace_le flags cs
  have hcont := dropSpace_continued flags h
  rw [hcs] at hlen hcont
  obtain ⟨rest', hrest', hrest⟩ := hcont.cons
  exact ⟨rest', hrest', hrest, hlen⟩

/-- A text of which nothing is left ends there, or goes on with the closing characters. -/
theorem dropSpace_nil (h : Continued cs cs') (hcs : dropSpace flags cs = []) :
    dropSpace flags cs' = closing ∨ dropSpace flags cs' = [] := by
  have hcont := dropSpace_continued flags h
  rw [hcs] at hcont
  exact hcont.nil

/-! ## Escapes -/

theorem readHexDigits_follows (count : Nat) (read : List Char) (h : Continued cs cs') :
    Follows cs.length never (readHexDigits flags read count cs)
      (readHexDigits flags read count cs') := by
  induction count generalizing read cs cs' with
  | zero =>
    simp only [readHexDigits]
    exact follows_map_pair _ id h (Nat.le_refl _)
  | succ count ih =>
    cases cs with
    | nil =>
      rcases h.nil with rfl | rfl
      · exact follows_error
      · exact follows_error
    | cons c cs =>
      obtain ⟨more, rfl, hmore⟩ := h.cons
      simp only [readHexDigits]
      split
      · exact follows_error
      · have hcontinued : Continued (dropSpace flags cs) (dropSpace flags more) :=
          dropSpace_continued flags hmore
        have hle : (dropSpace flags cs).length ≤ cs.length.succ :=
          Nat.le_succ_of_le (length_dropSpace_le flags cs)
        exact (ih _ hcontinued).mono hle

theorem readHexBraced_follows {fuel fuel' : Nat} (read : List Char) (hfuel : cs.length ≤ fuel)
    (hfuel' : cs'.length ≤ fuel') (h : Continued cs cs') :
    Follows cs.length never (readHexBraced flags read fuel cs)
      (readHexBraced flags read fuel' cs') := by
  refine continued_induction (motive := fun fuel fuel' cs cs' => ∀ read,
    Follows cs.length never (readHexBraced flags read fuel cs)
      (readHexBraced flags read fuel' cs')) ?_ ?_ hfuel hfuel' h read
  · rintro fuel fuel' cs' (rfl | rfl) read
    · cases fuel <;> cases fuel' <;> exact follows_error
    · cases fuel <;> cases fuel' <;> exact follows_error
  · intro fuel fuel' c cs more hmore ih read
    have hrest := dropSpace_continued flags hmore
    have hlen := length_dropSpace_le flags cs
    simp only [readHexBraced]
    split
    · split
      · exact follows_error
      · exact follows_map_pair _ id hrest (Nat.le_succ_of_le hlen)
    · split
      · exact follows_error
      · have hle : (dropSpace flags more).length ≤ more.length := length_dropSpace_le flags more
        exact (ih hrest hlen hle _).mono (Nat.le_succ_of_le hlen)

theorem readHex_follows (letter : Char) (h : Continued cs cs') :
    Follows cs.length never (readHex flags letter cs) (readHex flags letter cs') := by
  unfold readHex
  cases hcs : dropSpace flags cs with
  | nil =>
    rcases dropSpace_nil h hcs with h' | h'
    · -- A parenthesis is no digit, and one digit at least is asked for.
      obtain ⟨k, hk⟩ : ∃ k,
          (if letter = 'x' then 2 else if letter = 'u' then 4 else 8) = k + 1 := by
        split
        · exact ⟨1, rfl⟩
        · split
          · exact ⟨3, rfl⟩
          · exact ⟨7, rfl⟩
      rw [h', hk]
      exact follows_error
    · rw [h']
      exact follows_error
  | cons c rest =>
    obtain ⟨rest', h', hrest, hlen⟩ := dropSpace_cons h hcs
    rw [h']
    dsimp only
    have hspace := length_dropSpace_le flags rest
    have hspace' := length_dropSpace_le flags rest'
    split
    · have hcontinued : Continued (dropSpace flags rest) (dropSpace flags rest') :=
        dropSpace_continued flags hrest
      exact (readHexBraced_follows [] (by omega) (by omega) hcontinued).mono (by omega)
    · have hcontinued : Continued (c :: rest) (c :: rest') := hrest.push c
      exact (readHexDigits_follows _ [] hcontinued).mono hlen

theorem dropSpace_plain (flags : Flags) (hblank : Text.isBlank c = false) (hc : c ≠ '#') :
    dropSpace flags (c :: cs) = c :: cs := by
  unfold dropSpace
  split
  · simp [dropSpaceFrom, hblank, hc]
  · rfl

@[simp] theorem dropSpace_dollar (flags : Flags) : dropSpace flags ['$'] = ['$'] :=
  dropSpace_plain flags rfl (by decide)

@[simp] theorem dropSpace_empty (flags : Flags) : dropSpace flags [] = [] := by
  unfold dropSpace
  split <;> rfl

/-- No brace closes the name in what follows the text. -/
theorem readPropertyName_closing (flags : Flags) (read : List Char) (fuel : Nat) :
    ∃ e, readPropertyName flags read fuel closing = .error e := by
  match fuel with
  | 0 => exact ⟨_, rfl⟩
  | 1 =>
    refine ⟨.unclosedEscape, ?_⟩
    have hstep : readPropertyName flags read 1 closing =
        readPropertyName flags (')' :: read) 0 (dropSpace flags ['$']) := rfl
    rw [hstep, dropSpace_dollar]
    rfl
  | fuel + 2 =>
    refine ⟨.unclosedEscape, ?_⟩
    have hstep : readPropertyName flags read (fuel + 2) closing =
        readPropertyName flags (')' :: read) (fuel + 1) (dropSpace flags ['$']) := rfl
    have hlast : readPropertyName flags (')' :: read) (fuel + 1) ['$'] =
        readPropertyName flags ('$' :: ')' :: read) fuel (dropSpace flags []) := rfl
    rw [hstep, dropSpace_dollar, hlast, dropSpace_empty]
    cases fuel <;> rfl

theorem readPropertyName_follows {fuel fuel' : Nat} (read : List Char) (hfuel : cs.length ≤ fuel)
    (hfuel' : cs'.length ≤ fuel') (h : Continued cs cs') :
    Follows cs.length never (readPropertyName flags read fuel cs)
      (readPropertyName flags read fuel' cs') := by
  refine continued_induction (motive := fun fuel fuel' cs cs' => ∀ read,
    Follows cs.length never (readPropertyName flags read fuel cs)
      (readPropertyName flags read fuel' cs')) ?_ ?_ hfuel hfuel' h read
  · intro fuel fuel' cs' hcs' read
    have hnil : ∀ fuel, ∃ e, readPropertyName flags read fuel [] = .error e := by
      intro fuel
      cases fuel <;> exact ⟨_, rfl⟩
    obtain ⟨e, he⟩ := hnil fuel
    rcases hcs' with rfl | rfl
    · obtain ⟨e', he'⟩ := readPropertyName_closing flags read fuel'
      rw [he, he']
      exact follows_error
    · obtain ⟨e', he'⟩ := hnil fuel'
      rw [he, he']
      exact follows_error
  · intro fuel fuel' c cs more hmore ih read
    have hlen := length_dropSpace_le flags cs
    simp only [readPropertyName]
    split
    · exact follows_ok hmore (Nat.le_succ _)
    · have hcontinued : Continued (dropSpace flags cs) (dropSpace flags more) :=
        dropSpace_continued flags hmore
      have hle : (dropSpace flags more).length ≤ more.length := length_dropSpace_le flags more
      exact (ih hcontinued hlen hle _).mono (Nat.le_succ_of_le hlen)

/-- The set of a property by name. -/
def propertyNamed (flags : Flags) (negated : Bool) (name rest : List Char) :
    Except Error (CharSet × List Char) :=
  (property? name).map fun p =>
    (CharSet.negateIf negated (CharSet.anyCaseIf flags.caseless (.property p)), rest)

theorem readProperty_cons {negated : Bool} (h : dropSpace flags cs = c :: rest) :
    readProperty flags negated cs =
      if c = '\x7b' then
        andThen (readPropertyName flags [] (rest.length + 1) (dropSpace flags rest))
          (propertyNamed flags negated)
      else if c = '\\' then .error .badProperty
      else propertyNamed flags negated [c] (dropSpace flags rest) := by
  unfold readProperty
  rw [h]
  dsimp only
  split
  · cases readPropertyName flags [] (rest.length + 1) (dropSpace flags rest) <;> rfl
  · rfl

theorem readProperty_follows (negated : Bool) (h : Continued cs cs') :
    Follows cs.length never (readProperty flags negated cs) (readProperty flags negated cs') := by
  cases hcs : dropSpace flags cs with
  | nil =>
    unfold readProperty
    rcases dropSpace_nil h hcs with h' | h' <;> rw [hcs, h'] <;> exact follows_error
  | cons c rest =>
    obtain ⟨rest', h', hrest, hlen⟩ := dropSpace_cons h hcs
    have hspace := length_dropSpace_le flags rest
    have hspace' := length_dropSpace_le flags rest'
    rw [readProperty_cons hcs, readProperty_cons h']
    split
    · have hname : Follows (dropSpace flags rest).length never
          (readPropertyName flags [] (rest.length + 1) (dropSpace flags rest))
          (readPropertyName flags [] (rest'.length + 1) (dropSpace flags rest')) :=
        readPropertyName_follows [] (by omega) (by omega) (dropSpace_continued flags hrest)
      exact (hname.mono (by omega)).andThen
        (fun name _ _ hcont hle => follows_map_pair (property? name) _ hcont hle)
        fun _ _ _ _ hs _ => hs.elim
    · split
      · exact follows_error
      · have hcontinued : Continued (dropSpace flags rest) (dropSpace flags rest') :=
          dropSpace_continued flags hrest
        exact follows_map_pair _ _ hcontinued (by omega)

/-- A reader with fuel for each character collects the characters that are wanted, with the space
that the flags let stand behind each of them, and leaves the rest. -/
structure Collects (flags : Flags) (wanted : Char → Bool)
    (f : List Char → Nat → List Char → List Char × List Char) : Prop where
  nil : ∀ read fuel, f read fuel [] = (read.reverse, [])
  spent : ∀ read cs, f read 0 cs = (read.reverse, cs)
  cons : ∀ read fuel c cs, f read (fuel + 1) (c :: cs) =
    if wanted c then f (c :: read) fuel (dropSpace flags cs) else (read.reverse, c :: cs)

section Collects

variable {wanted : Char → Bool} {f : List Char → Nat → List Char → List Char × List Char}

/-- No closing parenthesis is collected. -/
theorem Collects.closing (hf : Collects flags wanted f) (hwanted : wanted ')' = false)
    (read : List Char) (fuel : Nat) : f read fuel closing = (read.reverse, closing) := by
  cases fuel with
  | zero => exact hf.spent read _
  | succ fuel => rw [Pattern.closing, hf.cons, hwanted, if_neg Bool.false_ne_true]

/-- The same characters are collected in a text that goes on. -/
theorem Collects.follows (hf : Collects flags wanted f) (hwanted : wanted ')' = false)
    {fuel fuel' : Nat} (read : List Char) (hfuel : cs.length ≤ fuel) (hfuel' : cs'.length ≤ fuel')
    (h : Continued cs cs') : FollowsPair cs.length (f read fuel cs) (f read fuel' cs') := by
  refine continued_induction (motive := fun fuel fuel' cs cs' => ∀ read,
    FollowsPair cs.length (f read fuel cs) (f read fuel' cs')) ?_ ?_ hfuel hfuel' h read
  · intro fuel fuel' cs' hcs' read
    rcases hcs' with rfl | rfl
    · rw [hf.nil, hf.closing hwanted]
      exact followsPair (.inl rfl) (Nat.le_refl _)
    · rw [hf.nil, hf.nil]
      exact followsPair (.refl []) (Nat.le_refl _)
  · intro fuel fuel' c cs more hmore ih read
    have hlen := length_dropSpace_le flags cs
    rw [hf.cons, hf.cons]
    split
    · have hcontinued : Continued (dropSpace flags cs) (dropSpace flags more) :=
        dropSpace_continued flags hmore
      have hle : (dropSpace flags more).length ≤ more.length := length_dropSpace_le flags more
      have hfollowsPair : FollowsPair (dropSpace flags cs).length
          (f (c :: read) fuel (dropSpace flags cs)) (f (c :: read) fuel' (dropSpace flags more)) :=
        ih hcontinued hlen hle _
      exact hfollowsPair.mono (Nat.le_succ_of_le hlen)
    · have hpush : Continued (c :: cs) (c :: more) := hmore.push c
      exact followsPair hpush (Nat.le_refl _)

end Collects

theorem collects_readBoundaryName (flags : Flags) :
    Collects flags isBoundaryLetter (readBoundaryName flags) where
  nil _ fuel := by cases fuel <;> rfl
  spent _ _ := rfl
  cons _ _ _ _ := rfl

/-- A boundary before a brace with which the text ends. The brace then stands alone. -/
def cutBoundary (flags : Flags) : Look → List Char → Prop := fun l rest =>
  l = .wordBoundary ∧ ∃ more, rest = '\x7b' :: more ∧ dropSpace flags more = closing

theorem readBoundary_plain (hc : c ≠ '\x7b') :
    readBoundary flags (c :: cs) = .ok (.wordBoundary, c :: cs) := by
  unfold readBoundary
  split
  · next heq => exact absurd (List.cons.inj heq).1 hc
  · rfl

theorem readBoundary_brace (h : dropSpace flags cs = c :: rest)
    (hc : isBoundaryLetter c = false) :
    readBoundary flags ('\x7b' :: cs) = .ok (.wordBoundary, '\x7b' :: cs) := by
  simp only [readBoundary, h, hc, Bool.not_false, if_true]

/-- The boundary with a name in braces, after the name. -/
def boundaryNamed (name cs : List Char) : Except Error (Look × List Char) :=
  match cs with
  | [] => .error .unclosedBoundary
  | c :: rest =>
    if c = '\x7d' then
      match boundaryNames.lookup (String.ofList name) with
      | some l => .ok (l, rest)
      | none => .error .unknownBoundary
    else .error .unclosedBoundary

theorem readBoundary_named {name last : List Char} (h : dropSpace flags cs = c :: rest)
    (hc : isBoundaryLetter c = true)
    (hname : readBoundaryName flags [] (rest.length + 1) (c :: rest) = (name, last)) :
    readBoundary flags ('\x7b' :: cs) = boundaryNamed name last := by
  simp only [readBoundary, h, hc, Bool.not_true, Bool.false_eq_true, if_false, hname]
  cases last with
  | nil => rfl
  | cons d last =>
    unfold boundaryNamed
    split
    · next heq =>
      obtain ⟨rfl, hlast⟩ := Prod.mk.inj heq
      obtain ⟨rfl, rfl⟩ := List.cons.inj hlast
      rfl
    · next hopen => exact (if_neg fun hd => hopen name last (by rw [hd])).symm

theorem boundaryNamed_follows {stuck : Look → List Char → Prop} (name : List Char)
    (h : Continued cs cs') :
    Follows cs.length stuck (boundaryNamed name cs) (boundaryNamed name cs') := by
  cases cs with
  | nil => rcases h.nil with rfl | rfl <;> exact follows_error
  | cons c cs =>
    obtain ⟨more, rfl, hmore⟩ := h.cons
    simp only [boundaryNamed]
    split
    · cases boundaryNames.lookup (String.ofList name) with
      | none => exact follows_error
      | some l => exact follows_ok hmore (Nat.le_succ _)
    · exact follows_error

/-- A boundary is read alike, unless its brace is cut off. -/
theorem readBoundary_follows (h : Continued cs cs') :
    Follows cs.length (cutBoundary flags) (readBoundary flags cs) (readBoundary flags cs') := by
  cases cs with
  | nil => rcases h.nil with rfl | rfl <;> exact follows_ok h (Nat.le_refl _)
  | cons c cs =>
    obtain ⟨more, rfl, hmore⟩ := h.cons
    by_cases hc : c = '\x7b'
    · subst hc
      cases hcs : dropSpace flags cs with
      | nil =>
        simp only [readBoundary, hcs]
        rcases dropSpace_nil hmore hcs with h' | h'
        · rw [h']
          exact follows_stuck ⟨rfl, more, rfl, h'⟩
        · rw [h']
          exact follows_error
      | cons d rest =>
        obtain ⟨rest', h', hrest, hlen⟩ := dropSpace_cons hmore hcs
        cases hd : isBoundaryLetter d with
        | false =>
          rw [readBoundary_brace hcs hd, readBoundary_brace h' hd]
          exact follows_ok h (Nat.le_refl _)
        | true =>
          have hname : FollowsPair (d :: rest).length
              (readBoundaryName flags [] (rest.length + 1) (d :: rest))
              (readBoundaryName flags [] (rest'.length + 1) (d :: rest')) :=
            (collects_readBoundaryName flags).follows rfl [] (Nat.le_refl _) (Nat.le_refl _)
              (hrest.push d)
          obtain ⟨name, last, last', hr, hr', hcont, hle⟩ := hname
          rw [readBoundary_named hcs hd hr, readBoundary_named h' hd hr']
          have hfollows : Follows last.length (cutBoundary flags) (boundaryNamed name last)
              (boundaryNamed name last') :=
            boundaryNamed_follows name hcont
          refine hfollows.mono ?_
          rw [List.length_cons] at hle ⊢
          omega
    · rw [readBoundary_plain hc, readBoundary_plain hc]
      exact follows_ok h (Nat.le_refl _)

/-- An escape at the end of a text: the closing parenthesis is taken for the character escaped,
or a boundary is read before a brace. -/
def cutEscape (flags : Flags) : Primitive → List Char → Prop := fun p rest =>
  p = .literal ')' ∧ rest = ['$'] ∨ ∃ l, p = .look l ∧ cutBoundary flags l rest

/-- An escape is read alike, unless it is cut off at its last character. -/
theorem readEscape_follows (h : Continued cs cs') :
    Follows cs.length (cutEscape flags) (readEscape flags cs) (readEscape flags cs') := by
  cases cs with
  | nil =>
    rcases h.nil with rfl | rfl
    · exact follows_stuck (.inl ⟨rfl, rfl⟩)
    · exact follows_error
  | cons c cs =>
    obtain ⟨more, rfl, hmore⟩ := h.cons
    have hlen : cs.length ≤ (c :: cs).length := Nat.le_succ _
    simp only [readEscape]
    split
    · exact follows_error
    · split
      · have hfollows : Follows cs.length never (readHex flags c cs) (readHex flags c more) :=
          readHex_follows c hmore
        exact (hfollows.map (fun _ _ => rfl) (fun _ _ _ => rfl) fun _ _ hs => hs.elim).mono hlen
      · split
        · exact ((readProperty_follows _ hmore).map (fun _ _ => rfl) (fun _ _ _ => rfl)
            fun _ _ hs => hs.elim).mono hlen
        · split
          · have hfollows : Follows cs.length (cutBoundary flags) (readBoundary flags cs)
                (readBoundary flags more) :=
              readBoundary_follows hmore
            exact (hfollows.map (fun _ _ => rfl) (fun _ _ _ => rfl)
              fun l _ hs => .inr ⟨l, rfl, hs⟩).mono hlen
          · split
            · exact follows_ok hmore hlen
            · exact follows_ok hmore hlen
            · exact follows_ok hmore hlen
            · split
              · exact follows_ok hmore hlen
              · exact follows_error

end FlowLint.Pattern

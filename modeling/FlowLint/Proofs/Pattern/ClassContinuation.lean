import FlowLint.Pattern.Class
import FlowLint.Proofs.Pattern.Continuation

/-!
# Classes in texts that go on

A class is closed by a bracket, and none of the closing characters is one. A class that is open at
the end of a text therefore stays open, whatever its items make of these characters, and the
closing parenthesis is not there for a group: `readClass` finds nothing that it did not find
before.
-/

namespace FlowLint.Pattern

variable {flags : Flags} {c x : Char} {cs cs' rest rest' : List Char}

/-! ## Named classes -/

/-- What comes before a character and what comes after it, if it is not one that closes. -/
theorem until_continued (hx : x ∉ closing) (h : Continued cs cs') :
    cs.dropWhile (· ≠ x) = [] ∧ cs'.dropWhile (· ≠ x) = [] ∨
      cs'.takeWhile (· ≠ x) = cs.takeWhile (· ≠ x) ∧ ∃ rest rest',
        cs.dropWhile (· ≠ x) = x :: rest ∧ cs'.dropWhile (· ≠ x) = x :: rest' ∧
        Continued rest rest' ∧ rest.length < cs.length := by
  induction cs generalizing cs' with
  | nil =>
    refine .inl ⟨rfl, ?_⟩
    rcases h.nil with rfl | rfl
    · simp only [closing, List.mem_cons, List.not_mem_nil, or_false, not_or] at hx
      simp [closing, Ne.symm hx.1, Ne.symm hx.2]
    · rfl
  | cons d cs ih =>
    obtain ⟨more, rfl, hmore⟩ := h.cons
    by_cases hd : d = x
    · subst hd
      exact .inr ⟨by simp, cs, more, by simp, by simp, hmore, Nat.lt_succ_self _⟩
    · have hdrop : ∀ cs : List Char, (d :: cs).dropWhile (· ≠ x) = cs.dropWhile (· ≠ x) :=
        fun cs => List.dropWhile_cons_of_pos (by simpa using hd)
      have htake : ∀ cs : List Char,
          (d :: cs).takeWhile (· ≠ x) = d :: cs.takeWhile (· ≠ x) :=
        fun cs => List.takeWhile_cons_of_pos (by simpa using hd)
      rw [hdrop, hdrop, htake, htake]
      rcases ih hmore with hnone | ⟨hsame, rest, rest', hr, hr', hcont, hlen⟩
      · exact .inl hnone
      · exact .inr ⟨by rw [hsame], rest, rest', hr, hr', hcont, Nat.lt_succ_of_lt hlen⟩

/-- A named set after its colon and the sign of negation. -/
def asciiNamed? (flags : Flags) (negated : Bool) (cs : List Char) : Option (CharSet × List Char) :=
  match cs.dropWhile (· ≠ ':'), asciiClasses.lookup (String.ofList (cs.takeWhile (· ≠ ':'))) with
  | ':' :: ']' :: rest, some s =>
    some (CharSet.negateIf negated (CharSet.anyCaseIf flags.caseless s), rest)
  | _, _ => none

/-- Either nothing is found or the same in both texts. -/
def FollowsOption {α : Type} (n : Nat) (r r' : Option (α × List Char)) : Prop :=
  r = none ∧ r' = none ∨
    ∃ x rest rest', r = some (x, rest) ∧ r' = some (x, rest') ∧ Continued rest rest' ∧
      rest.length ≤ n

theorem FollowsOption.length_le {α : Type} {n : Nat} {r : Option (α × List Char)} {x : α}
    (h : FollowsOption n r r) (hr : r = some (x, rest)) : rest.length ≤ n := by
  rcases h with ⟨hnone, -⟩ | ⟨y, more, -, hy, -, -, hlen⟩
  · rw [hnone] at hr
    cases hr
  · rw [hr] at hy
    obtain ⟨-, rfl⟩ := Prod.mk.inj (Option.some.inj hy)
    exact hlen

theorem FollowsOption.mono {α : Type} {n m : Nat} {r r' : Option (α × List Char)}
    (h : FollowsOption n r r') (hn : n ≤ m) : FollowsOption m r r' := by
  rcases h with hnone | ⟨x, rest, rest', hr, hr', hcont, hlen⟩
  · exact .inl hnone
  · exact .inr ⟨x, rest, rest', hr, hr', hcont, by omega⟩

theorem asciiNamed?_follows (negated : Bool) (h : Continued cs cs') :
    FollowsOption cs.length (asciiNamed? flags negated cs) (asciiNamed? flags negated cs') := by
  have hcolon : ':' ∉ closing := by decide
  unfold asciiNamed?
  rcases until_continued hcolon h with ⟨hr, hr'⟩ | ⟨htake, rest, rest', hr, hr', hcont, hlen⟩
  · rw [hr, hr']
    exact .inl ⟨rfl, rfl⟩
  · rw [hr, hr', htake]
    cases rest with
    | nil =>
      rcases hcont.nil with rfl | rfl
      · exact .inl ⟨rfl, rfl⟩
      · exact .inl ⟨rfl, rfl⟩
    | cons d rest =>
      obtain ⟨more, rfl, hmore⟩ := hcont.cons
      by_cases hd : d = ']'
      · subst hd
        cases asciiClasses.lookup (String.ofList (cs.takeWhile (· ≠ ':'))) with
        | none => exact .inl ⟨rfl, rfl⟩
        | some s =>
          rw [List.length_cons] at hlen
          exact .inr ⟨_, rest, more, rfl, rfl, hmore, by omega⟩
      · refine .inl ⟨?_, ?_⟩
        · split
          · next heq _ => exact absurd (List.cons.inj (List.cons.inj heq).2).1 hd
          · rfl
        · split
          · next heq _ => exact absurd (List.cons.inj (List.cons.inj heq).2).1 hd
          · rfl

/-- The sign of negation of a named set, and the text after it. -/
def nameSign (cs : List Char) : Bool × List Char :=
  match cs with
  | '^' :: more => (true, more)
  | more => (false, more)

@[simp] theorem readAscii?_colon (flags : Flags) (cs : List Char) :
    readAscii? flags (':' :: cs) = asciiNamed? flags (nameSign cs).1 (nameSign cs).2 := rfl

theorem nameSign_plain (hc : c ≠ '^') : nameSign (c :: cs) = (false, c :: cs) := by
  unfold nameSign
  split
  · next heq => exact absurd (List.cons.inj heq).1 hc
  · rfl

theorem nameSign_follows (h : Continued cs cs') :
    FollowsPair cs.length (nameSign cs) (nameSign cs') := by
  cases cs with
  | nil => rcases h.nil with rfl | rfl <;> exact followsPair h (Nat.le_refl _)
  | cons c cs =>
    obtain ⟨more, rfl, hmore⟩ := h.cons
    by_cases hc : c = '^'
    · subst hc
      exact followsPair hmore (Nat.le_succ _)
    · rw [nameSign_plain hc, nameSign_plain hc]
      exact followsPair h (Nat.le_refl _)

theorem readAscii?_plain (hc : c ≠ ':') : readAscii? flags (c :: cs) = none := by
  unfold readAscii?
  split
  · next heq => exact absurd (List.cons.inj heq).1 hc
  · rfl

theorem readAscii?_follows (h : Continued cs cs') :
    FollowsOption cs.length (readAscii? flags cs) (readAscii? flags cs') := by
  cases cs with
  | nil =>
    rcases h.nil with rfl | rfl
    · exact .inl ⟨rfl, rfl⟩
    · exact .inl ⟨rfl, rfl⟩
  | cons c cs =>
    obtain ⟨more, rfl, hmore⟩ := h.cons
    by_cases hc : c = ':'
    · subst hc
      obtain ⟨negated, rest, rest', hr, hr', hcont, hlen⟩ := nameSign_follows hmore
      rw [readAscii?_colon, readAscii?_colon, hr, hr']
      exact (asciiNamed?_follows negated hcont).mono (Nat.le_succ_of_le hlen)
    · exact .inl ⟨readAscii?_plain hc, readAscii?_plain hc⟩

/-! ## The beginning of a class -/

theorem dropHyphens_plain {fuel : Nat} (hc : c ≠ '-') :
    dropHyphens flags fuel (c :: cs) = (0, c :: cs) := by
  unfold dropHyphens
  split
  · next heq => exact absurd (List.cons.inj heq).1 hc
  · rfl

theorem dropHyphens_follows {fuel fuel' : Nat} (hfuel : cs.length ≤ fuel)
    (hfuel' : cs'.length ≤ fuel') (h : Continued cs cs') :
    FollowsPair cs.length (dropHyphens flags fuel cs) (dropHyphens flags fuel' cs') := by
  refine continued_induction (motive := fun fuel fuel' cs cs' =>
    FollowsPair cs.length (dropHyphens flags fuel cs) (dropHyphens flags fuel' cs')) ?_ ?_
    hfuel hfuel' h
  · intro fuel fuel' cs' hcs'
    have hnil : ∀ fuel, dropHyphens flags fuel [] = (0, []) := by
      intro fuel
      cases fuel <;> rfl
    rcases hcs' with rfl | rfl
    · have hclosing : dropHyphens flags fuel' closing = (0, closing) :=
        dropHyphens_plain (by decide)
      rw [hnil, hclosing]
      exact followsPair (.inl rfl) (Nat.le_refl _)
    · rw [hnil, hnil]
      exact followsPair (.refl []) (Nat.le_refl _)
  · intro fuel fuel' c cs more hmore ih
    by_cases hc : c = '-'
    · subst hc
      have hlen := length_dropSpace_le flags cs
      have hcontinued : Continued (dropSpace flags cs) (dropSpace flags more) :=
        dropSpace_continued flags hmore
      have hlength : (dropSpace flags more).length ≤ more.length :=
        length_dropSpace_le flags more
      obtain ⟨n, rest, rest', hr, hr', hcont, hle⟩ := ih hcontinued hlen hlength
      simp only [dropHyphens, hr, hr']
      have hleTrans : rest.length ≤ ('-' :: cs).length := by
        simp only [List.length_cons]
        omega
      exact followsPair hcont hleTrans
    · rw [dropHyphens_plain hc, dropHyphens_plain hc]
      exact followsPair (hmore.push c) (Nat.le_refl _)

/-- The sign of negation at the beginning of a class, and what follows it. -/
def classSign (flags : Flags) (cs : List Char) : Bool × List Char :=
  match dropSpace flags cs with
  | '^' :: more => (true, dropSpace flags more)
  | more => (false, more)

/-- A closing bracket that stands for itself, since nothing stands before it. -/
def classOpening (flags : Flags) (negated : Bool) (hyphens : Nat) (cs : List Char) :
    OpenClass × List Char :=
  let start : OpenClass := ⟨negated, List.replicate hyphens ⟨.single '-', 0⟩, none⟩
  match hyphens, cs with
  | 0, ']' :: more => (start.push ⟨.single ']', 0⟩, dropSpace flags more)
  | _, _ => (start, cs)

theorem readClassStart_eq (flags : Flags) (cs : List Char) :
    readClassStart flags cs =
      let sign := classSign flags cs
      let hyphens := dropHyphens flags sign.2.length sign.2
      let opening := classOpening flags sign.1 hyphens.1 hyphens.2
      if opening.2.isEmpty then .error .unclosedClass else .ok (opening.1, opening.2) := by
  rfl

theorem classSign_follows (h : Continued cs cs') :
    FollowsPair cs.length (classSign flags cs) (classSign flags cs') := by
  unfold classSign
  cases hcs : dropSpace flags cs with
  | nil =>
    rcases dropSpace_nil h hcs with h' | h'
    · rw [h']
      exact followsPair (.inl rfl) (Nat.zero_le _)
    · rw [h']
      exact followsPair (.refl []) (Nat.zero_le _)
  | cons c rest =>
    obtain ⟨rest', h', hrest, hlen⟩ := dropSpace_cons h hcs
    rw [h']
    by_cases hc : c = '^'
    · subst hc
      have hspace := length_dropSpace_le flags rest
      have hcontinued : Continued (dropSpace flags rest) (dropSpace flags rest') :=
        dropSpace_continued flags hrest
      exact followsPair hcontinued (by omega)
    · simp only [List.cons.injEq, hc, false_and, imp_self, implies_true]
      have hcontinued : Continued (c :: rest) (c :: rest') := hrest.push c
      exact followsPair hcontinued hlen

theorem classOpening_follows (negated : Bool) (hyphens : Nat) (h : Continued cs cs') :
    FollowsPair cs.length (classOpening flags negated hyphens cs)
      (classOpening flags negated hyphens cs') := by
  cases hyphens with
  | succ n => exact followsPair h (Nat.le_refl _)
  | zero =>
    cases cs with
    | nil => rcases h.nil with rfl | rfl <;> exact followsPair h (Nat.le_refl _)
    | cons c cs =>
      obtain ⟨more, rfl, hmore⟩ := h.cons
      by_cases hc : c = ']'
      · subst hc
        have hcontinued : Continued (dropSpace flags cs) (dropSpace flags more) :=
          dropSpace_continued flags hmore
        have hle : (dropSpace flags cs).length ≤ cs.length.succ :=
          Nat.le_succ_of_le (length_dropSpace_le flags cs)
        exact followsPair hcontinued hle
      · simp only [classOpening, List.cons.injEq, hc, false_and, imp_self, implies_true]
        exact followsPair h (Nat.le_refl _)

/-- A class of which nothing was there yet. -/
def cutClass {α : Type} : α → List Char → Prop := fun _ rest => rest = closing

theorem cutClass_spaced {α : Type} {x : α} (h : cutClass x rest) :
    dropSpace flags rest = closing ∨ dropSpace flags rest = ['$'] := by
  rw [show rest = closing from h]
  exact .inl (dropSpace_closing flags)

theorem readClassStart_follows (h : Continued cs cs') :
    Follows cs.length cutClass (readClassStart flags cs) (readClassStart flags cs') := by
  rw [readClassStart_eq, readClassStart_eq]
  have hnegated : FollowsPair cs.length (classSign flags cs) (classSign flags cs') :=
    classSign_follows h
  obtain ⟨negated, more, more', hsign, hsign', hmore, hlen⟩ := hnegated
  have hhyphens : FollowsPair more.length (dropHyphens flags more.length more)
      (dropHyphens flags more'.length more') :=
    dropHyphens_follows (Nat.le_refl _) (Nat.le_refl _) hmore
  obtain ⟨n, rest, rest', hr, hr', hrest, hle⟩ := hhyphens
  have hopening : FollowsPair rest.length (classOpening flags negated n rest)
      (classOpening flags negated n rest') := classOpening_follows negated n hrest
  obtain ⟨start, last, last', hstart, hstart', hlast, hlast_le⟩ := hopening
  simp only [hsign, hsign', hr, hr', hstart, hstart']
  cases last with
  | nil =>
    rcases hlast.nil with rfl | rfl
    · exact follows_stuck rfl
    · exact follows_error
  | cons c last =>
    obtain ⟨more, rfl, hcont⟩ := hlast.cons
    have hcontinued : Continued (c :: last) (c :: more) := hcont.push c
    have hleTrans : (c :: last).length ≤ cs.length := by omega
    exact follows_ok hcontinued hleTrans

/-! ## Items -/

@[simp] theorem readClassItem_backslash (flags : Flags) (cs : List Char) :
    readClassItem flags ('\\' :: cs) = readEscape flags cs := rfl

theorem readClassItem_plain (hc : c ≠ '\\') :
    readClassItem flags (c :: cs) = .ok (.literal c, cs) := by
  simp only [readClassItem]

theorem readClassItem_follows (h : Continued cs cs') :
    Follows (cs.length - 1) (cutEscape flags) (readClassItem flags cs)
      (readClassItem flags cs') := by
  cases cs with
  | nil =>
    rcases h.nil with rfl | rfl
    · exact follows_stuck (.inl ⟨rfl, rfl⟩)
    · exact follows_error
  | cons c cs =>
    obtain ⟨more, rfl, hmore⟩ := h.cons
    by_cases hc : c = '\\'
    · subst hc
      rw [readClassItem_backslash, readClassItem_backslash]
      exact readEscape_follows hmore
    · rw [readClassItem_plain hc, readClassItem_plain hc]
      exact follows_ok hmore (Nat.le_refl _)

/-- What is looked at in a spaced text, blanks and one number sign left out. -/
def beyond (cs : List Char) : List Char :=
  match cs.dropWhile Text.isBlank with
  | '#' :: more => more.dropWhile Text.isBlank
  | more => more

theorem beyond_continued (h : Continued cs cs') : Continued (beyond cs) (beyond cs') := by
  have hcont := dropBlanks_continued h
  unfold beyond
  cases hcs : cs.dropWhile Text.isBlank with
  | nil =>
    rw [hcs] at hcont
    rcases hcont.nil with h' | h' <;> rw [h']
    · exact .inl rfl
    · exact .refl []
  | cons c rest =>
    rw [hcs] at hcont
    obtain ⟨rest', h', hrest⟩ := hcont.cons
    rw [h']
    by_cases hc : c = '#'
    · subst hc
      exact dropBlanks_continued hrest
    · simp only [List.cons.injEq, hc, false_and, imp_self, implies_true]
      exact hrest.push c

/-- If all of a text is passed over, its first character is what comes next. It is then blank or
a number sign. -/
theorem peekPast_spaced (hspaced : flags.spaced = true) (hblank : Text.isBlank x = false)
    (hsign : x ≠ '#') : peekPast flags cs = some x ↔ (beyond cs).head? = some x := by
  have heq : peekPast flags cs = (beyond cs).head?.or cs.head? := by
    unfold peekPast beyond
    simp only [hspaced, Bool.not_true, Bool.false_eq_true, if_false]
    cases hrest : cs.dropWhile Text.isBlank with
    | nil => rfl
    | cons c rest =>
      by_cases hc : c = '#'
      · subst hc
        cases hmore : rest.dropWhile Text.isBlank with
        | nil => simp [hmore]
        | cons d more => simp [hmore]
      · simp [hc]
  rw [heq]
  cases hb : beyond cs with
  | cons c rest => exact Iff.rfl
  | nil =>
    simp only [List.head?_nil, Option.none_or, reduceCtorEq, iff_false]
    cases cs with
    | nil => simp
    | cons c cs =>
      intro hx
      obtain rfl := Option.some.inj hx
      unfold beyond at hb
      rw [List.dropWhile_cons_of_neg (by simp [hblank])] at hb
      simp only [List.cons.injEq, hsign, false_and, imp_self, implies_true, reduceCtorEq] at hb

theorem peekPast_continued (flags : Flags) (hx : x ∉ closing) (hblank : Text.isBlank x = false)
    (hsign : x ≠ '#') (h : Continued cs cs') :
    peekPast flags cs' = some x ↔ peekPast flags cs = some x := by
  cases hspaced : flags.spaced with
  | true =>
    rw [peekPast_spaced hspaced hblank hsign, peekPast_spaced hspaced hblank hsign]
    have hcontinued : Continued (beyond cs) (beyond cs') := beyond_continued h
    exact hcontinued.head?_eq_some hx
  | false =>
    have hplain : ∀ cs, peekPast flags cs = cs.head? := fun cs => by
      rw [peekPast, hspaced]
      rfl
    rw [hplain, hplain]
    exact h.head?_eq_some hx

/-! ## Ranges -/

/-- The range between two items. -/
def rangeOf (first last : Primitive) (rest : List Char) : Except Error (CharSet × List Char) :=
  match first, last with
  | .literal a, .literal b =>
    if a.toNat ≤ b.toNat then .ok (.range a b, rest) else .error .reversedRange
  | _, _ => .error .rangeEnd

/-- The item or range that begins with an item. -/
def rangeFrom (flags : Flags) (first : Primitive) (cs : List Char) :
    Except Error (CharSet × List Char) :=
  match dropSpace flags cs with
  | [] => .error .unclosedClass
  | c :: more =>
    if c ≠ '-' ∨ peekPast flags more = some ']' ∨ peekPast flags more = some '-' then
      (itemSet first).map (·, c :: more)
    else if (dropSpace flags more).isEmpty then .error .unclosedClass
    else andThen (readClassItem flags (dropSpace flags more)) (rangeOf first)

theorem readRange_eq (flags : Flags) (cs : List Char) :
    readRange flags cs = andThen (readClassItem flags cs) (rangeFrom flags) := by
  unfold readRange andThen rangeFrom
  cases readClassItem flags cs with
  | error e => rfl
  | ok a =>
    obtain ⟨first, rest⟩ := a
    simp only [bind, Except.bind]
    cases dropSpace flags rest with
    | nil => rfl
    | cons c more =>
      dsimp only
      split
      · cases itemSet first <;> rfl
      · cases (dropSpace flags more).isEmpty with
        | true => rfl
        | false =>
          cases readClassItem flags (dropSpace flags more) with
          | error e => rfl
          | ok a => cases first <;> cases a.1 <;> rfl

/-- An item for which only closing characters were left, or the item that the first of them is. -/
def cutItem {α : Type} : α → List Char → Prop := fun _ rest => rest = closing ∨ rest = ['$']

theorem cutItem_spaced {α : Type} {x : α} (h : cutItem x rest) :
    dropSpace flags rest = closing ∨ dropSpace flags rest = ['$'] := by
  rcases h with rfl | rfl
  · exact .inl (dropSpace_closing flags)
  · exact .inr (dropSpace_dollar flags)

theorem rangeOf_follows {n : Nat} (first last : Primitive) (h : Continued rest rest')
    (hn : rest.length ≤ n) :
    Follows n cutItem (rangeOf first last rest) (rangeOf first last rest') := by
  unfold rangeOf
  split
  · split
    · exact follows_ok h hn
    · exact follows_error
  · exact follows_error

theorem rangeOf_cut {first last : Primitive} {s : CharSet} (h : cutEscape flags last cs)
    (hr : rangeOf first last cs = .ok (s, rest)) : cutItem s rest := by
  rcases h with ⟨rfl, rfl⟩ | ⟨l, rfl, -⟩
  · unfold rangeOf at hr
    split at hr
    · split at hr
      · exact .inr (Prod.mk.inj (Except.ok.inj hr)).2.symm
      · cases hr
    · cases hr
  · cases first <;> cases hr

theorem rangeFrom_item (first : Primitive) (h : dropSpace flags cs = c :: rest) (hc : c ≠ '-') :
    rangeFrom flags first cs = (itemSet first).map (·, c :: rest) := by
  unfold rangeFrom
  rw [h]
  exact if_pos (.inl hc)

/-- The second end of a range is read alike, unless the text ends at the hyphen. -/
theorem rangeFrom_follows (first : Primitive) (h : Continued cs cs') :
    Follows cs.length cutItem (rangeFrom flags first cs) (rangeFrom flags first cs') := by
  cases hcs : dropSpace flags cs with
  | nil =>
    have hnone : rangeFrom flags first cs = .error .unclosedClass := by rw [rangeFrom, hcs]
    rw [hnone]
    rcases dropSpace_nil h hcs with h' | h'
    · rw [rangeFrom_item first h' (by decide)]
      cases itemSet first with
      | error e => exact follows_error
      | ok s => exact follows_stuck (.inl rfl)
    · rw [rangeFrom, h']
      exact follows_error
  | cons c more =>
    obtain ⟨more', h', hmore, hlen⟩ := dropSpace_cons h hcs
    have hbracket := peekPast_continued flags (by decide : ']' ∉ closing) rfl (by decide) hmore
    have hhyphen := peekPast_continued flags (by decide : '-' ∉ closing) rfl (by decide) hmore
    have hspace := length_dropSpace_le flags more
    simp only [rangeFrom, hcs, h', hbracket, hhyphen]
    split
    · have hcontinued : Continued (c :: more) (c :: more') := hmore.push c
      exact follows_map_pair _ id hcontinued hlen
    · have hlast := dropSpace_continued flags hmore
      cases hrest : dropSpace flags more with
      | nil =>
        rw [hrest] at hlast
        rcases hlast.nil with h'' | h''
        · -- The parenthesis ends the range.
          rw [h'']
          have hcut : cutEscape flags (.literal ')') ['$'] := .inl ⟨rfl, rfl⟩
          exact fun s rest hr => rangeOf_cut hcut hr
        · rw [h'']
          exact follows_error
      | cons d last =>
        rw [hrest] at hlast hspace
        obtain ⟨last', h'', hcont⟩ := hlast.cons
        rw [List.length_cons] at hspace
        simp only [h'', List.isEmpty_cons, Bool.false_eq_true, if_false]
        have hitem : Follows last.length (cutEscape flags) (readClassItem flags (d :: last))
            (readClassItem flags (d :: last')) := readClassItem_follows (hcont.push d)
        refine (hitem.mono ?_).andThen ?_ ?_
        · omega
        · exact fun p _ _ hrest hn => rangeOf_follows first p hrest hn
        · exact fun p rest' s rest'' hcut hr => rangeOf_cut hcut hr

/-- A range that was cut off is seen as such by the reader of the class. -/
theorem rangeFrom_cut {first : Primitive} {s : CharSet} (h : cutEscape flags first cs)
    (hr : rangeFrom flags first cs = .ok (s, rest)) : cutItem s rest := by
  rcases h with ⟨rfl, rfl⟩ | ⟨l, rfl, -, more, rfl, -⟩
  · rw [rangeFrom_item _ (dropSpace_dollar flags) (by decide)] at hr
    exact .inr (Prod.mk.inj (Except.ok.inj hr)).2.symm
  · have hspace : dropSpace flags ('{' :: more) = '{' :: more :=
      dropSpace_plain flags rfl (by decide)
    rw [rangeFrom_item _ hspace (by decide)] at hr
    cases hr

theorem readRange_follows (h : Continued cs cs') :
    Follows (cs.length - 1) cutItem (readRange flags cs) (readRange flags cs') := by
  rw [readRange_eq, readRange_eq]
  have hfollows : Follows (cs.length - 1) (cutEscape flags) (readClassItem flags cs)
      (readClassItem flags cs') :=
    readClassItem_follows h
  refine hfollows.andThen ?_ ?_
  · exact fun first _ _ hrest hn => (rangeFrom_follows first hrest).mono hn
  · exact fun first rest' s rest'' hcut hr => rangeFrom_cut hcut hr

/-! ## Classes -/

/-- The operation that a sign written twice stands for. -/
def operationSign? (c : Char) : Option ClassOp :=
  if c = '&' then some .inter else if c = '-' then some .diff else if c = '~' then some .symmDiff
  else none

/-- The operation that a text begins with, and what follows its sign. -/
def operation? : List Char → Option (ClassOp × List Char)
  | c :: d :: rest => if c = d then (operationSign? c).map (·, rest) else none
  | _ => none

theorem operation?_follows (h : Continued cs cs') :
    FollowsOption (cs.length - 1) (operation? cs) (operation? cs') := by
  cases cs with
  | nil => rcases h.nil with rfl | rfl <;> exact .inl ⟨rfl, rfl⟩
  | cons c cs =>
    obtain ⟨more, rfl, hmore⟩ := h.cons
    cases cs with
    | nil =>
      rcases hmore.nil with rfl | rfl
      · -- A parenthesis written twice would be no operation either.
        have hsign : operationSign? ')' = none := rfl
        refine .inl ⟨rfl, ?_⟩
        simp only [operation?, closing]
        split
        · next heq => rw [heq, hsign]; rfl
        · rfl
      · exact .inl ⟨rfl, rfl⟩
    | cons d cs =>
      obtain ⟨last, rfl, hlast⟩ := hmore.cons
      simp only [operation?]
      split
      · cases operationSign? c with
        | none => exact .inl ⟨rfl, rfl⟩
        | some op => exact .inr ⟨op, cs, last, rfl, rfl, hlast, by simp⟩
      · exact .inl ⟨rfl, rfl⟩

section

variable {fuel : Nat} {current : OpenClass} {outer : List OpenClass}

theorem readClassBody_nil (h : dropSpace flags cs = []) :
    readClassBody flags (fuel + 1) current outer cs = .error .unclosedClass := by
  rw [readClassBody, h]

theorem readClassBody_open (h : dropSpace flags cs = '[' :: rest) :
    readClassBody flags (fuel + 1) current outer cs =
      match readAscii? flags rest with
      | some (s, rest) => readClassBody flags fuel (current.push ⟨s, 0⟩) outer rest
      | none => andThen (readClassStart flags rest) fun inner rest =>
        readClassBody flags fuel inner (current :: outer) rest := by
  rw [readClassBody, h]
  cases hascii : readAscii? flags rest with
  | some a => simp only [hascii]
  | none =>
    simp only [hascii]
    cases readClassStart flags rest <;> rfl

theorem readClassBody_close (h : dropSpace flags cs = ']' :: rest) :
    readClassBody flags (fuel + 1) current outer cs =
      match outer with
      | [] => .ok (current.close flags, rest)
      | around :: others =>
        readClassBody flags fuel (around.push (current.close flags)) others rest := by
  rw [readClassBody, h]
  rfl

theorem readClassBody_item (h : dropSpace flags cs = c :: rest) (hopen : c ≠ '[')
    (hclose : c ≠ ']') :
    readClassBody flags (fuel + 1) current outer cs =
      match operation? (c :: rest) with
      | some (op, rest) => readClassBody flags fuel (current.operate flags op) outer rest
      | none => andThen (readRange flags (c :: rest)) fun s rest =>
        readClassBody flags fuel (current.push ⟨s, 0⟩) outer rest := by
  rw [readClassBody, h]
  split
  · next heq => cases heq
  · next heq => exact absurd (List.cons.inj heq).1 hopen
  · next heq => exact absurd (List.cons.inj heq).1 hclose
  · next heq => rw [heq]; rfl
  · next heq => rw [heq]; rfl
  · next heq => rw [heq]; rfl
  · next hinter hdiff hsymm =>
    have hnone : operation? (c :: rest) = none := by
      cases rest with
      | nil => rfl
      | cons d rest =>
        simp only [operation?, operationSign?]
        split
        · next heq =>
          subst heq
          rw [if_neg fun hc => hinter rest (by rw [hc]), if_neg fun hc => hdiff rest (by rw [hc]),
            if_neg fun hc => hsymm rest (by rw [hc])]
          rfl
        · rfl
    rw [hnone]
    dsimp only
    cases readRange flags (c :: rest) <;> rfl

theorem readClassBody_cut (hcs : dropSpace flags cs = closing ∨ dropSpace flags cs = ['$']) :
    ∃ e, readClassBody flags fuel current outer cs = .error e := by
  have hlast : ∀ fuel current cs, dropSpace flags cs = ['$'] →
      ∃ e, readClassBody flags fuel current outer cs = .error e := by
    intro fuel current cs hcs
    cases fuel with
    | zero => exact ⟨_, rfl⟩
    | succ fuel =>
      have hrange : readRange flags ['$'] = .error .unclosedClass := by
        rw [readRange_eq, readClassItem_plain (by decide)]
        change rangeFrom flags (.literal '$') [] = _
        rw [rangeFrom, dropSpace_empty]
      rw [readClassBody_item hcs (by decide) (by decide), hrange]
      exact ⟨_, rfl⟩
  rcases hcs with hcs | hcs
  · cases fuel with
    | zero => exact ⟨_, rfl⟩
    | succ fuel =>
      have hrange : readRange flags closing = .ok (.single ')', ['$']) := by
        rw [readRange_eq]
        exact rangeFrom_item (.literal ')') (dropSpace_dollar flags) (by decide)
      rw [readClassBody_item hcs (by decide) (by decide)]
      change ∃ e, andThen (readRange flags closing) _ = .error e
      rw [hrange]
      exact hlast fuel _ ['$'] (dropSpace_dollar flags)
  · exact hlast fuel current cs hcs

end

/-- A class of which nothing is left stays open. -/
theorem readClassBody_ne_ok {fuel : Nat} {current : OpenClass} {outer : List OpenClass}
    {n : Nested} (h : dropSpace flags cs = closing ∨ dropSpace flags cs = ['$'])
    (hr : readClassBody flags fuel current outer cs = .ok (n, rest)) : never n rest := by
  obtain ⟨e, he⟩ := readClassBody_cut h
  rw [he] at hr
  cases hr

/-- Classes go on to be read alike after what leaves no more text than this, with the fuel that is
left. -/
def BodyFollows (flags : Flags) (fuel fuel' n : Nat) (rest rest' : List Char) : Prop :=
  ∀ current outer more more', Continued more more' → more.length ≤ rest.length →
    more'.length ≤ rest'.length → Follows n never (readClassBody flags fuel current outer more)
      (readClassBody flags fuel' current outer more')

/-- A bracket opens a class in the class, unless it is that of a class by name. -/
theorem BodyFollows.opening {fuel fuel' n : Nat}
    (hnext : BodyFollows flags fuel fuel' n rest rest') (hrest : Continued rest rest')
    (current : OpenClass) (outer : List OpenClass) (hcs : dropSpace flags cs = '[' :: rest)
    (hcs' : dropSpace flags cs' = '[' :: rest') :
    Follows n never (readClassBody flags (fuel + 1) current outer cs)
      (readClassBody flags (fuel' + 1) current outer cs') := by
  rw [readClassBody_open hcs, readClassBody_open hcs']
  have hascii : FollowsOption rest.length (readAscii? flags rest) (readAscii? flags rest') :=
    readAscii?_follows hrest
  rcases hascii with ⟨hr, hr'⟩ | ⟨s, more, more', hr, hr', hcont, hle⟩
  · rw [hr, hr']
    have hfollows : Follows rest.length cutClass (readClassStart flags rest)
        (readClassStart flags rest') :=
      readClassStart_follows hrest
    refine hfollows.andThen_of ?_ ?_
    · intro inner more more' hinner hinner' hcont
      have hlen : more.length ≤ rest.length :=
        (readClassStart_follows (.refl rest)).length_le hinner
      have hle' : more'.length ≤ rest'.length :=
        (readClassStart_follows (.refl rest')).length_le hinner'
      exact hnext _ _ _ _ hcont hlen hle'
    · exact fun inner more' n last hcut => readClassBody_ne_ok (cutClass_spaced hcut)
  · rw [hr, hr']
    exact hnext _ _ _ _ hcont hle ((readAscii?_follows (.refl rest')).length_le hr')

/-- What is no bracket begins a range, unless it is part of an operation. -/
theorem BodyFollows.item {fuel fuel' n : Nat}
    (hnext : BodyFollows flags fuel fuel' n rest rest') (hrest : Continued rest rest')
    (current : OpenClass) (outer : List OpenClass) (hcs : dropSpace flags cs = c :: rest)
    (hcs' : dropSpace flags cs' = c :: rest') (hopen : c ≠ '[') (hclose : c ≠ ']') :
    Follows n never (readClassBody flags (fuel + 1) current outer cs)
      (readClassBody flags (fuel' + 1) current outer cs') := by
  rw [readClassBody_item hcs hopen hclose, readClassBody_item hcs' hopen hclose]
  have hitem := hrest.push c
  rcases operation?_follows hitem with ⟨hr, hr'⟩ | ⟨op, more, more', hr, hr', hcont, hle⟩
  · rw [hr, hr']
    have hfollows : Follows ((c :: rest).length - 1) cutItem (readRange flags (c :: rest))
        (readRange flags (c :: rest')) :=
      readRange_follows hitem
    refine hfollows.andThen_of ?_ ?_
    · intro s more more' hone hone' hcont
      have hlen : more.length ≤ (c :: rest).length - 1 :=
        (readRange_follows (.refl (c :: rest))).length_le hone
      have hle' : more'.length ≤ (c :: rest').length - 1 :=
        (readRange_follows (.refl (c :: rest'))).length_le hone'
      exact hnext _ _ _ _ hcont hlen hle'
    · exact fun s more' n last hcut => readClassBody_ne_ok (cutItem_spaced hcut)
  · rw [hr, hr']
    exact hnext _ _ _ _ hcont hle ((operation?_follows (.refl (c :: rest'))).length_le hr')

/-- The inside of a class is read alike up to its closing bracket. -/
theorem readClassBody_follows (fuel fuel' : Nat) (current : OpenClass) (outer : List OpenClass)
    (hfuel : cs.length < fuel) (hfuel' : cs'.length < fuel') (h : Continued cs cs') :
    Follows cs.length never (readClassBody flags fuel current outer cs)
      (readClassBody flags fuel' current outer cs') := by
  induction fuel generalizing cs cs' fuel' current outer with
  | zero => omega
  | succ fuel ih =>
    obtain ⟨fuel', rfl⟩ : ∃ k, fuel' = k + 1 := ⟨fuel' - 1, by omega⟩
    cases hcs : dropSpace flags cs with
    | nil =>
      rcases dropSpace_nil h hcs with h' | h'
      · obtain ⟨e, he⟩ := readClassBody_cut (.inl h')
        rw [readClassBody_nil hcs, he]
        exact follows_error
      · rw [readClassBody_nil hcs, readClassBody_nil h']
        exact follows_error
    | cons c rest =>
      obtain ⟨rest', h', hrest, hlen⟩ := dropSpace_cons h hcs
      have hlen' := length_dropSpace_le flags cs'
      rw [h', List.length_cons] at hlen'
      -- What the class reads next leaves less text than there is fuel.
      have hnext : BodyFollows flags fuel fuel' cs.length rest rest' :=
        fun _ _ _ _ hmore hle hle' =>
          (ih fuel' _ _ (by omega) (by omega) hmore).mono (by omega)
      by_cases hopen : c = '['
      · subst hopen
        exact hnext.opening hrest current outer hcs h'
      · by_cases hclose : c = ']'
        · subst hclose
          rw [readClassBody_close hcs, readClassBody_close h']
          cases outer with
          | nil => exact follows_ok hrest (by omega)
          | cons around others => exact hnext _ _ _ _ hrest (Nat.le_refl _) (Nat.le_refl _)
        · exact hnext.item hrest current outer hcs h' hopen hclose

theorem readClass_eq (flags : Flags) (cs : List Char) :
    readClass flags cs = andThen (readClassStart flags cs) fun start rest =>
      readClassBody flags (rest.length + 1) start [] rest := by
  unfold readClass andThen
  cases readClassStart flags cs <;> rfl

/-- A class that is closed is read alike before any continuation. -/
theorem readClass_follows (h : Continued cs cs') :
    Follows cs.length never (readClass flags cs) (readClass flags cs') := by
  rw [readClass_eq, readClass_eq]
  have hfollows : Follows cs.length cutClass (readClassStart flags cs) (readClassStart flags cs') :=
    readClassStart_follows h
  refine hfollows.andThen ?_ ?_
  · intro start rest rest' hrest hle
    exact (readClassBody_follows _ _ start [] (by omega) (by omega) hrest).mono
      hle
  · exact fun start rest' n last hcut => readClassBody_ne_ok (cutClass_spaced hcut)

end FlowLint.Pattern

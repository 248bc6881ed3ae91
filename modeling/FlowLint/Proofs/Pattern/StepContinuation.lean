import FlowLint.Pattern.Reader
import FlowLint.Proofs.Pattern.ClassContinuation

/-!
# Steps of the reader in texts that go on

The closing parenthesis can make up for what a step lacks at the end of a text in two ways: it is
the character after a backslash, and it ends a setting of flags. A boundary that stands before a
brace is read where it was not, but then the brace is in the way. Nothing else that the reader
meets is completed by the closing characters.
-/

namespace FlowLint.Pattern

variable {flags : Flags} {c : Char} {cs cs' rest rest' : List Char}

/-! ## Groups -/

/-- A setting of flags that the closing parenthesis ends. -/
def cutFlags {α : Type} : α → List Char → Prop := fun _ rest => rest = ['$']

theorem readFlags_follows (l : FlagList) (h : Continued cs cs') :
    Follows cs.length cutFlags (readFlags l cs) (readFlags l cs') := by
  induction cs generalizing l cs' with
  | nil =>
    rcases h.nil with rfl | rfl
    · change Follows _ _ (.error .unclosedFlags)
        (if l.dangling then .error .danglingNegation
        else .ok ((l.flags, ')', !l.seen.isEmpty || l.negated), ['$']))
      split
      · exact follows_error
      · exact follows_stuck rfl
    · exact follows_error
  | cons c cs ih =>
    obtain ⟨more, rfl, hmore⟩ := h.cons
    have hlen : cs.length ≤ (c :: cs).length := Nat.le_succ _
    simp only [readFlags]
    split
    · split
      · exact follows_error
      · exact follows_ok hmore hlen
    · split
      · split
        · exact follows_error
        · exact (ih _ hmore).mono hlen
      · split
        · exact follows_error
        · split
          · exact follows_error
          · split
            · exact follows_error
            · exact (ih _ hmore).mono hlen

theorem readGroupName_unclosed (h : cs.dropWhile (· ≠ '>') = []) :
    ∃ e, readGroupName cs = .error e := by
  unfold readGroupName
  rw [h]
  dsimp only
  split
  · exact ⟨_, rfl⟩
  · split
    · exact ⟨_, rfl⟩
    · exact ⟨_, rfl⟩

theorem readGroupName_closed (h : cs.dropWhile (· ≠ '>') = c :: rest) :
    readGroupName cs =
      let name := cs.takeWhile (· ≠ '>')
      if !(isNameChar true (name.headD '_') && name.tail.all (isNameChar false)) then
        .error .badGroupName
      else if name.isEmpty then .error .emptyGroupName else .ok (name, rest) := by
  have hcs : cs.isEmpty = false := by
    cases cs with
    | nil => cases h
    | cons d cs => rfl
  unfold readGroupName
  rw [h, hcs]
  rfl

theorem readGroupName_follows (h : Continued cs cs') :
    Follows cs.length never (readGroupName cs) (readGroupName cs') := by
  rcases until_continued (by decide : '>' ∉ closing) h with
    ⟨hr, hr'⟩ | ⟨htake, rest, rest', hr, hr', hcont, hlen⟩
  · obtain ⟨e, he⟩ := readGroupName_unclosed hr
    obtain ⟨e', he'⟩ := readGroupName_unclosed hr'
    rw [he, he']
    exact follows_error
  · rw [readGroupName_closed hr, readGroupName_closed hr', htake]
    dsimp only
    split
    · exact follows_error
    · split
      · exact follows_error
      · exact follows_ok hcont (Nat.le_of_lt hlen)

/-- A group with a name. -/
def namedGroup (s : State) (cs : List Char) : Except Error (State × List Char) :=
  andThen (readGroupName cs) fun name rest =>
    if s.names.contains name then .error .repeatedGroupName
    else .ok ({ s.enter s.flags with names := name :: s.names }, rest)

/-- A group with flags, or a setting of flags. -/
def flagGroup (s : State) (cs : List Char) : Except Error (State × List Char) :=
  andThen (readFlags { flags := s.flags } cs) fun setting rest =>
    if setting.2.1 = ':' then .ok (s.enter setting.1, rest)
    else if setting.2.2 then .ok ({ s with flags := setting.1, items := .flags :: s.items }, rest)
    else .error .nothingToRepeat

/-- What a question mark at the beginning of a group begins. -/
def markedGroup (s : State) (cs : List Char) : Except Error (State × List Char) :=
  if cs.head? = some '=' ∨ cs.head? = some '!' then .error .lookAround
  else if cs.head? = some '<' then
    if cs.tail.head? = some '=' ∨ cs.tail.head? = some '!' then .error .lookAround
    else namedGroup s cs.tail
  else if cs.head? = some 'P' ∧ cs.tail.head? = some '<' then namedGroup s cs.tail.tail
  else if cs.head? = none then .error .unclosedGroup
  else flagGroup s cs

theorem head?_ne_some {x : Char} (h : ∀ tail, cs = x :: tail → False) : cs.head? ≠ some x := by
  intro hx
  cases cs with
  | nil => cases hx
  | cons c cs => exact h cs (by rw [Option.some.inj hx])

theorem namedGroup_eq (s : State) (cs : List Char) :
    (do
      let (name, rest) ← readGroupName cs
      if s.names.contains name then throw .repeatedGroupName
      return ({ s.enter s.flags with names := name :: s.names }, rest)) = namedGroup s cs := by
  unfold namedGroup andThen
  cases readGroupName cs with
  | error e => rfl
  | ok a =>
    simp only [bind, Except.bind]
    split <;> rfl

theorem flagGroup_eq (s : State) (cs : List Char) :
    (do
      let ((flags, ending, nonempty), rest) ← readFlags { flags := s.flags } cs
      if ending = ':' then return (s.enter flags, rest)
      if nonempty then return ({ s with flags, items := .flags :: s.items }, rest)
      throw .nothingToRepeat) = flagGroup s cs := by
  unfold flagGroup andThen
  cases readFlags { flags := s.flags } cs with
  | error e => rfl
  | ok a =>
    simp only [bind, Except.bind]
    split
    · rfl
    · split <;> rfl

theorem readGroup_marked {s : State} (h : dropSpace s.flags cs = '?' :: rest) :
    readGroup s cs = markedGroup s rest := by
  unfold readGroup markedGroup
  rw [h]
  split
  · next heq => rw [(List.cons.inj heq).2]; rfl
  · next heq => rw [(List.cons.inj heq).2]; rfl
  · next heq => rw [(List.cons.inj heq).2]; rfl
  · next heq => rw [(List.cons.inj heq).2]; rfl
  · next more heq =>
    rw [(List.cons.inj heq).2]
    exact namedGroup_eq s more
  · next more hahead hnot heq =>
    rw [(List.cons.inj heq).2]
    have hlook : ¬(more.head? = some '=' ∨ more.head? = some '!') :=
      not_or.mpr ⟨head?_ne_some hahead, head?_ne_some hnot⟩
    exact (namedGroup_eq s more).trans (if_neg hlook).symm
  · next heq => rw [(List.cons.inj heq).2]; rfl
  · next more hahead hnot _ _ hnamed hangle hend heq =>
    rw [(List.cons.inj heq).2]
    have hlook : ¬(more.head? = some '=' ∨ more.head? = some '!') :=
      not_or.mpr ⟨head?_ne_some hahead, head?_ne_some hnot⟩
    have hnone : more.head? ≠ none := fun hnone => hend (List.head?_eq_none_iff.mp hnone)
    have hname : ¬(more.head? = some 'P' ∧ more.tail.head? = some '<') := by
      rintro ⟨hp, hopen⟩
      cases more with
      | nil => cases hp
      | cons c more =>
        refine head?_ne_some (fun tail ht => hnamed tail ?_) hopen
        rw [Option.some.inj hp, ← ht]
        rfl
    rw [if_neg hlook, if_neg (head?_ne_some hangle), if_neg hname, if_neg hnone]
    exact flagGroup_eq s more
  · next hmark => exact absurd rfl (hmark rest)

theorem readGroup_plain {s : State} (h : dropSpace s.flags cs = rest)
    (hmark : rest.head? ≠ some '?') :
    readGroup s cs = .ok (s.enter s.flags, rest) := by
  have hne : ∀ more, rest = '?' :: more → False := by
    rintro more rfl
    exact hmark rfl
  unfold readGroup
  rw [h]
  split
  · exact (hne _ rfl).elim
  · exact (hne _ rfl).elim
  · exact (hne _ rfl).elim
  · exact (hne _ rfl).elim
  · exact (hne _ rfl).elim
  · exact (hne _ rfl).elim
  · exact (hne _ rfl).elim
  · exact (hne _ rfl).elim
  · rfl

theorem namedGroup_follows (s : State) (h : Continued cs cs') :
    Follows cs.length cutFlags (namedGroup s cs) (namedGroup s cs') := by
  have hfollows : Follows cs.length never (readGroupName cs) (readGroupName cs') :=
    readGroupName_follows h
  refine hfollows.andThen ?_ fun _ _ _ _ hs _ => hs.elim
  intro name rest rest' hrest hn
  split
  · exact follows_error
  · exact follows_ok hrest hn

theorem flagGroup_follows (s : State) (h : Continued cs cs') :
    Follows cs.length cutFlags (flagGroup s cs) (flagGroup s cs') := by
  refine (readFlags_follows _ h).andThen ?_ ?_
  · intro setting rest rest' hrest hn
    split
    · exact follows_ok hrest hn
    · split
      · exact follows_ok hrest hn
      · exact follows_error
  · intro setting rest' s' rest'' hcut hr
    -- Whatever the setting is, nothing more is read after it.
    have hsame : rest'' = rest' := by
      split at hr
      · exact (Prod.mk.inj (Except.ok.inj hr)).2.symm
      · split at hr
        · exact (Prod.mk.inj (Except.ok.inj hr)).2.symm
        · cases hr
    exact hsame.trans hcut

theorem markedGroup_follows (s : State) (h : Continued cs cs') :
    Follows cs.length cutFlags (markedGroup s cs) (markedGroup s cs') := by
  cases cs with
  | nil =>
    rcases h.nil with rfl | rfl
    · exact follows_error
    · exact follows_error
  | cons c cs =>
    obtain ⟨more, rfl, hmore⟩ := h.cons
    have hlen : cs.length ≤ (c :: cs).length := Nat.le_succ _
    have hbehind : ((c :: more).tail.head? = some '=' ∨ (c :: more).tail.head? = some '!') ↔
        ((c :: cs).tail.head? = some '=' ∨ (c :: cs).tail.head? = some '!') :=
      or_congr (hmore.head?_eq_some (by decide)) (hmore.head?_eq_some (by decide))
    have hopen : (c :: more).tail.head? = some '<' ↔ (c :: cs).tail.head? = some '<' :=
      hmore.head?_eq_some (by decide)
    unfold markedGroup
    by_cases hlook : (c :: cs).head? = some '=' ∨ (c :: cs).head? = some '!'
    · have hlook' : (c :: more).head? = some '=' ∨ (c :: more).head? = some '!' := hlook
      rw [if_pos hlook, if_pos hlook']
      exact follows_error
    have hlook' : ¬((c :: more).head? = some '=' ∨ (c :: more).head? = some '!') := hlook
    rw [if_neg hlook, if_neg hlook']
    by_cases hangle : (c :: cs).head? = some '<'
    · have hangle' : (c :: more).head? = some '<' := hangle
      rw [if_pos hangle, if_pos hangle']
      by_cases hlook : (c :: cs).tail.head? = some '=' ∨ (c :: cs).tail.head? = some '!'
      · rw [if_pos hlook, if_pos (hbehind.mpr hlook)]
        exact follows_error
      · rw [if_neg hlook, if_neg (mt hbehind.mp hlook)]
        have hfollows : Follows cs.length cutFlags (namedGroup s cs) (namedGroup s more) :=
          namedGroup_follows s hmore
        exact hfollows.mono hlen
    have hangle' : ¬(c :: more).head? = some '<' := hangle
    rw [if_neg hangle, if_neg hangle']
    by_cases hname : (c :: cs).head? = some 'P' ∧ (c :: cs).tail.head? = some '<'
    · -- The name begins behind a bracket, which is part of the text.
      have hname' : (c :: more).head? = some 'P' ∧ (c :: more).tail.head? = some '<' :=
        ⟨hname.1, hopen.mpr hname.2⟩
      rw [if_pos hname, if_pos hname']
      obtain ⟨name, rfl⟩ := List.head?_eq_some_iff.mp hname.2
      obtain ⟨last, rfl, hlast⟩ := hmore.cons
      have hfollows : Follows name.length cutFlags (namedGroup s name) (namedGroup s last) :=
        namedGroup_follows s hlast
      exact hfollows.mono (by simp only [List.length_cons]; omega)
    · have hname' : ¬((c :: more).head? = some 'P' ∧ (c :: more).tail.head? = some '<') :=
        fun hname' => hname ⟨hname'.1, hopen.mp hname'.2⟩
      have hsome : ∀ cs : List Char, (c :: cs).head? ≠ none := fun _ => Option.some_ne_none c
      rw [if_neg hname, if_neg hname', if_neg (hsome cs), if_neg (hsome more)]
      exact flagGroup_follows s h

/-- The opening of a group is read alike. -/
theorem readGroup_follows (s : State) (h : Continued cs cs') :
    Follows cs.length cutFlags (readGroup s cs) (readGroup s cs') := by
  have hlen := length_dropSpace_le s.flags cs
  have hcont := dropSpace_continued s.flags h
  by_cases hmark : (dropSpace s.flags cs).head? = some '?'
  · obtain ⟨rest, hrest⟩ := List.head?_eq_some_iff.mp hmark
    obtain ⟨rest', hrest', hmore, hle⟩ := dropSpace_cons h hrest
    rw [readGroup_marked hrest, readGroup_marked hrest']
    have hfollows : Follows rest.length cutFlags (markedGroup s rest) (markedGroup s rest') :=
      markedGroup_follows s hmore
    exact hfollows.mono (by omega)
  · have hmark' : (dropSpace s.flags cs').head? ≠ some '?' :=
      mt (hcont.head?_eq_some (by decide)).mp hmark
    rw [readGroup_plain rfl hmark, readGroup_plain rfl hmark']
    exact follows_ok hcont hlen

/-! ## Counts -/

theorem collects_readCountDigits (flags : Flags) :
    Collects flags Char.isDigit (readCountDigits flags) where
  nil _ fuel := by cases fuel <;> rfl
  spent _ _ := rfl
  cons _ _ _ _ := rfl

theorem dropBraceBlanks_continued {fuel fuel' : Nat} (hfuel : cs.length ≤ fuel)
    (hfuel' : cs'.length ≤ fuel') (h : Continued cs cs') :
    Continued (dropBraceBlanks flags fuel cs) (dropBraceBlanks flags fuel' cs') ∧
      (dropBraceBlanks flags fuel cs).length ≤ cs.length := by
  refine continued_induction (motive := fun fuel fuel' cs cs' =>
    Continued (dropBraceBlanks flags fuel cs) (dropBraceBlanks flags fuel' cs') ∧
      (dropBraceBlanks flags fuel cs).length ≤ cs.length) ?_ ?_ hfuel hfuel' h
  · intro fuel fuel' cs' hcs'
    have hnil : ∀ fuel, dropBraceBlanks flags fuel [] = [] := by
      intro fuel
      cases fuel <;> rfl
    have hclosing : ∀ fuel, dropBraceBlanks flags fuel closing = closing := by
      intro fuel
      cases fuel <;> rfl
    rcases hcs' with rfl | rfl
    · rw [hnil, hclosing]
      exact ⟨.inl rfl, Nat.le_refl _⟩
    · rw [hnil, hnil]
      exact ⟨.refl [], Nat.le_refl _⟩
  · intro fuel fuel' c cs more hmore ih
    have hlen := length_dropSpace_le flags cs
    simp only [dropBraceBlanks]
    split
    · have hcontinued : Continued (dropSpace flags cs) (dropSpace flags more) :=
        dropSpace_continued flags hmore
      have hlength : (dropSpace flags more).length ≤ more.length :=
        length_dropSpace_le flags more
      obtain ⟨hcont, hle⟩ := ih hcontinued hlen hlength
      have hleTrans : (dropBraceBlanks flags fuel (dropSpace flags cs)).length ≤ (c :: cs).length :=
        Nat.le_trans hle (Nat.le_succ_of_le hlen)
      exact ⟨hcont, hleTrans⟩
    · exact ⟨hmore.push c, Nat.le_refl _⟩

theorem readCount_follows (h : Continued cs cs') :
    Follows cs.length never (readCount flags cs) (readCount flags cs') := by
  have hblanks := (List.dropWhile_sublist (l := cs) Text.isBlank).length_le
  have hblanks' := (List.dropWhile_sublist (l := cs') Text.isBlank).length_le
  have hdigits : FollowsPair (cs.dropWhile Text.isBlank).length
      (readCountDigits flags [] cs.length (cs.dropWhile Text.isBlank))
      (readCountDigits flags [] cs'.length (cs'.dropWhile Text.isBlank)) :=
    (collects_readCountDigits flags).follows rfl [] hblanks hblanks' (dropBlanks_continued h)
  obtain ⟨digits, rest, rest', hr, hr', hcont, hle⟩ := hdigits
  have hlast : Continued (dropBraceBlanks flags rest.length rest)
      (dropBraceBlanks flags rest'.length rest') ∧
      (dropBraceBlanks flags rest.length rest).length ≤ rest.length :=
    dropBraceBlanks_continued (Nat.le_refl _) (Nat.le_refl _) hcont
  obtain ⟨hlast, hlast_le⟩ := hlast
  have hlen : (dropBraceBlanks flags rest.length rest).length ≤ cs.length := by omega
  simp only [readCount, hr, hr']
  split
  · exact follows_ok hlast hlen
  · split
    · exact follows_ok hlast hlen
    · exact follows_error

theorem dropLazy_continued (h : Continued cs cs') :
    Continued (dropLazy cs) (dropLazy cs') ∧ (dropLazy cs).length ≤ cs.length := by
  cases cs with
  | nil =>
    rcases h.nil with rfl | rfl
    · exact ⟨h, Nat.le_refl _⟩
    · exact ⟨h, Nat.le_refl _⟩
  | cons c cs =>
    obtain ⟨more, rfl, hmore⟩ := h.cons
    by_cases hc : c = '?'
    · subst hc
      exact ⟨hmore, Nat.le_succ _⟩
    · simp only [dropLazy, List.cons.injEq, hc, false_and, imp_self, implies_true]
      exact ⟨h, Nat.le_refl _⟩

/-- The bounds after the first count. -/
def boundsFrom (flags : Flags) (first : Option Nat) (cs : List Char) :
    Except Error ((Nat × Option Nat) × List Char) :=
  match cs with
  | [] => .error .unclosedCount
  | c :: more =>
    if c = ',' then
      match dropSpace flags more with
      | [] => .error .unclosedCount
      | d :: more =>
        if d = '\x7d' then (requireCount first).map fun least => ((least, none), d :: more)
        else
          match requireCount first with
          | .error e => .error e
          | .ok least => andThen (readCount flags (d :: more)) fun last rest =>
            (requireCount last).map fun greatest => ((least, some greatest), rest)
    else (requireCount first).map fun least => ((least, some least), c :: more)

/-- The end of the counts, which have to be in order. -/
def countsEnd (flags : Flags) (bounds : Nat × Option Nat) (cs : List Char) :
    Except Error ((Nat × Option Nat) × List Char) :=
  match cs with
  | [] => .error .unclosedCount
  | c :: rest =>
    if c = '\x7d' then
      if bounds.2.any (· < bounds.1) then .error .reversedCounts
      else .ok (bounds, dropLazy (dropSpace flags rest))
    else .error .unclosedCount

theorem countsEnd_eq (flags : Flags) (bounds : Nat × Option Nat) (rest : List Char) :
    (match rest with
      | '\x7d' :: rest =>
        if bounds.2.any (· < bounds.1) then
          match (throw .reversedCounts : Except Error Unit) with
          | .error e => .error e
          | .ok _ => pure ((bounds.1, bounds.2), dropLazy (dropSpace flags rest))
        else pure ((bounds.1, bounds.2), dropLazy (dropSpace flags rest))
      | _ => throw .unclosedCount) = countsEnd flags bounds rest := by
  unfold countsEnd
  split
  · split <;> rfl
  · next hopen =>
    cases rest with
    | nil => rfl
    | cons c rest => exact (if_neg fun hc => hopen rest (by rw [hc])).symm

theorem readCounts_eq (flags : Flags) (cs : List Char) :
    readCounts flags cs =
      if (dropSpace flags cs).isEmpty then .error .unclosedCount
      else andThen (andThen (readCount flags (dropSpace flags cs)) (boundsFrom flags))
        (countsEnd flags) := by
  unfold readCounts
  cases dropSpace flags cs with
  | nil => rfl
  | cons c cs =>
    simp only [List.isEmpty_cons, Bool.false_eq_true, if_false]
    unfold andThen
    cases readCount flags (c :: cs) with
    | error e => rfl
    | ok a =>
      obtain ⟨first, rest⟩ := a
      simp only [bind, Except.bind]
      cases rest with
      | nil => rfl
      | cons d more =>
        by_cases hd : d = ','
        · subst hd
          simp only [boundsFrom, if_pos]
          cases dropSpace flags more with
          | nil => rfl
          | cons e more =>
            by_cases he : e = '\x7d'
            · subst he
              simp only [if_pos]
              cases requireCount first with
              | error e => rfl
              | ok least => rfl
            · simp only [he, if_neg, not_false_eq_true]
              split
              · next heq => cases heq
              · next heq => exact absurd (List.cons.inj heq).1 he
              · cases requireCount first with
                | error e => rfl
                | ok least =>
                  simp only [andThen]
                  cases readCount flags (e :: more) with
                  | error e => rfl
                  | ok a =>
                    obtain ⟨last, rest⟩ := a
                    dsimp only
                    cases requireCount last with
                    | error e => rfl
                    | ok greatest => exact countsEnd_eq flags _ _
        · simp only [boundsFrom, hd, if_neg, not_false_eq_true]
          split
          · next heq => cases heq
          · next heq => exact absurd (List.cons.inj heq).1 hd
          · cases requireCount first with
            | error e => rfl
            | ok least => exact countsEnd_eq flags _ _

theorem boundsFrom_follows (first : Option Nat) (h : Continued cs cs') :
    Follows cs.length cutClass (boundsFrom flags first cs) (boundsFrom flags first cs') := by
  cases cs with
  | nil =>
    rcases h.nil with rfl | rfl
    · change Follows _ _ (.error .unclosedCount) ((requireCount first).map fun least =>
        ((least, some least), closing))
      cases requireCount first with
      | error e => exact follows_error
      | ok least => exact follows_stuck rfl
    · exact follows_error
  | cons c cs =>
    obtain ⟨more, rfl, hmore⟩ := h.cons
    simp only [boundsFrom]
    split
    · cases hcs : dropSpace flags cs with
      | nil =>
        rcases dropSpace_nil hmore hcs with h' | h'
        · -- No digit stands before the parenthesis.
          rw [h']
          cases requireCount first with
          | error e => exact follows_error
          | ok least => exact follows_error
        · rw [h']
          exact follows_error
      | cons d rest =>
        obtain ⟨rest', h', hrest, hlen⟩ := dropSpace_cons hmore hcs
        rw [h']
        dsimp only
        split
        · have hcontinued : Continued (d :: rest) (d :: rest') := hrest.push d
          exact follows_map_pair _ _ hcontinued (Nat.le_succ_of_le hlen)
        · cases requireCount first with
          | error e => exact follows_error
          | ok least =>
            have hfollows : Follows cs.length.succ never (readCount flags (d :: rest))
                (readCount flags (d :: rest')) :=
              (readCount_follows (hrest.push d)).mono (Nat.le_succ_of_le hlen)
            refine hfollows.andThen ?_ ?_
            · exact fun last _ _ hrest hn => follows_map_pair _ _ hrest hn
            · exact fun _ _ _ _ hs _ => hs.elim
    · exact follows_map_pair _ _ h (Nat.le_refl _)

theorem countsEnd_follows (bounds : Nat × Option Nat) (h : Continued cs cs') :
    Follows cs.length never (countsEnd flags bounds cs) (countsEnd flags bounds cs') := by
  cases cs with
  | nil =>
    rcases h.nil with rfl | rfl
    · exact follows_error
    · exact follows_error
  | cons c cs =>
    obtain ⟨more, rfl, hmore⟩ := h.cons
    simp only [countsEnd]
    split
    · split
      · exact follows_error
      · have hcontinued : Continued (dropSpace flags cs) (dropSpace flags more) :=
          dropSpace_continued flags hmore
        obtain ⟨hcont, hlen⟩ := dropLazy_continued hcontinued
        have hspace := length_dropSpace_le flags cs
        exact follows_ok hcont (by rw [List.length_cons]; omega)
    · exact follows_error

theorem readCounts_closing (h : dropSpace flags cs = closing) :
    ∃ e, readCounts flags cs = .error e := by
  refine ⟨.missingCount, ?_⟩
  rw [readCounts_eq, h]
  rfl

theorem readCounts_follows (h : Continued cs cs') :
    Follows cs.length never (readCounts flags cs) (readCounts flags cs') := by
  cases hcs : dropSpace flags cs with
  | nil =>
    rw [readCounts_eq, hcs]
    rcases dropSpace_nil h hcs with h' | h'
    · obtain ⟨e, he⟩ := readCounts_closing h'
      rw [he]
      exact follows_error
    · rw [readCounts_eq, h']
      exact follows_error
  | cons c rest =>
    obtain ⟨rest', h', hrest, hlen⟩ := dropSpace_cons h hcs
    rw [readCounts_eq, readCounts_eq, hcs, h']
    simp only [List.isEmpty_cons, Bool.false_eq_true, if_false]
    have hbounds : Follows (c :: rest).length cutClass
        (andThen (readCount flags (c :: rest)) (boundsFrom flags))
        (andThen (readCount flags (c :: rest')) (boundsFrom flags)) :=
      (readCount_follows (hrest.push c)).andThen
        (fun first _ _ hmore hn => (boundsFrom_follows first hmore).mono hn)
        fun _ _ _ _ hs _ => hs.elim
    refine (hbounds.mono hlen).andThen ?_ ?_
    · exact fun bounds _ _ hmore hn => (countsEnd_follows bounds hmore).mono hn
    · intro bounds rest' y rest'' hcut hr
      rw [show rest' = closing from hcut] at hr
      cases hr

/-- Counts that are read are in order. -/
theorem readCounts_ordered {bounds : Nat × Option Nat}
    (h : readCounts flags cs = .ok (bounds, rest)) : ∀ most ∈ bounds.2, bounds.1 ≤ most := by
  rw [readCounts_eq] at h
  split at h
  · cases h
  · generalize andThen (readCount flags (dropSpace flags cs)) (boundsFrom flags) = r at h
    cases r with
    | error e => cases h
    | ok a =>
      simp only [andThen, countsEnd] at h
      split at h
      · cases h
      · split at h
        · split at h
          · cases h
          · next hany =>
            obtain ⟨rfl, -⟩ := Prod.mk.inj (Except.ok.inj h)
            intro most hmost
            have hmost : a.1.2 = some most := hmost
            simpa [hmost] using hany
        · cases h

/-! ## Steps -/

/-- Whether a character asks for repetition. -/
def isQuantifier (c : Char) : Bool :=
  c = '?' || c = '*' || c = '+' || c = '\x7b'

/-- How often to repeat, after the character that asks for it. -/
def quantifier (flags : Flags) (c : Char) (cs : List Char) :
    Except Error ((Nat × Option Nat) × List Char) :=
  if c = '?' then .ok ((0, some 1), dropLazy cs)
  else if c = '*' then .ok ((0, none), dropLazy cs)
  else if c = '+' then .ok ((1, none), dropLazy cs)
  else readCounts flags cs

/-- The pattern of a single character. -/
def plainRegex (flags : Flags) (c : Char) : Regex :=
  if c = '.' then dotRegex flags
  else if c = '^' then .look (startLook flags)
  else if c = '$' then .look (endLook flags)
  else (Primitive.literal c).regex flags

/-- A part of a sequence that is no group, with its depth. -/
def readAtom (flags : Flags) (c : Char) (cs : List Char) : Read (Regex × Nat) :=
  if c = '[' then (readClass flags cs).map fun (n, rest) => ((.set n.set, n.depth), rest)
  else if c = '\\' then (readEscape flags cs).map fun (p, rest) => ((p.regex flags, 0), rest)
  else .ok ((plainRegex flags c, 0), cs)

/-- The last part repeated, if there is one. -/
def repeated (s : State) (c : Char) (cs : List Char) : Except Error (State × List Char) :=
  match s.repeatLast 0 none with
  | .error e => .error e
  | .ok _ => andThen (quantifier s.flags c cs) fun bounds rest =>
    (s.repeatLast bounds.1 bounds.2).map (·, rest)

/-- Whether there is something to repeat does not depend on how often. -/
theorem repeatLast_allowed (s : State) (bounds : Nat × Option Nat) (rest : List Char) :
    (s.repeatLast bounds.1 bounds.2).map (·, rest) =
      match s.repeatLast 0 none with
      | .error e => .error e
      | .ok _ => (s.repeatLast bounds.1 bounds.2).map (·, rest) := by
  unfold State.repeatLast
  cases s.items with
  | nil => rfl
  | cons item before => cases item <;> rfl

theorem repeated_counted (s : State) (cs : List Char) :
    (do
      let _ ← s.repeatLast 0 none
      let ((least, greatest), rest) ← readCounts s.flags cs
      (s.repeatLast least greatest).map (·, rest)) = repeated s '\x7b' cs := by
  have hquantifier : quantifier s.flags '\x7b' cs = readCounts s.flags cs := rfl
  unfold repeated andThen
  rw [hquantifier]
  cases s.repeatLast 0 none with
  | error e => rfl
  | ok _ => cases readCounts s.flags cs <;> rfl

/-- What a step does: it begins or ends a group or a branch, repeats the last part or reads the
next. -/
theorem State.step_eq (s : State) (c : Char) (cs : List Char) :
    s.step c cs =
      if c = '(' then readGroup s cs
      else if c = ')' then s.leave.map (·, cs)
      else if c = '|' then .ok (s.branch, cs)
      else if isQuantifier c then repeated s c cs
      else andThen (readAtom s.flags c cs) fun a rest => .ok (s.push a.1 a.2, rest) := by
  by_cases hoptional : c = '?'
  · subst hoptional
    exact repeatLast_allowed s (0, some 1) (dropLazy cs)
  by_cases hany : c = '*'
  · subst hany
    exact repeatLast_allowed s (0, none) (dropLazy cs)
  by_cases hsome : c = '+'
  · subst hsome
    exact repeatLast_allowed s (1, none) (dropLazy cs)
  by_cases hcounted : c = '\x7b'
  · subst hcounted
    exact repeated_counted s cs
  have hquantifier : isQuantifier c = false := by
    simp [isQuantifier, hoptional, hany, hsome, hcounted]
  unfold State.step
  simp only [hoptional, hany, hsome, hcounted, hquantifier, if_false, Bool.false_eq_true]
  unfold readAtom plainRegex andThen
  by_cases hclass : c = '['
  · subst hclass
    cases readClass s.flags cs <;> rfl
  by_cases hescape : c = '\\'
  · subst hescape
    cases readEscape s.flags cs <;> rfl
  simp only [hclass, hescape, if_false]
  split
  · rfl
  · split
    · rfl
    · split
      · rfl
      · split
        · rfl
        · split
          · rfl
          · split <;> rfl

/-- What comes next where the closing parenthesis was taken for something else, or a boundary was
read before a brace. -/
def CutShort (flags : Flags) (rest : List Char) : Prop :=
  rest = ['$'] ∨ ∃ more, rest = '\x7b' :: more ∧ dropSpace flags more = closing

theorem quantifier_follows (c : Char) (h : Continued cs cs') :
    Follows cs.length never (quantifier flags c cs) (quantifier flags c cs') := by
  obtain ⟨hlazy, hlen⟩ := dropLazy_continued h
  unfold quantifier
  split
  · exact follows_ok hlazy hlen
  · split
    · exact follows_ok hlazy hlen
    · split
      · exact follows_ok hlazy hlen
      · exact readCounts_follows h

/-- Whatever else a step reads is read alike, unless it is cut short. -/
theorem readAtom_follows (c : Char) (h : Continued cs cs') :
    Follows cs.length (fun _ rest => CutShort flags rest) (readAtom flags c cs)
      (readAtom flags c cs') := by
  unfold readAtom
  split
  · have hfollows : Follows cs.length never (readClass flags cs) (readClass flags cs') :=
      readClass_follows h
    exact hfollows.map (fun _ _ => rfl) (fun _ _ _ => rfl) fun _ _ hs => hs.elim
  · split
    · have hfollows : Follows cs.length (cutEscape flags) (readEscape flags cs)
          (readEscape flags cs') :=
        readEscape_follows h
      refine hfollows.map (fun _ _ => rfl) (fun _ _ _ => rfl) ?_
      rintro p rest (⟨-, hrest⟩ | ⟨l, -, -, hrest⟩)
      · exact .inl hrest
      · exact .inr hrest
    · exact follows_ok h (Nat.le_refl _)

/-- One step of the reader is the same before any continuation, unless it is cut short. -/
theorem step_follows (s : State) (c : Char) (h : Continued cs cs') :
    Follows cs.length (fun s' rest => CutShort s'.flags rest) (s.step c cs) (s.step c cs') := by
  rw [State.step_eq, State.step_eq]
  split
  · have hgroup := readGroup_follows s h
    cases hr : readGroup s cs with
    | error e => exact fun s' rest hr' => .inl (hgroup.of_error hr hr')
    | ok a => exact hgroup.of_ok hr
  · split
    · exact follows_map_pair s.leave id h (Nat.le_refl _)
    · split
      · exact follows_ok h (Nat.le_refl _)
      · split
        · unfold repeated
          cases s.repeatLast 0 none with
          | error e => exact follows_error
          | ok _ =>
            have hfollows : Follows cs.length never (quantifier s.flags c cs)
                (quantifier s.flags c cs') :=
              quantifier_follows c h
            refine hfollows.andThen ?_ fun _ _ _ _ hs _ => hs.elim
            exact fun bounds _ _ hrest hn => follows_map_pair _ id hrest hn
        · have hfollows : Follows cs.length (fun x rest => CutShort s.flags rest)
              (readAtom s.flags c cs) (readAtom s.flags c cs') :=
            readAtom_follows c h
          refine hfollows.andThen ?_ ?_
          · exact fun a _ _ hrest hn => follows_ok hrest hn
          · intro a rest s' rest' hcut hr
            obtain ⟨rfl, rfl⟩ := Prod.mk.inj (Except.ok.inj hr)
            exact hcut

end FlowLint.Pattern

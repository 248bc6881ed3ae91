import FlowLint.Proofs.Pattern.Matching
import FlowLint.Proofs.Pattern.StepContinuation

/-!
# Reading a text inside a group

A text that reads as a pattern reads the same between the parentheses of a group, since the reader
looks at the groups around it only when it closes one. What the closing characters then find is
the end of the text, or a comment that is open there and takes them in. A text that fails for
another reason than a parenthesis too many does not close the group around it either.
-/

namespace FlowLint.Pattern

variable {s s' final : State} {c : Char} {cs cs' rest rest' : List Char} {fuel fuel' : Nat}
  {e : Error}

/-! ## Running to the end -/

/-- Every step of the reader takes a character at least. -/
theorem length_step_lt (h : dropSpace s.flags cs = c :: rest)
    (hstep : s.step c rest = .ok (s', rest')) : rest'.length < cs.length := by
  have hspace := length_dropSpace_le s.flags cs
  have hle : rest'.length ≤ rest.length := (step_follows s c (.refl rest)).length_le hstep
  rw [h, List.length_cons] at hspace
  omega

/-- More fuel than there are characters makes no difference. -/
theorem run_fuel (hfuel : cs.length < fuel) (hfuel' : cs.length < fuel') :
    State.run fuel s cs = State.run fuel' s cs := by
  induction fuel generalizing s cs fuel' with
  | zero => omega
  | succ fuel ih =>
    obtain ⟨fuel', rfl⟩ : ∃ k, fuel' = k + 1 := ⟨fuel' - 1, by omega⟩
    rw [State.run, State.run]
    cases hcs : dropSpace s.flags cs with
    | nil => rfl
    | cons c rest =>
      dsimp only
      cases hstep : s.step c rest with
      | error e => rfl
      | ok a =>
        obtain ⟨s', rest'⟩ := a
        have hlen := length_step_lt hcs hstep
        exact ih (by omega) (by omega)

/-- Reading to the end of a text. -/
def State.reading (s : State) (cs : List Char) : Except Error State :=
  State.run (cs.length + 1) s cs

theorem reading_nil (h : dropSpace s.flags cs = []) : s.reading cs = .ok s := by
  rw [State.reading, State.run, h]

theorem reading_error (h : dropSpace s.flags cs = c :: rest) (hstep : s.step c rest = .error e) :
    s.reading cs = .error e := by
  simp only [State.reading, State.run, h, hstep]

theorem reading_step (h : dropSpace s.flags cs = c :: rest)
    (hstep : s.step c rest = .ok (s', rest')) : s.reading cs = s'.reading rest' := by
  have hlen := length_step_lt h hstep
  simp only [State.reading, State.run, h, hstep]
  exact run_fuel hlen (Nat.lt_succ_self _)

/-- What says nothing at the beginning of a text makes no difference. -/
theorem reading_congr (h : dropSpace s.flags cs = dropSpace s.flags cs') :
    s.reading cs = s.reading cs' := by
  cases hcs : dropSpace s.flags cs with
  | nil =>
    rw [hcs] at h
    rw [reading_nil hcs, reading_nil h.symm]
  | cons c rest =>
    rw [hcs] at h
    cases hstep : s.step c rest with
    | error e => rw [reading_error hcs hstep, reading_error h.symm hstep]
    | ok a =>
      obtain ⟨s', rest'⟩ := a
      rw [reading_step hcs hstep, reading_step h.symm hstep]

/-- What holds where nothing is left or a step fails, and before a step if it holds after it, holds
of all reading. -/
theorem reading_induction {motive : State → List Char → Prop}
    (done : ∀ s cs, dropSpace s.flags cs = [] → motive s cs)
    (failed : ∀ s cs c rest e, dropSpace s.flags cs = c :: rest → s.step c rest = .error e →
      motive s cs)
    (step : ∀ s cs c rest s' rest', dropSpace s.flags cs = c :: rest →
      s.step c rest = .ok (s', rest') → motive s' rest' → motive s cs)
    (s : State) (cs : List Char) : motive s cs := by
  induction hn : cs.length using Nat.strongRecOn generalizing s cs with
  | ind n ih =>
    cases hcs : dropSpace s.flags cs with
    | nil => exact done s cs hcs
    | cons c rest =>
      cases hstep : s.step c rest with
      | error e => exact failed s cs c rest e hcs hstep
      | ok a =>
        obtain ⟨s', rest'⟩ := a
        have hlen := length_step_lt hcs hstep
        exact step s cs c rest s' rest' hcs hstep (ih _ (by omega) s' rest' rfl)

theorem parse_eq (text : String) :
    parse text =
      match ({} : State).reading text.toList with
      | .error e => .error e
      | .ok final =>
        if !final.outer.isEmpty then .error .unclosedGroup
        else if final.content.depth > nestingLimit then .error .tooDeep
        else .ok final.content.regex := by
  rw [State.reading, String.length_toList]
  rfl

/-- A text is a pattern if it can be read, leaves no group open and does not nest too deep. -/
theorem parse_ok_iff {text : String} {r : Regex} :
    parse text = .ok r ↔ ∃ final, ({} : State).reading text.toList = .ok final ∧
      final.outer = [] ∧ final.content.depth ≤ nestingLimit ∧ final.content.regex = r := by
  rw [parse_eq]
  cases ({} : State).reading text.toList with
  | error e => simp
  | ok final =>
    simp only [Except.ok.injEq, exists_eq_left']
    cases houter : final.outer with
    | cons g others => simp
    | nil =>
      by_cases hdepth : final.content.depth > nestingLimit
      · simp [hdepth, Nat.not_le_of_lt hdepth]
      · simp [hdepth, Nat.le_of_not_lt hdepth]

theorem parse_unclosed {text : String} (h : ({} : State).reading text.toList = .ok final)
    (houter : final.outer ≠ []) : parse text = .error .unclosedGroup := by
  rw [parse_eq, h]
  simp [houter]

/-! ## What a step does -/

/-- The states that a step can lead to, by the character it begins with. -/
inductive Advance (s : State) : Char → State → Prop
  | enter (flags : Flags) (names : List (List Char)) :
      Advance s '(' { s.enter flags with names := names }
  | setFlags (flags : Flags) : Advance s '(' { s with flags := flags, items := .flags :: s.items }
  | leave {s' : State} (h : s.leave = .ok s') : Advance s ')' s'
  | branch : Advance s '|' s.branch
  | repeated {c : Char} {s' : State} {bounds : Nat × Option Nat}
      (hordered : ∀ most ∈ bounds.2, bounds.1 ≤ most)
      (h : s.repeatLast bounds.1 bounds.2 = .ok s') : Advance s c s'
  | push {c : Char} {r : Regex} {depth : Nat} (h : r.Orderly) : Advance s c (s.push r depth)

/-- A repetition applies to the last item, which has to be there. -/
theorem repeatLast_ok {least : Nat} {greatest : Option Nat}
    (h : s.repeatLast least greatest = .ok s') : ∃ r depth before,
      s.items = .node r depth :: before ∧
        s' = { s with items := .node (.rep r least greatest) (depth + 1) :: before } := by
  unfold State.repeatLast at h
  split at h
  · next r depth before hitems => exact ⟨r, depth, before, hitems, (Except.ok.inj h).symm⟩
  · cases h

theorem andThen_ok {α β : Type} {r : Except Error (α × List Char)}
    {f : α → List Char → Except Error (β × List Char)} {y : β × List Char}
    (h : andThen r f = .ok y) : ∃ x rest, r = .ok (x, rest) ∧ f x rest = .ok y := by
  cases r with
  | error e => cases h
  | ok a => exact ⟨a.1, a.2, rfl, h⟩

theorem map_pair_ok {α : Type} {x : Except Error α} {y : α}
    (h : x.map (·, cs) = .ok (y, rest)) : x = .ok y ∧ rest = cs := by
  cases x with
  | error e => cases h
  | ok a =>
    obtain ⟨rfl, rfl⟩ := Prod.mk.inj (Except.ok.inj h)
    exact ⟨rfl, rfl⟩

theorem advance_of_readGroup (h : readGroup s cs = .ok (s', rest)) : Advance s '(' s' := by
  have hnamed : ∀ {cs}, namedGroup s cs = .ok (s', rest) → Advance s '(' s' := by
    intro cs h
    obtain ⟨name, more, -, h⟩ := andThen_ok h
    split at h
    · cases h
    · obtain ⟨rfl, -⟩ := Prod.mk.inj (Except.ok.inj h)
      exact .enter s.flags _
  have hflags : ∀ {cs}, flagGroup s cs = .ok (s', rest) → Advance s '(' s' := by
    intro cs h
    obtain ⟨setting, more, -, h⟩ := andThen_ok h
    split at h
    · obtain ⟨rfl, -⟩ := Prod.mk.inj (Except.ok.inj h)
      exact .enter setting.1 s.names
    · split at h
      · obtain ⟨rfl, -⟩ := Prod.mk.inj (Except.ok.inj h)
        exact .setFlags setting.1
      · cases h
  by_cases hmark : (dropSpace s.flags cs).head? = some '?'
  · obtain ⟨more, hmore⟩ := List.head?_eq_some_iff.mp hmark
    rw [readGroup_marked hmore] at h
    unfold markedGroup at h
    split at h
    · cases h
    · split at h
      · split at h
        · cases h
        · exact hnamed h
      · split at h
        · exact hnamed h
        · split at h
          · cases h
          · exact hflags h
  · rw [readGroup_plain rfl hmark] at h
    obtain ⟨rfl, -⟩ := Prod.mk.inj (Except.ok.inj h)
    exact .enter s.flags s.names

theorem quantifier_ordered {flags : Flags} {bounds : Nat × Option Nat}
    (h : quantifier flags c cs = .ok (bounds, rest)) : ∀ most ∈ bounds.2, bounds.1 ≤ most := by
  unfold quantifier at h
  split at h
  · obtain ⟨rfl, -⟩ := Prod.mk.inj (Except.ok.inj h)
    simp
  · split at h
    · obtain ⟨rfl, -⟩ := Prod.mk.inj (Except.ok.inj h)
      simp
    · split at h
      · obtain ⟨rfl, -⟩ := Prod.mk.inj (Except.ok.inj h)
        simp
      · exact readCounts_ordered h

theorem primitive_orderly (flags : Flags) (p : Primitive) : (p.regex flags).Orderly := by
  cases p <;> trivial

theorem plainRegex_orderly (flags : Flags) (c : Char) : (plainRegex flags c).Orderly := by
  unfold plainRegex
  split
  · unfold dotRegex
    split
    · trivial
    · split <;> trivial
  · split
    · trivial
    · split
      · trivial
      · exact primitive_orderly flags _

theorem readAtom_orderly {flags : Flags} {a : Regex × Nat}
    (h : readAtom flags c cs = .ok (a, rest)) : a.1.Orderly := by
  unfold readAtom at h
  split at h
  · cases hclass : readClass flags cs with
    | error e =>
      rw [hclass] at h
      cases h
    | ok n =>
      rw [hclass] at h
      obtain ⟨rfl, -⟩ := Prod.mk.inj (Except.ok.inj h)
      trivial
  · split at h
    · cases hescape : readEscape flags cs with
      | error e =>
        rw [hescape] at h
        cases h
      | ok p =>
        rw [hescape] at h
        obtain ⟨rfl, -⟩ := Prod.mk.inj (Except.ok.inj h)
        exact primitive_orderly flags p.1
    · obtain ⟨rfl, -⟩ := Prod.mk.inj (Except.ok.inj h)
      exact plainRegex_orderly flags c

/-- What one step of the reader can do. -/
theorem advance_of_step (h : s.step c cs = .ok (s', rest)) : Advance s c s' := by
  rw [State.step_eq] at h
  split at h
  · next hc =>
    subst hc
    exact advance_of_readGroup h
  · split at h
    · next hc =>
      subst hc
      exact .leave (map_pair_ok h).1
    · split at h
      · next hc =>
        subst hc
        obtain ⟨rfl, -⟩ := Prod.mk.inj (Except.ok.inj h)
        exact .branch
      · split at h
        · unfold repeated at h
          cases hrepeat : s.repeatLast 0 none with
          | error e =>
            rw [hrepeat] at h
            cases h
          | ok _ =>
            rw [hrepeat] at h
            obtain ⟨bounds, more, hbounds, h⟩ := andThen_ok h
            have hbounded : ∀ most ∈ bounds.2, bounds.1 ≤ most :=
              quantifier_ordered hbounds
            exact .repeated hbounded (map_pair_ok h).1
        · obtain ⟨a, more, ha, h⟩ := andThen_ok h
          obtain ⟨rfl, -⟩ := Prod.mk.inj (Except.ok.inj h)
          exact .push (readAtom_orderly ha)

/-! ## Inside a group -/

/-- The reader inside one more group, around all others. -/
def State.inside (s : State) (g : OpenGroup) : State :=
  { s with outer := s.outer ++ [g] }

variable {g : OpenGroup}

/-- A result inside one more group. -/
def insideOf (g : OpenGroup) (r : Except Error (State × List Char)) :
    Except Error (State × List Char) :=
  r.map fun p => (p.1.inside g, p.2)

theorem readGroup_inside (s : State) (g : OpenGroup) (cs : List Char) :
    readGroup (s.inside g) cs = insideOf g (readGroup s cs) := by
  have hnamed : ∀ cs, namedGroup (s.inside g) cs = insideOf g (namedGroup s cs) := by
    intro cs
    unfold namedGroup andThen insideOf
    cases readGroupName cs with
    | error e => rfl
    | ok a =>
      change (if s.names.contains a.1 then _ else _) =
        Except.map _ (if s.names.contains a.1 then _ else _)
      split <;> rfl
  have hflags : ∀ cs, flagGroup (s.inside g) cs = insideOf g (flagGroup s cs) := by
    intro cs
    have hread : readFlags { flags := (s.inside g).flags } cs = readFlags { flags := s.flags } cs :=
      rfl
    unfold flagGroup andThen insideOf
    rw [hread]
    cases readFlags { flags := s.flags } cs with
    | error e => rfl
    | ok a =>
      dsimp only
      split
      · rfl
      · split <;> rfl
  by_cases hmark : (dropSpace s.flags cs).head? = some '?'
  · obtain ⟨rest, hrest⟩ := List.head?_eq_some_iff.mp hmark
    rw [readGroup_marked hrest, readGroup_marked (s := s.inside g) hrest]
    unfold markedGroup
    split
    · rfl
    · split
      · split
        · rfl
        · exact hnamed _
      · split
        · exact hnamed _
        · split
          · rfl
          · exact hflags _
  · rw [readGroup_plain rfl hmark, readGroup_plain (s := s.inside g) rfl hmark]
    rfl

theorem repeatLast_inside (s : State) (g : OpenGroup) (least : Nat) (greatest : Option Nat) :
    (s.inside g).repeatLast least greatest = (s.repeatLast least greatest).map (·.inside g) := by
  have hitems : (s.inside g).items = s.items := rfl
  unfold State.repeatLast
  rw [hitems]
  cases s.items with
  | nil => rfl
  | cons item before => cases item <;> rfl

theorem repeated_inside (s : State) (g : OpenGroup) (c : Char) (cs : List Char) :
    repeated (s.inside g) c cs = insideOf g (repeated s c cs) := by
  unfold repeated
  have hflags : (s.inside g).flags = s.flags := rfl
  rw [repeatLast_inside, hflags]
  cases s.repeatLast 0 none with
  | error e => rfl
  | ok _ =>
    simp only [Except.map, andThen]
    cases quantifier s.flags c cs with
    | error e => rfl
    | ok a =>
      dsimp only
      rw [repeatLast_inside]
      cases s.repeatLast a.1.1 a.1.2 <;> rfl

/-- Inside a further group, groups are left as they are outside of it. -/
theorem leave_inside (h : s.leave ≠ .error .unopenedGroup) :
    (s.inside g).leave = s.leave.map (·.inside g) := by
  unfold State.leave at h ⊢
  cases houter : s.outer with
  | nil =>
    rw [houter] at h
    exact absurd rfl h
  | cons first others =>
    simp only [State.inside, houter, List.cons_append, Except.map]
    rfl

/-- A step does the same inside one more group, unless there was no group that it could close. -/
theorem step_inside (h : s.step c cs ≠ .error .unopenedGroup) :
    (s.inside g).step c cs = insideOf g (s.step c cs) := by
  rw [State.step_eq] at h
  rw [State.step_eq, State.step_eq]
  split
  · exact readGroup_inside s g cs
  · next hopen =>
    rw [if_neg hopen] at h
    split
    · next hclose =>
      rw [if_pos hclose] at h
      have hleave : s.leave ≠ .error .unopenedGroup := by
        intro hleave
        rw [hleave] at h
        exact h rfl
      rw [leave_inside hleave]
      cases s.leave <;> rfl
    · split
      · rfl
      · split
        · exact repeated_inside s g c cs
        · have hflags : (s.inside g).flags = s.flags := rfl
          rw [hflags]
          cases readAtom s.flags c cs <;> rfl

theorem step_inside_ok (h : s.step c cs = .ok (s', rest)) (g : OpenGroup) :
    (s.inside g).step c cs = .ok (s'.inside g, rest) := by
  rw [step_inside (by rw [h]; exact fun h => by cases h), h]
  rfl

/-! ## Where the closing characters come -/

/-- A text that is read to its end is read as far when it goes on. The closing characters are still
to come then, or there is nothing more. -/
theorem reading_continued (h : Continued cs cs') (hr : s.reading cs = .ok final) :
    ∃ rest, (rest = closing ∨ rest = []) ∧ s.reading cs' = final.reading rest ∧
      ∀ g, (s.inside g).reading cs' = (final.inside g).reading rest := by
  induction s, cs using reading_induction generalizing cs' with
  | done s cs hcs =>
    rw [reading_nil hcs] at hr
    obtain rfl := Except.ok.inj hr
    have hlast : ∃ rest, (rest = closing ∨ rest = []) ∧
        dropSpace s.flags cs' = dropSpace s.flags rest := by
      rcases dropSpace_nil h hcs with h' | h'
      · exact ⟨closing, .inl rfl, by rw [h', dropSpace_closing]⟩
      · exact ⟨[], .inr rfl, by rw [h', dropSpace_empty]⟩
    obtain ⟨rest, hrest, hsame⟩ := hlast
    have hreadingCongr : s.reading cs' = s.reading rest := reading_congr hsame
    exact ⟨rest, hrest, hreadingCongr, fun g => reading_congr (s := s.inside g) hsame⟩
  | failed s cs c rest e hcs hstep =>
    rw [reading_error hcs hstep] at hr
    cases hr
  | step s cs c rest s₁ rest₁ hcs hstep ih =>
    rw [reading_step hcs hstep] at hr
    obtain ⟨rest', hcs', hrest, -⟩ := dropSpace_cons h hcs
    have hfollows : Follows rest.length (fun s' rest => CutShort s'.flags rest) (s.step c rest)
        (s.step c rest') :=
      step_follows s c hrest
    obtain ⟨rest₁', hstep', hrest₁, -⟩ := hfollows.of_ok hstep
    obtain ⟨last, hlast, hread, hinside⟩ := ih hrest₁ hr
    have hreading : s.reading cs' = final.reading last := (reading_step hcs' hstep').trans hread
    refine ⟨last, hlast, hreading, fun g => ?_⟩
    have hstepInside : (s.inside g).step c rest' = .ok (s₁.inside g, rest₁') :=
      step_inside_ok hstep' g
    exact (reading_step (s := s.inside g) hcs' hstepInside).trans (hinside g)

/-- Only a closing parenthesis takes a step out of a group. -/
theorem outer_ne_nil_of_step (hc : c ≠ ')') (h : s.step c cs = .ok (s', rest))
    (houter : s.outer ≠ []) : s'.outer ≠ [] := by
  cases advance_of_step h with
  | enter => exact List.cons_ne_nil _ _
  | setFlags => exact houter
  | leave => exact absurd rfl hc
  | branch => exact houter
  | repeated _ hrepeat =>
    obtain ⟨r, depth, before, -, rfl⟩ := repeatLast_ok hrepeat
    exact houter
  | push => exact houter

/-- What can be wrong with a closing parenthesis. -/
theorem error_of_close (h : s.step ')' cs = .error e) : e = .unopenedGroup := by
  change s.leave.map (·, cs) = .error e at h
  unfold State.leave at h
  split at h
  · exact (Except.error.inj h).symm
  · cases h

/-- Where the text was cut short, its group stays open. -/
theorem reading_cutShort (h : CutShort s.flags cs) (houter : s.outer ≠ [])
    (hr : s.reading cs = .ok final) : final.outer ≠ [] := by
  rcases h with rfl | ⟨more, rfl, hmore⟩
  · have hstep : s.step '$' [] = .ok (s.push (.look (endLook s.flags)) 0, []) := rfl
    have hnil : dropSpace (s.push (Regex.look (endLook s.flags)) 0).flags [] = [] :=
      dropSpace_empty _
    have hdollar : dropSpace s.flags ['$'] = ['$'] := dropSpace_dollar s.flags
    rw [reading_step hdollar hstep, reading_nil hnil] at hr
    obtain rfl := Except.ok.inj hr
    exact houter
  · obtain ⟨e, he⟩ := readCounts_closing hmore
    have hstep : ∃ e, s.step '\x7b' more = .error e := by
      have hquantifier : quantifier s.flags '\x7b' more = .error e := he
      rw [State.step_eq]
      change ∃ e, repeated s '\x7b' more = .error e
      unfold repeated
      cases s.repeatLast 0 none with
      | error e => exact ⟨e, rfl⟩
      | ok _ => exact ⟨e, by rw [hquantifier]; rfl⟩
    obtain ⟨e, hstep⟩ := hstep
    have hspace : dropSpace s.flags ('{' :: more) = '{' :: more :=
      dropSpace_plain s.flags rfl (by decide)
    rw [reading_error hspace hstep] at hr
    cases hr

/-- Where a text is refused, a continuation of it stays inside a group at best. -/
theorem reading_failed (h : Continued cs cs') (hr : s.reading cs = .error e)
    (he : e ≠ .unopenedGroup) (hfinal : (s.inside g).reading cs' = .ok final) :
    final.outer ≠ [] := by
  induction s, cs using reading_induction generalizing cs' with
  | done s cs hcs =>
    rw [reading_nil hcs] at hr
    cases hr
  | failed s cs c rest e' hcs hstep =>
    rw [reading_error hcs hstep] at hr
    obtain rfl := Except.error.inj hr
    obtain ⟨rest', hcs', hrest, -⟩ := dropSpace_cons h hcs
    have hstep_inside : (s.inside g).step c rest = .error e' := by
      rw [step_inside (by rw [hstep]; exact fun h => he (Except.error.inj h)), hstep]
      rfl
    cases hstep' : (s.inside g).step c rest' with
    | error e'' =>
      rw [reading_error (s := s.inside g) hcs' hstep'] at hfinal
      cases hfinal
    | ok a =>
      obtain ⟨s₁, last⟩ := a
      rw [reading_step (s := s.inside g) hcs' hstep'] at hfinal
      have hcut : CutShort s₁.flags last :=
        (step_follows (s.inside g) c hrest).of_error hstep_inside hstep'
      refine reading_cutShort hcut (outer_ne_nil_of_step ?_ hstep' ?_) hfinal
      · rintro rfl
        exact he (error_of_close hstep)
      · simp [State.inside]
  | step s cs c rest s₁ rest₁ hcs hstep ih =>
    rw [reading_step hcs hstep] at hr
    obtain ⟨rest', hcs', hrest, -⟩ := dropSpace_cons h hcs
    have hfollows : Follows rest.length (fun s' rest => CutShort s'.flags rest) (s.step c rest)
        (s.step c rest') :=
      step_follows s c hrest
    obtain ⟨rest₁', hstep', hrest₁, -⟩ := hfollows.of_ok hstep
    have hstepInside : (s.inside g).step c rest' = .ok (s₁.inside g, rest₁') :=
      step_inside_ok hstep' g
    rw [reading_step (s := s.inside g) hcs' hstepInside] at hfinal
    exact ih hrest₁ hr hfinal

/-- The closing characters end a group and the text. -/
theorem reading_closing {others : List OpenGroup} (h : s.outer = g :: others) :
    s.reading closing = .ok
      { flags := g.flags, branches := g.branches, outer := others, names := s.names,
        items := .node (.look (endLook g.flags)) 0 ::
          .node s.content.regex (s.content.depth + 1) :: g.items } := by
  have hclose : s.step ')' ['$'] = .ok
      ({ flags := g.flags, branches := g.branches, outer := others, names := s.names,
         items := .node s.content.regex (s.content.depth + 1) :: g.items }, ['$']) := by
    change s.leave.map (·, ['$']) = _
    unfold State.leave
    rw [h]
    rfl
  have hspace : dropSpace s.flags closing = closing := dropSpace_closing s.flags
  have hdollar : dropSpace g.flags ['$'] = ['$'] := dropSpace_dollar g.flags
  rw [reading_step hspace hclose, reading_step hdollar rfl]
  exact reading_nil (dropSpace_empty g.flags)

theorem reading_closing_outermost (h : s.outer = []) :
    s.reading closing = .error .unopenedGroup := by
  have hspace : dropSpace s.flags closing = closing := dropSpace_closing s.flags
  refine reading_error hspace ?_
  change s.leave.map (·, ['$']) = _
  unfold State.leave
  rw [h]
  rfl

/-! ## Patterns read are orderly -/

theorem seqOf_orderly {rs : List Regex} (h : ∀ r ∈ rs, r.Orderly) : (Regex.seqOf rs).Orderly := by
  fun_induction Regex.seqOf rs with
  | case1 => trivial
  | case2 r => exact h r List.mem_cons_self
  | case3 r rest _ ih =>
    have horderly : (Regex.seqOf rest).Orderly := ih fun r hr => h r (List.mem_cons_of_mem _ hr)
    exact ⟨h r List.mem_cons_self, horderly⟩

theorem altOf_orderly {first : Regex} {rs : List Regex} (hfirst : first.Orderly)
    (h : ∀ r ∈ rs, r.Orderly) : (Regex.altOf first rs).Orderly := by
  induction rs generalizing first with
  | nil => exact hfirst
  | cons r rest ih =>
    have horderly : (r.altOf rest).Orderly :=
      ih (h r List.mem_cons_self) fun r hr => h r (List.mem_cons_of_mem _ hr)
    exact ⟨hfirst, horderly⟩

/-- The patterns of items are orderly. -/
def AllOrderly (items : List Item) : Prop :=
  ∀ i ∈ items, i.regex.Orderly

theorem AllOrderly.cons {i : Item} {items : List Item} (hi : i.regex.Orderly)
    (h : AllOrderly items) : AllOrderly (i :: items) :=
  List.forall_mem_cons.mpr ⟨hi, h⟩

/-- What has been read of a pattern is orderly. -/
structure State.Orderly (s : State) : Prop where
  items : AllOrderly s.items
  branches : AllOrderly s.branches
  outer : ∀ g ∈ s.outer, AllOrderly g.items ∧ AllOrderly g.branches

theorem sequenceOf_orderly {items : List Item} (h : AllOrderly items) :
    (sequenceOf items).regex.Orderly := by
  refine seqOf_orderly fun r hr => ?_
  obtain ⟨i, hi, rfl⟩ := List.mem_map.mp hr
  have hmem : i ∈ items := List.mem_reverse.mp (List.mem_of_mem_filter hi)
  exact h i hmem

theorem content_orderly (h : s.Orderly) : s.content.regex.Orderly := by
  have hall : AllOrderly (sequenceOf s.items :: s.branches).reverse := fun i hi =>
    AllOrderly.cons (sequenceOf_orderly h.items) h.branches i (List.mem_reverse.mp hi)
  change (Regex.altOf ((sequenceOf s.items :: s.branches).reverse.headD _).regex
    ((sequenceOf s.items :: s.branches).reverse.tail.map Item.regex)).Orderly
  generalize (sequenceOf s.items :: s.branches).reverse = all at hall
  cases all with
  | nil => exact sequenceOf_orderly h.items
  | cons first others =>
    have horderly : first.regex.Orderly := hall first List.mem_cons_self
    refine altOf_orderly horderly fun r hr => ?_
    obtain ⟨i, hi, rfl⟩ := List.mem_map.mp hr
    exact hall i (List.mem_cons_of_mem _ hi)

theorem step_orderly (h : s.Orderly) (hstep : s.step c cs = .ok (s', rest)) : s'.Orderly := by
  cases advance_of_step hstep with
  | enter flags names =>
    refine ⟨fun i hi => ?_, fun i hi => ?_, ?_⟩
    · cases hi
    · cases hi
    · exact List.forall_mem_cons.mpr ⟨⟨h.items, h.branches⟩, h.outer⟩
  | setFlags flags =>
    have horderly : AllOrderly (Item.flags :: s.items) := h.items.cons trivial
    exact ⟨horderly, h.branches, h.outer⟩
  | leave hleave =>
    unfold State.leave at hleave
    split at hleave
    · cases hleave
    · next g others houter =>
      obtain rfl := Except.ok.inj hleave
      have hgroups := h.outer
      rw [houter] at hgroups
      obtain ⟨⟨hitems, hbranches⟩, hothers⟩ := List.forall_mem_cons.mp hgroups
      have horderly : AllOrderly (Item.node s.content.regex (s.content.depth + 1) :: g.items) :=
        hitems.cons (content_orderly h)
      exact ⟨horderly, hbranches, hothers⟩
  | branch =>
    have horderly : AllOrderly (sequenceOf s.items :: s.branches) :=
      h.branches.cons (sequenceOf_orderly h.items)
    refine ⟨fun i hi => ?_, horderly, h.outer⟩
    cases hi
  | repeated hordered hrepeat =>
    obtain ⟨r, depth, before, hitems, rfl⟩ := repeatLast_ok hrepeat
    have hall := h.items
    rw [hitems] at hall
    obtain ⟨hr, hbefore⟩ := List.forall_mem_cons.mp hall
    exact ⟨AllOrderly.cons ⟨hr, hordered⟩ hbefore, h.branches, h.outer⟩
  | push hr => exact ⟨h.items.cons hr, h.branches, h.outer⟩

/-- Reading keeps counts in order. -/
theorem reading_orderly (h : s.Orderly) (hr : s.reading cs = .ok final) : final.Orderly := by
  induction s, cs using reading_induction with
  | done s cs hcs =>
    rw [reading_nil hcs] at hr
    obtain rfl := Except.ok.inj hr
    exact h
  | failed s cs c rest e hcs hstep =>
    rw [reading_error hcs hstep] at hr
    cases hr
  | step s cs c rest s' rest' hcs hstep ih =>
    rw [reading_step hcs hstep] at hr
    exact ih (step_orderly h hstep) hr

/-- The counts of an expression that is read are in order. -/
theorem parse_orderly {text : String} {r : Regex} (h : parse text = .ok r) : r.Orderly := by
  obtain ⟨final, hfinal, -, -, rfl⟩ := parse_ok_iff.mp h
  have hempty : ({} : State).Orderly := by
    refine ⟨?_, ?_, ?_⟩ <;> intro i hi <;> cases hi
  have horderly : final.Orderly := reading_orderly hempty hfinal
  exact content_orderly horderly

end FlowLint.Pattern

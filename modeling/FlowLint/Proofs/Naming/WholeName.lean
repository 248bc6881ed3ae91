import FlowLint.Naming.Scheme
import FlowLint.Proofs.Pattern.Reading

/-!
# Names matched as a whole

A naming scheme puts the text of a pattern between `^(?:` and `)$` and searches names for the
result. For a pattern this means that the whole name has to match, since the group keeps the two
ends apart from whatever the text says. Two things get in the way. A comment that is open at the
end of the text takes in the parenthesis, and the scheme is refused; so it is where the text nests
almost as deep as texts may, for the group nests it deeper. And a text that is no pattern because it
closes a group it did not open may close the one around it: what follows is then tied to one end of
the name at most. Nothing is said here of what such a scheme matches.

Two things that patterns may hold are not read here, and a text with one of them is refused like any
other that is no pattern: the flag that switches Unicode off, as in `(?-u)`, and in `\p` the
properties that `propertyNames` does not list, those of scripts among them.
-/

namespace FlowLint.Naming.Scheme

open FlowLint.Pattern

variable {text : String} {r : Regex} {e : Pattern.Error}

/-! ## The group around a text -/

/-- The group that the text is put into. -/
def aroundText : OpenGroup := ⟨[.node (.look .textStart) 0], [], {}⟩

/-- A pattern between the two ends of a text. -/
def betweenEnds (r : Regex) : Regex := .seq (.look .textStart) (.seq r (.look .textEnd))

/-- How deep the text of a pattern nests. -/
def nesting (text : String) : Nat :=
  match State.run (text.length + 1) {} text.toList with
  | .ok s => s.content.depth
  | .error _ => 0

/-- A comment is open at the end of the text of a pattern: it takes in a parenthesis that closes
nothing. -/
def EndsInComment (text : String) : Prop :=
  ∃ r, parse text = .ok r ∧ parse (text ++ ")$") = .ok r

theorem toList_anchored (text : String) :
    (anchored text).toList = '^' :: '(' :: '?' :: ':' :: (text.toList ++ closing) := by
  simp only [anchored, String.toList_append]
  rfl

theorem reading_anchored (text : String) :
    ({} : State).reading (anchored text).toList =
      (({} : State).inside aroundText).reading (text.toList ++ closing) := by
  have hstart : ({} : State).step '^' ('(' :: '?' :: ':' :: (text.toList ++ closing)) =
      .ok (({} : State).push (.look .textStart) 0, '(' :: '?' :: ':' :: (text.toList ++ closing)) :=
    rfl
  have hgroup : (({} : State).push (.look .textStart) 0).step '('
      ('?' :: ':' :: (text.toList ++ closing)) =
        .ok (({} : State).inside aroundText, text.toList ++ closing) := rfl
  rw [toList_anchored, reading_step rfl hstart, reading_step rfl hgroup]

theorem nesting_eq {final : State} (h : ({} : State).reading text.toList = .ok final) :
    nesting text = final.content.depth := by
  have hrun : State.run (text.length + 1) {} text.toList = .ok final := by
    rw [← String.length_toList]
    exact h
  rw [nesting, hrun]

/-- A text that is read is read as far inside the group. -/
theorem reading_around {final : State} (h : ({} : State).reading text.toList = .ok final) :
    ∃ rest, (rest = closing ∨ rest = []) ∧
      ({} : State).reading (text ++ ")$").toList = final.reading rest ∧
      ({} : State).reading (anchored text).toList = (final.inside aroundText).reading rest := by
  have hcont : Continued text.toList (text.toList ++ closing) := .inl rfl
  obtain ⟨rest, hrest, hplain, hinside⟩ := reading_continued hcont h
  refine ⟨rest, hrest, ?_, (reading_anchored text).trans (hinside aroundText)⟩
  rw [String.toList_append]
  exact hplain

/-- The group around a text is closed if no other is open. -/
theorem parse_anchored_closed {final : State} (houter : final.outer = [])
    (h : ({} : State).reading (anchored text).toList =
      (final.inside aroundText).reading closing) :
    parse (anchored text) =
      if final.content.depth + 2 > nestingLimit then .error .tooDeep
      else .ok (betweenEnds final.content.regex) := by
  have hinside : (final.inside aroundText).outer = [aroundText] := by
    simp [State.inside, houter]
  have hdepth : depthOf [depthOf [0, final.content.depth + 1, 0]] = final.content.depth + 2 := by
    simp [depthOf]
  rw [parse_eq, h, reading_closing hinside, ← hdepth]
  rfl

/-- A text that leaves a group open is refused, whatever is put behind it. -/
theorem parse_anchored_open {final : State} (houter : final.outer ≠ []) {rest : List Char}
    (hrest : rest = closing ∨ rest = [])
    (h : ({} : State).reading (anchored text).toList = (final.inside aroundText).reading rest) :
    parse (anchored text) = .error .unclosedGroup := by
  obtain ⟨g, others, houter⟩ := List.exists_cons_of_ne_nil houter
  have hinside : (final.inside aroundText).outer = g :: (others ++ [aroundText]) := by
    simp [State.inside, houter]
  rcases hrest with rfl | rfl
  · rw [reading_closing hinside] at h
    exact parse_unclosed h (by simp)
  · have hnil : dropSpace (final.inside aroundText).flags [] = [] := dropSpace_empty _
    rw [reading_nil hnil] at h
    exact parse_unclosed h (by simp [hinside])

/-- Anchoring a pattern keeps it, unless a comment at its end swallows what is put behind it or the
nesting becomes too deep. -/
theorem parse_anchored_of_ok (h : parse text = .ok r) :
    EndsInComment text ∧ parse (anchored text) = .error .unclosedGroup ∨
      ¬EndsInComment text ∧ parse (anchored text) =
        if nesting text + 2 > nestingLimit then .error .tooDeep else .ok (betweenEnds r) := by
  obtain ⟨final, hfinal, houter, hdepth, rfl⟩ := parse_ok_iff.mp h
  obtain ⟨rest, hrest, hplain, hanchored⟩ := reading_around hfinal
  rcases hrest with rfl | rfl
  · refine .inr ⟨?_, ?_⟩
    · rintro ⟨r, -, hr⟩
      rw [parse_eq, hplain, reading_closing_outermost houter] at hr
      cases hr
    · rw [nesting_eq hfinal]
      exact parse_anchored_closed houter hanchored
  · have hend : final.reading [] = .ok final := reading_nil (dropSpace_empty _)
    refine .inl ⟨⟨_, h, ?_⟩, ?_⟩
    · rw [hend] at hplain
      exact parse_ok_iff.mpr ⟨final, hplain, houter, hdepth, rfl⟩
    · have hnil : dropSpace (final.inside aroundText).flags [] = [] := dropSpace_empty _
      rw [reading_nil hnil] at hanchored
      exact parse_unclosed hanchored (by simp [State.inside])

/-- Anchoring saves no pattern that is refused, except one that closes a group it did not open. -/
theorem parse_anchored_of_error (h : parse text = .error e) (he : e ≠ .unopenedGroup) :
    ∃ e', parse (anchored text) = .error e' := by
  cases hfinal : ({} : State).reading text.toList with
  | error e' =>
    have hsame : e' = e := by
      rw [parse_eq, hfinal] at h
      exact Except.error.inj h
    cases hanchored : ({} : State).reading (anchored text).toList with
    | error e'' => exact ⟨e'', by rw [parse_eq, hanchored]⟩
    | ok f =>
      have hcont : Continued text.toList (text.toList ++ closing) := .inl rfl
      have hinside := hanchored
      rw [reading_anchored] at hinside
      have hne : f.outer ≠ [] := reading_failed hcont hfinal (by rw [hsame]; exact he) hinside
      exact ⟨_, parse_unclosed hanchored hne⟩
  | ok final =>
    obtain ⟨rest, hrest, -, hanchored⟩ := reading_around hfinal
    by_cases houter : final.outer = []
    · rcases hrest with rfl | rfl
      · -- Then the text nests too deep, and all the deeper inside the group.
        have hdeep : final.content.depth > nestingLimit := by
          by_contra hle
          have hok := parse_ok_iff.mpr ⟨final, hfinal, houter, Nat.le_of_not_lt hle, rfl⟩
          rw [hok] at h
          cases h
        refine ⟨.tooDeep, ?_⟩
        rw [parse_anchored_closed houter hanchored, if_pos (by omega)]
      · have hnil : dropSpace (final.inside aroundText).flags [] = [] := dropSpace_empty _
        rw [reading_nil hnil] at hanchored
        have hparse : parse (anchored text) = .error Error.unclosedGroup :=
          parse_unclosed hanchored (by simp [State.inside])
        exact ⟨_, hparse⟩
    · have hparse : parse (anchored text) = .error Error.unclosedGroup :=
        parse_anchored_open houter hrest hanchored
      exact ⟨_, hparse⟩

/-- The texts that are patterns inside the group are the patterns that let it be closed and leave
room for it. -/
theorem parse_anchored_ok_iff {q : Regex} (h : parse text ≠ .error .unopenedGroup) :
    parse (anchored text) = .ok q ↔ ∃ r, parse text = .ok r ∧ ¬EndsInComment text ∧
      nesting text + 2 ≤ nestingLimit ∧ betweenEnds r = q := by
  cases htext : parse text with
  | error e =>
    have he : e ≠ .unopenedGroup := fun he => h (by rw [htext, he])
    obtain ⟨e', he'⟩ := parse_anchored_of_error htext he
    simp [he']
  | ok r =>
    rcases parse_anchored_of_ok htext with ⟨hcomment, hanchored⟩ | ⟨hcomment, hanchored⟩
    · simp [hanchored, hcomment]
    · by_cases hdepth : nesting text + 2 > nestingLimit
      · simp [hanchored, hdepth, Nat.not_le_of_lt hdepth]
      · simp [hanchored, hdepth, hcomment, Nat.le_of_not_lt hdepth]

/-! ## What schemes match -/

/-- Between the two ends a search finds the whole name or nothing. -/
theorem betweenEnds_matchesIn {name : List Char} :
    (betweenEnds r).MatchesIn none name ↔ r.Matches none name none := by
  constructor
  · rintro ⟨lead, _, rfl, _, last, rfl, _, _, rfl, ⟨rfl, hstart⟩, u, _, rfl, hr, rfl, hend⟩
    have hlead : lead = [] := by simpa [Look.holds] using hstart
    have hlast : last = [] := by simpa [Look.holds] using hend
    subst hlead hlast
    simpa using hr
  · intro h
    refine ⟨[], name, rfl, name, [], (List.append_nil name).symm, [], name, rfl, ⟨rfl, rfl⟩,
      name, [], (List.append_nil name).symm, ?_, rfl, rfl⟩
    simpa using h

/-- A pattern that is accepted tests names by its anchored form. -/
theorem ofPattern_ok {s : Scheme} (h : ofPattern text = .ok s) :
    ∃ r, parse (anchored text) = .ok r ∧
      ∀ name, s.test name = true ↔ r.MatchesIn none name.toList := by
  unfold ofPattern at h
  cases hr : parse (anchored text) with
  | error e =>
    rw [hr] at h
    cases h
  | ok r =>
    rw [hr] at h
    obtain rfl := Except.ok.inj h
    exact ⟨r, rfl, fun name => by rw [test, Regex.search_iff (parse_orderly hr)]⟩

theorem exists_ofPattern_iff :
    (∃ s, ofPattern text = .ok s) ↔ ∃ r, parse (anchored text) = .ok r := by
  unfold ofPattern
  cases parse (anchored text) <;> simp

/-- Whatever a scheme was made from, it tests names by searching for the anchored pattern. It is
made from a pattern that leaves no comment open and has room for two more levels, and from no other
text but one that closes a group it did not open. A scheme made from a pattern passes a name if and
only if the pattern matches all of it. Patterns are the texts that `parse` reads, which are without
`(?-u)` and without the names of scripts. -/
theorem ofPattern_wholeName (text : String) :
    (∀ s, ofPattern text = .ok s → ∃ r, parse (anchored text) = .ok r ∧
      ∀ name, s.test name = true ↔ r.MatchesIn none name.toList) ∧
    (parse text ≠ .error .unopenedGroup →
      ((∃ s, ofPattern text = .ok s) ↔
        ∃ r, parse text = .ok r ∧ ¬EndsInComment text ∧ nesting text + 2 ≤ nestingLimit) ∧
      ∀ s, ofPattern text = .ok s → ∃ r, parse text = .ok r ∧
        ∀ name, s.test name = true ↔ r.Matches none name.toList none) := by
  refine ⟨fun s => ofPattern_ok, fun hopened => ⟨?_, fun s hs => ?_⟩⟩
  · rw [exists_ofPattern_iff]
    constructor
    · rintro ⟨q, hq⟩
      obtain ⟨r, hr, hcomment, hdepth, -⟩ := (parse_anchored_ok_iff hopened).mp hq
      exact ⟨r, hr, hcomment, hdepth⟩
    · rintro ⟨r, hr, hcomment, hdepth⟩
      have hparse : parse (anchored text) = .ok (betweenEnds r) :=
        (parse_anchored_ok_iff hopened).mpr ⟨r, hr, hcomment, hdepth, rfl⟩
      exact ⟨_, hparse⟩
  · obtain ⟨q, hq, htest⟩ := ofPattern_ok hs
    obtain ⟨r, hr, -, -, rfl⟩ := (parse_anchored_ok_iff hopened).mp hq
    exact ⟨r, hr, fun name => (htest name).trans betweenEnds_matchesIn⟩

theorem ofPattern_unbalanced :
    parse "a)|(?:b" = .error .unopenedGroup ∧
    (ofPattern "a)|(?:b").map (fun s => ["ax", "xb", "xa"].map s.test) =
      .ok [true, true, false] ∧
    (∃ r, parse "(?x)a#b" = .ok r) ∧
    ofPattern "(?x)a#b" = .error (.badPattern "(?x)a#b" .unclosedGroup) := by
  refine ⟨by decide +kernel, ?_, ?_, ?_⟩
  · decide +kernel
  · exact ⟨_, rfl⟩
  · rfl

end FlowLint.Naming.Scheme

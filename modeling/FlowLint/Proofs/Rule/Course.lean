import FlowLint.Proofs.Rule.Lifecycle

/-!
# The course of a run

A run of rules that have just been configured calls their hooks in the order of its plan and
enters each hook that it calls. It ends with the plan, or with the first event of the plan
that fails: a hook that its rule answers with a failure, or an item that cannot be read. What
a hook answers is said by the logic of its rule and the hooks entered before, so that the
course of a run is told by the rules and the supply alone. How many artifacts a run counts
that did not come to its end is not said.
-/

namespace FlowLint

variable {σ : Type} [Sink σ]

/-- Why an event fails when it comes after others. The hooks that a rule has been called with
among the others have all been entered. -/
def Event.failureAfter (rules : List Rule) (before : List Event) : Event → Option RunError
  | take (.ok _) => none
  | take (.error e) => some (.source e)
  | call s => rules[s.place]?.bind fun r =>
      let entered := r.entered ++ hooksAt s.place (calls before)
      ({ r with entered }.respond s.hook).failure.map .evaluation

/-- None of the events fails when it comes after those before it. -/
def NoneFails (rules : List Rule) (events : List Event) : Prop :=
  ∀ before ev later, events = before ++ ev :: later → ev.failureAfter rules before = none

/-- A run came to its end. -/
structure Completed (rules : List Rule) (supply : List (Except Markup.Error Flow.Artifact))
    (o : Outcome σ) (summary : Summary) : Prop where
  passed : NoneFails rules (plan rules.length supply)
  trace : o.trace = canonicalTrace rules.length supply
  rules_length : o.rules.length = rules.length
  finalized : ∀ r ∈ o.rules, r.stage = .finalized
  readable : ∀ item ∈ supply, ∃ a, item = .ok a
  inspected : summary.artifactsInspected = supply.length

/-- A run stopped at the event `last` of its plan. Unless it had begun to end its rules, with
nothing left to take, it would have been the same whatever the supply held beyond the items
taken. -/
structure StoppedAt (rules : List Rule) (supply : List (Except Markup.Error Flow.Artifact))
    (sink : σ) (o : Outcome σ) (e : RunError) (before : List Event) (last : Event) : Prop where
  planned : before ++ [last] <+: plan rules.length supply
  passed : NoneFails rules before
  failed : last.failureAfter rules before = some e
  trace : o.trace = calls (before ++ [last])
  taken_supply : taken (before ++ [last]) <+: supply
  unread : (∀ s ∈ o.trace, s.hook.name ≠ .finish) → ∀ beyond,
    let o' := run rules (taken (before ++ [last]) ++ beyond) sink
    o'.trace = o.trace ∧ o'.rules = o.rules ∧ o'.sink = o.sink ∧ o'.failure = o.failure
  exhausted : ∀ s ∈ o.trace, s.hook.name = .finish → taken (before ++ [last]) = supply

/-! ## Hooks are entered when they are called -/

variable {rules : List Rule} {supply : List (Except Markup.Error Flow.Artifact)}

theorem calls_mono {events more : List Event} (h : events <+: more) :
    calls events <+: calls more :=
  h.filterMap _

theorem hooksAt_mono {trace more : List Step} (h : trace <+: more) (place : Nat) :
    hooksAt place trace <+: hooksAt place more :=
  (h.filter _).map _

theorem hooksAt_step_planned {before : List Event} {s : Step}
    (hplan : before ++ [.call s] <+: plan rules.length supply) {r : Rule}
    (hr : rules[s.place]? = some r) :
    hooksAt s.place (calls before) ++ [s.hook] <+: hooksOf (readable supply) := by
  have hplace : s.place < rules.length := (List.getElem?_eq_some_iff.mp hr).1
  have hcalls := hooksAt_mono (calls_mono hplan) s.place
  have hstep : hooksAt s.place (calls (before ++ [.call s])) =
      hooksAt s.place (calls before) ++ [s.hook] := by
    rw [calls_append, hooksAt_append]
    have hown : calls [.call s] = [s] := rfl
    have hlast : hooksAt s.place [s] = [s.hook] := hooksAt_cons_self s []
    rw [hown, hlast]
  rw [← hstep, ← hooksAt_canonicalTrace hplace, ← calls_plan]
  exact hcalls

/-- A step of the plan is never refused, so that it fails only by the rule's own answer. -/
theorem failure?_eq_failureAfter (fresh : ∀ r ∈ rules, r.stage = .configured)
    {before : List Event} {ev : Event} (hplan : before ++ [ev] <+: plan rules.length supply)
    (hpassed : (carryOut rules before).2 = none) :
    ev.failure? (replay rules (calls before)) = ev.failureAfter rules before := by
  cases ev with
  | take item => cases item <;> rfl
  | call s =>
    rw [Event.failure?, Step.failure?, getElem?_replay, Event.failureAfter]
    cases hr : rules[s.place]? with
    | none => rfl
    | some r =>
      have hpasses := (carryOut_passed_iff.mp hpassed).2 s.place r hr
      have hstage := Rule.stage_after (fresh r (List.mem_of_getElem? hr)) hpasses
        (hooksAt_step_planned hplan hr)
      rw [Option.map_some, Option.bind_some, Rule.call_of_stage hstage,
        Rule.after_of_passes hpasses, Rule.respond_advanced]
      rfl

theorem noneFails_of_passed (fresh : ∀ r ∈ rules, r.stage = .configured) {events : List Event}
    (hplan : events <+: plan rules.length supply) (hpassed : (carryOut rules events).2 = none) :
    NoneFails rules events := by
  rintro before ev later rfl
  have hsplit : before ++ ev :: later = (before ++ [ev]) ++ later := List.append_cons _ _ _
  have hbefore := passed_of_passed_append hpassed
  rw [hsplit] at hplan hpassed
  have hev := passed_of_passed_append hpassed
  have hbegins : before ++ [ev] <+: plan rules.length supply := (List.prefix_append _ _).trans hplan
  rw [← failure?_eq_failureAfter fresh hbegins hbefore]
  rw [carryOut_append, hbefore] at hev
  dsimp only at hev
  rw [carryOut_cons_passed_iff] at hev
  exact hev.1

/-! ## What has not been taken -/

/-- A prefix of two lists ends in the first of them or in the second. -/
theorem prefix_append_cases {α : Type} {xs ys zs : List α} (h : xs <+: ys ++ zs) :
    xs <+: ys ∨ ∃ tail, xs = ys ++ tail ∧ tail <+: zs := by
  rcases List.prefix_or_prefix_of_prefix h (List.prefix_append ys zs) with hxs | ⟨tail, rfl⟩
  · exact .inl hxs
  · have hbegins : tail <+: zs := (List.prefix_append_right_inj ys).mp h
    exact .inr ⟨tail, rfl, hbegins⟩

theorem taken_eq_nil_of_calls {events : List Event} {trace : List Step}
    (h : events <+: trace.map .call) : taken events = [] := by
  have htaken : taken events <+: taken (trace.map .call) := h.filterMap _
  rw [taken_map_call] at htaken
  exact List.prefix_nil.mp htaken

/-- Events of a supply are planned by what they take, whatever comes beyond it. -/
theorem prefix_flatMap_itemEvents {count : Nat} {events : List Event}
    (h : events <+: supply.flatMap (itemEvents count)) :
    taken events <+: supply ∧
      ∀ beyond, events <+: (taken events ++ beyond).flatMap (itemEvents count) := by
  induction supply generalizing events with
  | nil =>
    rw [List.prefix_nil.mp h]
    exact ⟨List.prefix_rfl, fun _ => List.nil_prefix⟩
  | cons item rest ih =>
    cases events with
    | nil => exact ⟨List.nil_prefix, fun _ => List.nil_prefix⟩
    | cons ev tail =>
      rw [List.flatMap_cons, itemEvents, List.cons_append] at h
      obtain ⟨rfl, htail⟩ := List.cons_prefix_cons.mp h
      have htaken : taken (.take item :: tail) = item :: taken tail := rfl
      rw [htaken]
      -- The events end while the first item is being shown, or after it.
      rcases prefix_append_cases htail with hshown | ⟨later, rfl, hlater⟩
      · rw [taken_eq_nil_of_calls hshown]
        have hbegins : [item] <+: item :: rest := List.cons_prefix_cons.mpr ⟨rfl, List.nil_prefix⟩
        refine ⟨hbegins, fun beyond => ?_⟩
        rw [List.singleton_append, List.flatMap_cons, itemEvents, List.cons_append]
        have htrans : tail <+: (inspections count item).map Event.call ++ beyond.flatMap
            (itemEvents count) :=
          hshown.trans (List.prefix_append _ _)
        exact List.cons_prefix_cons.mpr ⟨rfl, htrans⟩
      · obtain ⟨hfirst, hbeyond⟩ := ih hlater
        rw [taken_append, taken_map_call, List.nil_append]
        have hbegins : item :: taken later <+: item :: rest :=
          List.cons_prefix_cons.mpr ⟨rfl, hfirst⟩
        refine ⟨hbegins, fun beyond => ?_⟩
        rw [List.cons_append, List.flatMap_cons, itemEvents, List.cons_append]
        exact List.cons_prefix_cons.mpr
          ⟨rfl, (List.prefix_append_right_inj _).mpr (hbeyond beyond)⟩

/-- Whatever part of the plan has been gone through, the supply was taken in its order. -/
theorem taken_prefix_of_planned {count : Nat} {events : List Event}
    (h : events <+: plan count supply) : taken events <+: supply := by
  have htaken : taken events <+: taken (plan count supply) := h.filterMap _
  rwa [taken_plan] at htaken

theorem hook_of_mem_callAll {h : Hook} {count : Nat} {s : Step} (hs : s ∈ callAll h count) :
    s.hook = h := by
  obtain ⟨place, -, rfl⟩ := List.mem_map.mp hs
  rfl

theorem name_of_mem_inspections {count : Nat} {item : Except Markup.Error Flow.Artifact}
    {s : Step} (hs : s ∈ inspections count item) : s.hook.name = .inspect := by
  cases item with
  | error e => cases hs
  | ok a =>
    rw [hook_of_mem_callAll hs]
    rfl

/-- The events of a plan before its end, which end no rule. -/
def opening (count : Nat) (supply : List (Except Markup.Error Flow.Artifact)) : List Event :=
  (callAll .start count).map .call ++ supply.flatMap (itemEvents count)

theorem plan_eq (count : Nat) (supply : List (Except Markup.Error Flow.Artifact)) :
    plan count supply = opening count supply ++ (callAll .finish count).map .call := by
  rw [plan, planRest, opening, List.append_assoc]

@[simp] theorem taken_opening (count : Nat) (supply : List (Except Markup.Error Flow.Artifact)) :
    taken (opening count supply) = supply := by
  simp [opening]

theorem name_of_opening {count : Nat} {events : List Event} (h : events <+: opening count supply)
    {s : Step} (hs : s ∈ calls events) : s.hook.name ≠ .finish := by
  have hmem := (calls_mono h).mem hs
  rw [opening, calls_append, calls_map_call, calls_flatMap_itemEvents, List.mem_append] at hmem
  rcases hmem with hmem | hmem
  · rw [hook_of_mem_callAll hmem]
    exact nofun
  · obtain ⟨item, -, hitem⟩ := List.mem_flatMap.mp hmem
    rw [name_of_mem_inspections hitem]
    exact nofun

/-- Events of a plan in which no rule is ended are planned by what they take. -/
theorem planned_beyond {count : Nat} {events : List Event} (h : events <+: plan count supply)
    (hfinish : ∀ s ∈ calls events, s.hook.name ≠ .finish)
    (beyond : List (Except Markup.Error Flow.Artifact)) :
    events <+: plan count (taken events ++ beyond) := by
  rw [plan_eq] at h
  have hopening : events <+: opening count supply := by
    rcases prefix_append_cases h with hopening | ⟨ended, rfl, hended⟩
    · exact hopening
    · cases ended with
      | nil => exact ⟨[], by rw [List.append_nil, List.append_nil]⟩
      | cons ev rest =>
        -- An event beyond the opening would end a rule.
        obtain ⟨more, hmore⟩ := hended
        obtain ⟨s, steps, hsteps, rfl, -⟩ := List.map_eq_cons_iff.mp hmore.symm
        have hhook : s.hook = .finish := hook_of_mem_callAll (hsteps ▸ List.mem_cons_self)
        refine absurd (congrArg Hook.name hhook) (hfinish s ?_)
        rw [calls_append]
        exact List.mem_append_right _ List.mem_cons_self
  rcases prefix_append_cases hopening with hstart | ⟨shown, rfl, hitems⟩
  · exact hstart.trans (List.prefix_append _ _)
  · rw [plan, List.prefix_append_right_inj, taken_append, taken_map_call, List.nil_append]
    have hbegins : shown <+: (taken shown ++ beyond).flatMap (itemEvents count) :=
      (prefix_flatMap_itemEvents hitems).2 beyond
    exact hbegins.trans (List.prefix_append _ _)

/-- No rule is finished before the whole supply has been taken. -/
theorem taken_eq_of_finish {count : Nat} {events : List Event} (h : events <+: plan count supply)
    {s : Step} (hs : s ∈ calls events) (hfinish : s.hook.name = .finish) :
    taken events = supply := by
  rw [plan_eq] at h
  rcases prefix_append_cases h with hopening | ⟨ended, rfl, hended⟩
  · exact absurd hfinish (name_of_opening hopening hs)
  · simp [taken_eq_nil_of_calls hended]

/-! ## The two endings -/

theorem summary_eq_error_iff {o : Outcome σ} {e : RunError} :
    o.summary = .error e ↔ o.failure = some e := by
  rw [Outcome.summary]
  cases o.failure <;> simp

theorem carryOut_stopped {before : List Event} {last : Event} {e : RunError}
    (hpassed : (carryOut rules before).2 = none)
    (hfailed : last.failure? (replay rules (calls before)) = some e) {events : List Event}
    (hplan : before ++ [last] <+: events) : carryOut rules events = (before ++ [last], some e) := by
  obtain ⟨later, rfl⟩ := hplan
  rw [List.append_assoc, carryOut_append, hpassed, List.singleton_append, carryOut, hfailed]

theorem entered_after (fresh : ∀ r ∈ rules, r.stage = .configured) {before : List Event}
    {ev : Event} (hplan : before ++ [ev] <+: plan rules.length supply)
    (hpassed : (carryOut rules before).2 = none) {place : Nat} {r : Rule}
    (hr : rules[place]? = some r) :
    (r.after (hooksAt place (calls (before ++ [ev])))).entered =
      r.entered ++ hooksAt place (calls (before ++ [ev])) := by
  have hpasses := (carryOut_passed_iff.mp hpassed).2 place r hr
  have hbefore : (r.after (hooksAt place (calls before))).entered =
      r.entered ++ hooksAt place (calls before) := by
    rw [Rule.after_of_passes hpasses]
    rfl
  rw [calls_append]
  -- Only the rule at the event's own place has anything left to enter.
  cases ev with
  | take item =>
    have hnone : calls [.take item] = [] := rfl
    rw [hnone, List.append_nil, hbefore]
  | call s =>
    have hone : calls [.call s] = [s] := rfl
    rw [hone, hooksAt_append]
    by_cases hplace : s.place = place
    · subst hplace
      have hstage := Rule.stage_after (fresh r (List.mem_of_getElem? hr)) hpasses
        (hooksAt_step_planned hplan hr)
      rw [hooksAt_cons_self, Rule.after_append, ← List.append_assoc, ← hbefore]
      exact Rule.entered_call hstage
    · rw [hooksAt_cons_ne hplace]
      have hnil : hooksAt place [] = [] := rfl
      rw [hnil, List.append_nil, hbefore]

/-- A run in which nothing fails goes through the whole plan. -/
theorem completed_of_passed (fresh : ∀ r ∈ rules, r.stage = .configured) {sink : σ}
    (hpassed : (carryOut rules (plan rules.length supply)).2 = none) {summary : Summary}
    (hsummary : (run rules supply sink).summary = .ok summary) :
    Completed rules supply (run rules supply sink) summary := by
  obtain ⟨htrace, hfailure, hrules, -⟩ := run_outcome rules supply sink
  rw [carryOut_eq_of_passed hpassed, calls_plan] at htrace hrules
  obtain ⟨hreadable, hpasses⟩ := carryOut_passed_iff.mp hpassed
  have hnoneFails : NoneFails rules (plan rules.length supply) :=
    noneFails_of_passed fresh List.prefix_rfl hpassed
  refine ⟨hnoneFails, htrace, ?_, ?_, ?_, ?_⟩
  · rw [hrules, length_replay]
  · intro r' hr'
    rw [hrules] at hr'
    obtain ⟨place, hplace⟩ := List.mem_iff_getElem?.mp hr'
    rw [getElem?_replay, Option.map_eq_some_iff] at hplace
    obtain ⟨r, hr, rfl⟩ := hplace
    have hlt : place < rules.length := (List.getElem?_eq_some_iff.mp hr).1
    have hall := hpasses place r hr
    rw [calls_plan] at hall
    rw [Rule.after_of_passes hall, hooksAt_canonicalTrace hlt]
    exact stageThrough_hooksOf r.stage _
  · rwa [taken_plan] at hreadable
  · have hnone : (run rules supply sink).failure = none := hfailure.trans hpassed
    rw [run_into] at hsummary hnone
    rw [Outcome.summary, hnone] at hsummary
    cases hsummary
    exact artifactsInspected_run hnone

/-- A run in which something fails stops right there. -/
theorem stoppedAt_of_failed (fresh : ∀ r ∈ rules, r.stage = .configured) {sink : σ}
    {e : RunError} (hfailed : (carryOut rules (plan rules.length supply)).2 = some e) :
    ∃ before last, StoppedAt rules supply sink (run rules supply sink) e before last := by
  obtain ⟨htrace, hfailure, hrules, hsink⟩ := run_outcome rules supply sink
  obtain ⟨before, last, hplanned, hdone, hpassed, hlast⟩ := carryOut_eq_of_failed hfailed
  rw [hdone] at htrace hrules hsink
  rw [hfailed] at hfailure
  have hbegins : taken (before ++ [last]) <+: supply := taken_prefix_of_planned hplanned
  refine ⟨before, last, hplanned, ?_, ?_, htrace, hbegins, ?_, ?_⟩
  · have htrans : before <+: plan rules.length supply := (List.prefix_append _ _).trans hplanned
    exact noneFails_of_passed fresh htrans hpassed
  · rw [← failure?_eq_failureAfter fresh hplanned hpassed]
    exact hlast
  · intro hfinish beyond
    rw [htrace] at hfinish
    have hcarried := carryOut_stopped hpassed hlast (planned_beyond hplanned hfinish beyond)
    obtain ⟨htrace', hfailure', hrules', hsink'⟩ :=
      run_outcome rules (taken (before ++ [last]) ++ beyond) sink
    rw [hcarried] at htrace' hfailure' hrules' hsink'
    exact ⟨htrace'.trans htrace.symm, hrules'.trans hrules.symm, hsink'.trans hsink.symm,
      hfailure'.trans hfailure.symm⟩
  · intro s hs hfinish
    rw [htrace] at hs
    exact taken_eq_of_finish hplanned hs hfinish

/-- A run of rules that have just been configured calls a prefix of the canonical trace, enters
the hooks it calls, and ends with the trace or right after the first event that fails, the
failure of which it returns. -/
theorem run_canonical (fresh : ∀ r ∈ rules, r.stage = .configured)
    (supply : List (Except Markup.Error Flow.Artifact)) (sink : σ) :
    let o := run rules supply sink
    o.trace <+: canonicalTrace rules.length supply ∧
      (∀ (place : Nat) (r : Rule), rules[place]? = some r → ∃ r', o.rules[place]? = some r' ∧
        r'.entered = r.entered ++ hooksAt place o.trace) ∧
      (∀ summary, o.summary = .ok summary → Completed rules supply o summary) ∧
      ∀ e, o.summary = .error e → ∃ before last, StoppedAt rules supply sink o e before last := by
  obtain ⟨htrace, hfailure, hrules, -⟩ := run_outcome rules supply sink
  dsimp only
  have hentered : ∀ (place : Nat) (r : Rule), rules[place]? = some r →
      (r.after (hooksAt place (run rules supply sink).trace)).entered =
        r.entered ++ hooksAt place (run rules supply sink).trace := by
    intro place r hr
    rw [htrace]
    cases hend : (carryOut rules (plan rules.length supply)).2 with
    | none =>
      have hpasses : r.Passes (hooksAt place (calls (plan rules.length supply))) :=
        (carryOut_passed_iff.mp hend).2 place r hr
      rw [carryOut_eq_of_passed hend, Rule.after_of_passes hpasses]
      rfl
    | some e =>
      obtain ⟨before, last, hplanned, hdone, hpassed, -⟩ := carryOut_eq_of_failed hend
      rw [hdone]
      exact entered_after fresh hplanned hpassed hr
  refine ⟨?_, fun place r hr => ?_, fun summary hsummary => ?_, fun e he => ?_⟩
  · rw [htrace, ← calls_plan]
    have hbegins : (carryOut rules (plan rules.length supply)).1 <+: plan rules.length supply :=
      carryOut_isPrefix _ _
    exact calls_mono hbegins
  · refine ⟨_, ?_, hentered place r hr⟩
    simp [hrules, hr, htrace]
  · refine completed_of_passed fresh ?_ hsummary
    rw [← hfailure]
    exact Outcome.succeeds_iff.mp ⟨summary, hsummary⟩
  · refine stoppedAt_of_failed fresh ?_
    rw [← hfailure]
    exact summary_eq_error_iff.mp he

/-- A rule that fails as it is ended, before one that says nothing. -/
def failingAtEnd : List Rule :=
  [{ kind := "failing"
     logic := { inspect := fun _ _ => {}, finish := fun _ => { failure := some (.noArtifacts "a") } } },
    { kind := "quiet", logic := .perRun fun _ => {} }]

theorem run_failingAtEnd :
    let supply : List (Except Markup.Error Flow.Artifact) := (bareArtifacts ["A", "B"]).map .ok
    let o := run failingAtEnd supply ({} : Collector)
    (∀ r ∈ failingAtEnd, r.stage = .configured) ∧ o.trace.length = 7 ∧
      ∃ before last, StoppedAt failingAtEnd supply ({} : Collector) o
        (.evaluation (.noArtifacts "a")) before last := by
  intro supply o
  have fresh : ∀ r ∈ failingAtEnd, r.stage = .configured := by simp [failingAtEnd]
  exact ⟨fresh, rfl, (run_canonical fresh supply ({} : Collector)).2.2.2 _ rfl⟩

end FlowLint

import FlowLint.Proofs.Rule.Emission
import FlowLint.Proofs.Rule.Replay

/-!
# The plan of a run

What a run does if nothing fails is one list of events, which only depends on the number of
rules and on the supply: every rule is started, the items of the supply are taken one by one
and each artifact is shown to every rule, and every rule is ended. A run carries out its plan
up to the first event that fails, and what it leaves behind is what replaying its trace
leaves. Nothing is asked of the rules here: a rule that has been used before refuses to
start, which is a failure like any other.
-/

namespace FlowLint

open FlowLint.Flow (Artifact)

/-- One thing that a run does. -/
inductive Event
  | call (step : Step)
  /-- Takes the next item of the supply, which may turn out to be unreadable. -/
  | take (item : Except Markup.Error Artifact)

/-- The steps among events. -/
def calls (events : List Event) : List Step :=
  events.filterMap fun
    | .call s => some s
    | .take _ => none

/-- The items taken by events. -/
def taken (events : List Event) : List (Except Markup.Error Artifact) :=
  events.filterMap fun
    | .call _ => none
    | .take item => some item

/-- A hook called on each of several rules. -/
def callAll (h : Hook) (count : Nat) : List Step :=
  (List.range count).map (⟨·, h⟩)

/-- An item shown to each of several rules, unless it is unreadable. -/
def inspections (count : Nat) : Except Markup.Error Artifact → List Step
  | .ok a => callAll (.inspect a) count
  | .error _ => []

/-- The steps of a run in which nothing fails. -/
def canonicalTrace (count : Nat) (supply : List (Except Markup.Error Artifact)) : List Step :=
  callAll .start count ++ supply.flatMap (inspections count) ++ callAll .finish count

/-- An item taken and shown. -/
def itemEvents (count : Nat) (item : Except Markup.Error Artifact) : List Event :=
  .take item :: (inspections count item).map .call

/-- The events after the rules have been started. -/
def planRest (count : Nat) (supply : List (Except Markup.Error Artifact)) : List Event :=
  supply.flatMap (itemEvents count) ++ (callAll .finish count).map .call

/-- What a run does if nothing fails. -/
def plan (count : Nat) (supply : List (Except Markup.Error Artifact)) : List Event :=
  (callAll .start count).map .call ++ planRest count supply

namespace Event

def act (rules : List Rule) : Event → List Rule
  | call s => s.act rules
  | take _ => rules

def failure? (rules : List Rule) : Event → Option RunError
  | call s => (s.failure? rules).map .evaluation
  | take (.ok _) => none
  | take (.error e) => some (.source e)

end Event

/-- Carries out events up to the first that fails: those carried out, and the failure. -/
def carryOut (rules : List Rule) : List Event → List Event × Option RunError
  | [] => ([], none)
  | ev :: rest =>
    match ev.failure? rules with
    | some e => ([ev], some e)
    | none =>
      let p := carryOut (ev.act rules) rest
      (ev :: p.1, p.2)

/-! ## Events and their steps -/

@[simp] theorem calls_append (events more : List Event) :
    calls (events ++ more) = calls events ++ calls more :=
  List.filterMap_append

@[simp] theorem taken_append (events more : List Event) :
    taken (events ++ more) = taken events ++ taken more :=
  List.filterMap_append

@[simp]
theorem calls_map_call (trace : List Step) : calls (trace.map .call) = trace := by
  rw [calls, List.filterMap_map]
  exact List.filterMap_some

@[simp]
theorem taken_map_call (trace : List Step) : taken (trace.map .call) = [] := by
  rw [taken, List.filterMap_map]
  exact List.filterMap_eq_nil_iff.mpr fun _ _ => rfl

@[simp]
theorem calls_flatMap_itemEvents (count : Nat) (supply : List (Except Markup.Error Artifact)) :
    calls (supply.flatMap (itemEvents count)) = supply.flatMap (inspections count) := by
  induction supply with
  | nil => rfl
  | cons item rest ih =>
    have hitem : calls (itemEvents count item) = inspections count item := calls_map_call _
    simp [hitem, ih]

@[simp] theorem calls_plan (count : Nat) (supply : List (Except Markup.Error Artifact)) :
    calls (plan count supply) = canonicalTrace count supply := by
  rw [plan, planRest, calls_append, calls_append, calls_flatMap_itemEvents, calls_map_call,
    calls_map_call, ← List.append_assoc, canonicalTrace]

@[simp] theorem taken_flatMap_itemEvents (count : Nat)
    (supply : List (Except Markup.Error Artifact)) :
    taken (supply.flatMap (itemEvents count)) = supply := by
  induction supply with
  | nil => rfl
  | cons item rest ih =>
    have hitem : taken (itemEvents count item) = [item] :=
      congrArg (item :: ·) (taken_map_call _)
    rw [List.flatMap_cons, taken_append, hitem, ih]
    rfl

@[simp] theorem taken_plan (count : Nat) (supply : List (Except Markup.Error Artifact)) :
    taken (plan count supply) = supply := by
  simp [plan, planRest]

theorem replay_calls_cons (rules : List Rule) (ev : Event) (rest : List Event) :
    replay rules (calls (ev :: rest)) = replay (ev.act rules) (calls rest) := by
  cases ev <;> rfl

/-! ## Carrying out -/

/-- A failure among the first events keeps the others from happening. -/
theorem carryOut_append (rules : List Rule) (events more : List Event) :
    carryOut rules (events ++ more) =
      match (carryOut rules events).2 with
      | some e => ((carryOut rules events).1, some e)
      | none =>
        let p := carryOut (replay rules (calls events)) more
        (events ++ p.1, p.2) := by
  induction events generalizing rules with
  | nil => rfl
  | cons ev rest ih =>
    rw [List.cons_append, carryOut, carryOut, replay_calls_cons]
    cases ev.failure? rules with
    | some e => rfl
    | none =>
      dsimp only
      rw [ih]
      cases (carryOut (ev.act rules) rest).2 <;> rfl

theorem carryOut_eq_of_passed {rules : List Rule} {events : List Event}
    (h : (carryOut rules events).2 = none) : (carryOut rules events).1 = events := by
  induction events generalizing rules with
  | nil => rfl
  | cons ev rest ih =>
    rw [carryOut] at h ⊢
    cases hev : ev.failure? rules with
    | some e => simp [hev] at h
    | none =>
      rw [hev] at h
      have hrest : (carryOut (ev.act rules) rest).1 = rest := ih h
      dsimp only
      rw [hrest]

/-- What is carried out before a failure is all that stands before the event that fails. -/
theorem carryOut_eq_of_failed {rules : List Rule} {events : List Event} {e : RunError}
    (h : (carryOut rules events).2 = some e) :
    ∃ before ev, before ++ [ev] <+: events ∧ (carryOut rules events).1 = before ++ [ev] ∧
      (carryOut rules before).2 = none ∧
      ev.failure? (replay rules (calls before)) = some e := by
  induction events generalizing rules with
  | nil => cases h
  | cons ev rest ih =>
    rw [carryOut] at h ⊢
    cases hev : ev.failure? rules with
    | some e' =>
      rw [hev] at h
      cases h
      exact ⟨[], ev, ⟨rest, rfl⟩, rfl, rfl, hev⟩
    | none =>
      rw [hev] at h
      obtain ⟨before, last, hrest, hdone, hpassed, hfailed⟩ := ih h
      have hbegins : ev :: before.append [last] <+: ev :: rest :=
        List.cons_prefix_cons.mpr ⟨rfl, hrest⟩
      refine ⟨ev :: before, last, hbegins, congrArg (ev :: ·) hdone, ?_, ?_⟩
      · rw [carryOut, hev]
        exact hpassed
      · rw [replay_calls_cons]
        exact hfailed

theorem carryOut_isPrefix (rules : List Rule) (events : List Event) :
    (carryOut rules events).1 <+: events := by
  cases h : (carryOut rules events).2 with
  | none =>
    have hcarried : (carryOut rules events).1 = events := carryOut_eq_of_passed h
    exact ⟨[], (List.append_nil _).trans hcarried⟩
  | some e =>
    obtain ⟨before, ev, hevents, hdone, -⟩ := carryOut_eq_of_failed h
    rw [hdone]
    exact hevents

theorem passed_of_passed_append {rules : List Rule} {events more : List Event}
    (h : (carryOut rules (events ++ more)).2 = none) : (carryOut rules events).2 = none := by
  cases hevents : (carryOut rules events).2 with
  | none => rfl
  | some e =>
    rw [carryOut_append, hevents] at h
    cases h

theorem carryOut_cons_passed_iff {rules : List Rule} {ev : Event} {rest : List Event} :
    (carryOut rules (ev :: rest)).2 = none ↔
      ev.failure? rules = none ∧ (carryOut (ev.act rules) rest).2 = none := by
  rw [carryOut]
  cases ev.failure? rules <;> simp

/-- Every rule passes the hooks that a trace has for its place. -/
def EachPasses (rules : List Rule) (trace : List Step) : Prop :=
  ∀ (place : Nat) (r : Rule), rules[place]? = some r → r.Passes (hooksAt place trace)

theorem eachPasses_cons_iff {rules : List Rule} {s : Step} {rest : List Step} :
    EachPasses rules (s :: rest) ↔ s.failure? rules = none ∧ EachPasses (s.act rules) rest := by
  constructor
  · intro h
    refine ⟨?_, fun place r hr => ?_⟩
    -- A step at a place without a rule calls nothing and fails at nothing.
    · rw [Step.failure?]
      cases hrule : rules[s.place]? with
      | none => rfl
      | some r =>
        have hpasses := h s.place r hrule
        rw [hooksAt_cons_self] at hpasses
        exact hpasses.1
    · by_cases hplace : s.place = place
      · subst hplace
        rw [Step.getElem?_act_self, Option.map_eq_some_iff] at hr
        obtain ⟨r, hrule, rfl⟩ := hr
        have hpasses := h s.place r hrule
        rw [hooksAt_cons_self] at hpasses
        exact hpasses.2
      · rw [Step.getElem?_act_ne hplace] at hr
        rw [← hooksAt_cons_ne hplace]
        exact h place r hr
  · rintro ⟨hfirst, h⟩ place r hr
    by_cases hplace : s.place = place
    · subst hplace
      have hact := s.getElem?_act_self rules
      rw [hr, Option.map_some] at hact
      rw [Step.failure?, hr, Option.bind_some] at hfirst
      rw [hooksAt_cons_self]
      exact ⟨hfirst, h _ _ hact⟩
    · have hact := (Step.getElem?_act_ne hplace rules).trans hr
      rw [hooksAt_cons_ne hplace]
      exact h place r hact

/-- Nothing fails exactly if every item can be read and every rule passes its own hooks. -/
theorem carryOut_passed_iff {rules : List Rule} {events : List Event} :
    (carryOut rules events).2 = none ↔
      (∀ item ∈ taken events, ∃ a, item = .ok a) ∧ EachPasses rules (calls events) := by
  induction events generalizing rules with
  | nil => exact iff_of_true rfl ⟨fun _ h => (nomatch h), fun _ _ _ => trivial⟩
  | cons ev rest ih =>
    rw [carryOut_cons_passed_iff, ih]
    cases ev with
    | take item =>
      have htaken : taken (.take item :: rest) = item :: taken rest := rfl
      have hcalls : calls (.take item :: rest) = calls rest := rfl
      rw [htaken, hcalls, List.forall_mem_cons, and_assoc]
      cases item <;> simp [Event.failure?, Event.act]
    | call s =>
      have htaken : taken (.call s :: rest) = taken rest := rfl
      have hcalls : calls (.call s :: rest) = s :: calls rest := rfl
      rw [htaken, hcalls, eachPasses_cons_iff, Event.failure?, Option.map_eq_none_iff]
      exact and_left_comm

/-! ## A run carries out its plan -/

/-- An outcome is what carrying out events comes to. -/
structure Outcome.Carries (o : Outcome Collector) (initial : List Rule) (events : List Event) :
    Prop where
  trace : o.trace = calls (carryOut initial events).1
  failure : o.failure = (carryOut initial events).2
  rules : o.rules = replay initial o.trace
  issues : o.sink.issues = (attributed initial o.trace).map Prod.snd

/-- A pass is what calling its hook on each rule after `before` comes to. -/
structure Pass.Carries (p : Pass Collector) (before initial : List Rule) (h : Hook) : Prop where
  carried : carryOut (before ++ initial)
    ((List.range' before.length initial.length).map fun place => .call ⟨place, h⟩) =
      (p.trace.map .call, p.failure.map .evaluation)
  rules : before ++ p.rules = replay (before ++ initial) p.trace
  issues : p.sink.issues = (attributed (before ++ initial) p.trace).map Prod.snd

theorem getElem?_append_place (before : List Rule) (r : Rule) (rest : List Rule) :
    (before ++ r :: rest)[before.length]? = some r := by
  rw [List.getElem?_append_right (Nat.le_refl _), Nat.sub_self, List.getElem?_cons_zero]

theorem act_append_place (before : List Rule) (r : Rule) (rest : List Rule) (h : Hook) :
    Step.act ⟨before.length, h⟩ (before ++ r :: rest) =
      (before ++ [(r.call h).rule]) ++ rest := by
  rw [Step.act, List.modify_eq_set_getElem?, getElem?_append_place, List.append_assoc]
  exact (List.set_append_right _ _ (Nat.le_refl _)).trans (by rw [Nat.sub_self]; rfl)

/-- Calling each rule carries out the steps of the hook, up to the first that fails. -/
theorem callEach_carries (h : Hook) (before rules : List Rule) :
    (callEach h before.length ({} : Collector) rules).Carries before rules h := by
  -- The rules already called move to `before`, so that places stay places in the whole list.
  induction rules generalizing before with
  | nil => exact ⟨rfl, rfl, rfl⟩
  | cons r rest ih =>
    have hr := getElem?_append_place before r rest
    have hact := act_append_place before r rest h
    have hfailure : Event.failure? (before ++ r :: rest) (.call ⟨before.length, h⟩) =
        (r.call h).failure.map .evaluation := by
      rw [Event.failure?, Step.failure?, hr, Option.bind_some]
    have hissues : Step.issues ⟨before.length, h⟩ (before ++ r :: rest) = (r.call h).issues := by
      rw [Step.issues, hr, Option.map_some, Option.getD_some]
    have hkept : ∀ issues, (Sink.acceptAll ({} : Collector) issues).issues = issues := fun issues =>
      Collector.issues_acceptAll {} issues
    cases hcall : (r.call h).failure with
    | some e =>
      rw [callEach_failed hcall]
      rw [hcall] at hfailure
      refine ⟨?_, ?_, ?_⟩
      · rw [List.length_cons, List.range'_succ, List.map_cons, carryOut, hfailure]
        rfl
      · exact (hact.trans (List.append_assoc _ _ _)).symm
      · rw [hkept, attributed, hissues, attributed, List.append_nil, Order.map_snd_map_label]
    | none =>
      obtain ⟨hcarried, hrules, hrest⟩ := ih (before ++ [(r.call h).rule])
      rw [List.length_append, List.length_singleton] at hcarried hrules hrest
      rw [callEach_passed hcall, callEach_into]
      rw [hcall] at hfailure
      refine ⟨?_, ?_, ?_⟩
      · rw [List.length_cons, List.range'_succ, List.map_cons, carryOut, hfailure]
        dsimp only [Option.map_none, Event.act]
        rw [hact, hcarried]
        rfl
      · dsimp only [Pass.into]
        rw [List.append_cons, hrules]
        exact congrArg (replay · _) hact.symm
      · dsimp only [Pass.into]
        rw [Collector.issues_acceptAll, hkept, hrest, attributed, hissues, hact, List.map_append,
          Order.map_snd_map_label]

theorem callEach_carries_all (h : Hook) (rules : List Rule) :
    let p := callEach h 0 ({} : Collector) rules
    p.rules = replay rules p.trace ∧ p.sink.issues = (attributed rules p.trace).map Prod.snd ∧
      carryOut rules ((callAll h rules.length).map .call) =
        (p.trace.map .call, p.failure.map .evaluation) := by
  obtain ⟨hcarried, hrules, hissues⟩ := callEach_carries h [] rules
  refine ⟨hrules, hissues, ?_⟩
  rw [callAll, List.range_eq_range', List.map_map]
  exact hcarried

/-- What follows a pass in which nothing failed. -/
theorem Outcome.Carries.after_pass {rules : List Rule} {h : Hook} {p : Pass Collector}
    (hp : callEach h 0 {} rules = p) (hpassed : p.failure = none) {o : Outcome Collector}
    {more : List Event} (ho : o.Carries p.rules more) :
    ((o.into p.sink).after p.trace).Carries rules ((callAll h rules.length).map .call ++ more) := by
  obtain ⟨hrules, hissues, hcarried⟩ := callEach_carries_all h rules
  rw [hp] at hrules hissues hcarried
  have hnone : (carryOut rules ((callAll h rules.length).map .call)).2 = none := by
    rw [hcarried, hpassed]
    rfl
  have hsteps : (callAll h rules.length).map Event.call = p.trace.map .call :=
    (carryOut_eq_of_passed hnone).symm.trans (congrArg Prod.fst hcarried)
  have hboth : carryOut rules ((callAll h rules.length).map .call ++ more) =
      (p.trace.map .call ++ (carryOut p.rules more).1, (carryOut p.rules more).2) := by
    rw [carryOut_append, hnone, hsteps, calls_map_call, ← hrules]
  refine ⟨?_, ?_, ?_, ?_⟩
  · rw [hboth, calls_append, calls_map_call, ← ho.trace]
    rfl
  · rw [hboth]
    exact ho.failure
  · have htrace : ((o.into p.sink).after p.trace).trace = p.trace ++ o.trace := rfl
    rw [htrace, replay_append, ← hrules]
    exact ho.rules
  · have htrace : ((o.into p.sink).after p.trace).trace = p.trace ++ o.trace := rfl
    have hsink : ((o.into p.sink).after p.trace).sink.issues = p.sink.issues ++ o.sink.issues :=
      Collector.issues_acceptAll _ _
    rw [htrace, hsink, attributed_append, List.map_append, ← hrules, ← hissues, ← ho.issues]

/-- A pass in which something failed, whatever would have followed. -/
theorem Pass.stop_carries {rules : List Rule} {h : Hook} {p : Pass Collector}
    (hp : callEach h 0 {} rules = p) {e : EvaluationError} (hfailed : p.failure = some e)
    (inspected : Nat) (more : List Event) :
    (p.stop inspected e).Carries rules ((callAll h rules.length).map .call ++ more) := by
  obtain ⟨hrules, hissues, hcarried⟩ := callEach_carries_all h rules
  rw [hp, hfailed] at *
  have hboth : carryOut rules ((callAll h rules.length).map .call ++ more) =
      (p.trace.map .call, some (.evaluation e)) := by
    rw [carryOut_append, hcarried]
    rfl
  refine ⟨?_, ?_, hrules, hissues⟩
  · rw [hboth, calls_map_call]
    rfl
  · rw [hboth]
    rfl

/-- A pass and the rest of a run carry out the calls of the pass and then what the rest is to. -/
theorem callEach_proceed_carries (h : Hook) (rules : List Rule) (inspected : Nat)
    {rest : List Rule → Collector → Outcome Collector} (planned : Nat → List Event)
    (hinto : ∀ rules c, rest rules c = (rest rules {}).into c)
    (hrest : ∀ rules, (rest rules {}).Carries rules (planned rules.length)) :
    ((callEach h 0 {} rules).proceed inspected rest).Carries rules
      ((callAll h rules.length).map .call ++ planned rules.length) := by
  generalize hp : callEach h 0 ({} : Collector) rules = p
  rw [Pass.proceed]
  cases hfailure : p.failure with
  | some e => exact Pass.stop_carries hp hfailure inspected _
  | none =>
    -- The rest is for the rules after the pass, which are as many.
    have hlength : rules.length = p.rules.length := by
      rw [← hp, (callEach_carries_all h rules).1, length_replay]
    have hplanned : planned rules.length = planned p.rules.length := by rw [hlength]
    dsimp only
    rw [hinto, hplanned]
    exact Outcome.Carries.after_pass hp hfailure (hrest p.rules)

theorem Outcome.Carries.take {rules : List Rule} {events : List Event} {o : Outcome Collector}
    (ho : o.Carries rules events) (a : Artifact) : o.Carries rules (.take (.ok a) :: events) :=
  ⟨ho.trace, ho.failure, ho.rules, ho.issues⟩

/-- Inspection and end carry out the rest of the plan. -/
theorem runRest_carries (rules : List Rule) (inspected : Nat)
    (supply : List (Except Markup.Error Artifact)) :
    (runRest rules ({} : Collector) inspected supply).Carries rules
      (planRest rules.length supply) := by
  induction supply generalizing rules inspected with
  | nil =>
    obtain ⟨hrules, hissues, hcarried⟩ := callEach_carries_all .finish rules
    have hplan : planRest rules.length [] = (callAll .finish rules.length).map .call := rfl
    refine ⟨?_, ?_, hrules, hissues⟩
    · rw [hplan, hcarried, calls_map_call]
      rfl
    · rw [hplan, hcarried]
      rfl
  | cons item rest ih =>
    cases item with
    | error e => exact ⟨rfl, rfl, rfl, rfl⟩
    | ok a =>
      have hplan : planRest rules.length (.ok a :: rest) = .take (.ok a) ::
          ((callAll (.inspect a) rules.length).map .call ++ planRest rules.length rest) := by
        simp [planRest, itemEvents, inspections]
      rw [hplan, runRest_ok]
      refine Outcome.Carries.take ?_ a
      exact callEach_proceed_carries (.inspect a) rules inspected (planRest · rest)
        (fun rules c => runRest_into rest rules _ c) fun rules => ih rules _

/-- A run carries out its plan up to the first event that fails. -/
theorem run_carries (rules : List Rule) (supply : List (Except Markup.Error Artifact)) :
    (run rules supply ({} : Collector)).Carries rules (plan rules.length supply) := by
  rw [run_eq, plan]
  exact callEach_proceed_carries .start rules 0 (planRest · supply)
    (fun rules c => runRest_into supply rules 0 c) fun rules => runRest_carries rules 0 supply

/-- A run is what carrying out its plan is. -/
theorem run_outcome {σ : Type} [Sink σ] (rules : List Rule)
    (supply : List (Except Markup.Error Artifact)) (sink : σ) :
    let p := carryOut rules (plan rules.length supply)
    let o := run rules supply sink
    o.trace = calls p.1 ∧ o.failure = p.2 ∧ o.rules = replay rules (calls p.1) ∧
      o.sink = Sink.acceptAll sink ((attributed rules (calls p.1)).map Prod.snd) := by
  obtain ⟨htrace, hfailure, hrules, hissues⟩ := run_carries rules supply
  rw [htrace] at hrules hissues
  dsimp only
  rw [run_into, ← hissues]
  exact ⟨htrace, hfailure, hrules, rfl⟩

/-! ## Success -/

/-- The run came to its end. -/
def Outcome.Succeeds {σ : Type} [Sink σ] (o : Outcome σ) : Prop :=
  ∃ summary, o.summary = .ok summary

@[simp] theorem Outcome.succeeds_iff {σ : Type} [Sink σ] {o : Outcome σ} :
    o.Succeeds ↔ o.failure = none := by
  rw [Succeeds, summary]
  cases o.failure <;> simp

theorem artifactsInspected_runRest {rules : List Rule} {c : Collector} {inspected : Nat}
    {supply : List (Except Markup.Error Artifact)}
    (h : (runRest rules c inspected supply).failure = none) :
    (runRest rules c inspected supply).artifactsInspected = inspected + supply.length := by
  induction supply generalizing rules c inspected with
  | nil => rfl
  | cons item rest ih =>
    cases item with
    | error e => cases h
    | ok a =>
      rw [runRest_ok] at h ⊢
      obtain ⟨-, heq, hrest⟩ := Pass.proceed_passed h
      rw [heq, Outcome.after, ih hrest, List.length_cons]
      omega

theorem artifactsInspected_run {rules : List Rule} {supply : List (Except Markup.Error Artifact)}
    (h : (run rules supply ({} : Collector)).failure = none) :
    (run rules supply ({} : Collector)).artifactsInspected = supply.length := by
  rw [run_eq] at h ⊢
  obtain ⟨-, heq, hrest⟩ := Pass.proceed_passed h
  rw [heq]
  exact (artifactsInspected_runRest hrest).trans (Nat.zero_add _)

end FlowLint

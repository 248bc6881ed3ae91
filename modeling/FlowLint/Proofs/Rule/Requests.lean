import FlowLint.Proofs.Rule.Lifecycle

/-!
# Requests to one rule

A run asks hooks of a rule in one order only. Here a rule that has just been built is asked
anything in any order: to take an id, to start, to inspect, to end, as often as one likes and
whatever its logic answers. A hook that does not fit the stage is refused, and nothing comes of
the request. The hooks that pass are those of a run, as far as it went. What a hook that failed
has done to the logic is not said: it has been entered, and the logic may remember it.
-/

namespace FlowLint

/-! ## Exchanges -/

/-- Something asked of a rule. -/
inductive Request
  | assign (id : String)
  | call (hook : Hook)

/-- A rule and what it is asked. -/
structure Exchange where
  rule : Rule
  request : Request

namespace Exchange

/-- The rule after the request. One that takes no id stays as it was. -/
def after (x : Exchange) : Rule :=
  match x.request with
  | .assign id =>
    match x.rule.assignId id with
    | .ok r => r
    | .error _ => x.rule
  | .call h => (x.rule.call h).rule

/-- The issues that reach the sink. -/
def issues (x : Exchange) : List Issue :=
  match x.request with
  | .assign _ => []
  | .call h => (x.rule.call h).issues

/-- Why a hook that was asked for was refused or failed, if it was. -/
def failure? (x : Exchange) : Option EvaluationError :=
  match x.request with
  | .assign _ => none
  | .call h => (x.rule.call h).failure

/-- The hook that passed, if one did. -/
def passed? (x : Exchange) : Option Hook :=
  match x.request with
  | .assign _ => none
  | .call h => if x.failure?.isNone then some h else none

end Exchange

/-- The exchanges with a rule that is asked one thing after another. -/
def history (r : Rule) : List Request → List Exchange
  | [] => []
  | q :: rest => ⟨r, q⟩ :: history (Exchange.after ⟨r, q⟩) rest

/-- The rule after all that it was asked. -/
def Rule.asked (r : Rule) (requests : List Request) : Rule :=
  requests.foldl (fun r q => Exchange.after ⟨r, q⟩) r

/-- The hooks that passed, in order. -/
def passedHooks (exchanges : List Exchange) : List Hook :=
  exchanges.filterMap Exchange.passed?

theorem asked_append (r : Rule) (requests more : List Request) :
    r.asked (requests ++ more) = (r.asked requests).asked more :=
  List.foldl_append

/-! ## One exchange -/

/-- Which hooks fit which stage. -/
inductive Stage.Takes : Stage → Hook → Prop
  | start : Takes .configured .start
  | inspect (a : Flow.Artifact) : Takes .active (.inspect a)
  | finish : Takes .active .finish

theorem Stage.takes_iff {s : Stage} {h : Hook} : s.Takes h ↔ s = Rule.stageFor h.name := by
  constructor
  · intro ht
    cases ht <;> rfl
  · intro hs
    subst hs
    cases h with
    | start => exact .start
    | inspect a => exact .inspect a
    | finish => exact .finish

/-- An issue as it was raised, but for the id of a rule, which it carries if it had none. -/
structure Issue.Stamped (id : Option String) (raised sent : Issue) : Prop where
  ruleId : sent.ruleId = raised.ruleId.or id
  detail : sent.detail = raised.detail
  tags : sent.tags = raised.tags
  message : sent.message = raised.message

/-- What an exchange comes to. -/
structure Exchange.Kept (x : Exchange) : Prop where
  refused : ∀ h, x.request = .call h → ¬ x.rule.stage.Takes h →
    x.failure? = some (.lifecycle x.rule.display h.name x.rule.stage) ∧ x.issues = [] ∧
      x.after = x.rule
  entered : ∀ h, x.request = .call h → x.rule.stage.Takes h →
    x.failure? = (x.rule.respond h).failure ∧ x.after.entered = x.rule.entered ++ [h] ∧
      List.Forall₂ (Issue.Stamped x.rule.id) (x.rule.respond h).issues x.issues
  failed : ∀ e, x.failure? = some e → x.after.stage = x.rule.stage
  assigned : ∀ id, x.request = .assign id → x.rule.id = none →
    x.rule.assignId id = .ok x.after ∧ x.after = { x.rule with id := some id }
  unassigned : ∀ id existing, x.request = .assign id → x.rule.id = some existing →
    x.rule.assignId id = .error (.idAlreadyAssigned existing id) ∧ x.after = x.rule
  id : ∀ id, x.rule.id = some id → x.after.id = some id

section Call

variable {r : Rule} {h : Hook}

theorem forall₂_stamped (id : Option String) (issues : List Issue) :
    List.Forall₂ (Issue.Stamped id) issues (issues.map (·.withRuleId id)) := by
  rw [List.forall₂_map_right_iff]
  apply List.forall₂_same.mpr
  intro i _
  exact ⟨rfl, rfl, rfl, rfl⟩

theorem stage_of_failed {e : EvaluationError} (hfailed : (r.call h).failure = some e) :
    (r.call h).rule.stage = r.stage := by
  by_cases hstage : r.stage = Rule.stageFor h.name
  · rw [Rule.call_of_stage hstage] at hfailed
    have hanswer : (r.respond h).failure = some e := hfailed
    rw [Rule.call, if_pos hstage]
    simp only [hanswer]
  · rw [Rule.call_of_refused hstage]

@[simp] theorem id_call (r : Rule) (h : Hook) : (r.call h).rule.id = r.id := by
  by_cases hstage : r.stage = Rule.stageFor h.name
  · rw [Rule.call, if_pos hstage]
    dsimp only
    cases (r.respond h).failure <;> rfl
  · rw [Rule.call_of_refused hstage]

end Call

theorem assignId_of_none {r : Rule} (hid : r.id = none) (id : String) :
    r.assignId id = .ok { r with id := some id } := by
  simp [Rule.assignId, hid]

theorem assignId_of_some {r : Rule} {existing : String} (hid : r.id = some existing)
    (id : String) : r.assignId id = .error (.idAlreadyAssigned existing id) := by
  simp [Rule.assignId, hid]

theorem Exchange.after_assign_of_none {r : Rule} (hid : r.id = none) (id : String) :
    Exchange.after ⟨r, .assign id⟩ = { r with id := some id } := by
  simp only [Exchange.after, assignId_of_none hid]

theorem Exchange.after_assign_of_some {r : Rule} {existing : String} (hid : r.id = some existing)
    (id : String) : Exchange.after ⟨r, .assign id⟩ = r := by
  simp only [Exchange.after, assignId_of_some hid]

theorem Exchange.kept_assign (r : Rule) (asked : String) :
    Exchange.Kept ⟨r, .assign asked⟩ := by
  cases hid : r.id with
  | none =>
    have hassign := assignId_of_none hid asked
    have hafter := after_assign_of_none hid asked
    exact {
      refused := nofun
      entered := nofun
      failed := nofun
      assigned := fun id hq _ => by cases hq; rw [hafter]; exact ⟨hassign, rfl⟩
      unassigned := fun id existing _ hsome => by simp [hid] at hsome
      id := fun id hsome => by simp [hid] at hsome }
  | some existing =>
    have hafter := after_assign_of_some hid asked
    exact {
      refused := nofun
      entered := nofun
      failed := nofun
      assigned := fun id _ hnone => by simp [hid] at hnone
      unassigned := fun id existing' hq hsome => by
        cases hq
        rw [hafter]
        have hassignId : r.assignId asked = .error (.idAlreadyAssigned existing' asked) :=
          assignId_of_some hsome asked
        exact ⟨hassignId, rfl⟩
      id := fun id hsome => by rw [hafter]; exact hsome }

theorem Exchange.kept_call (r : Rule) (h : Hook) : Exchange.Kept ⟨r, .call h⟩ where
  refused h' hq hstage := by
    cases hq
    have hrefused := Rule.call_of_refused (mt Stage.takes_iff.mpr hstage)
    simp only [Exchange.failure?, Exchange.issues, Exchange.after, hrefused, and_self]
  entered h' hq hstage := by
    cases hq
    have hstage := Stage.takes_iff.mp hstage
    have hcall := Rule.call_of_stage hstage
    have hentered : (r.call h).rule.entered = r.entered ++ [h] := Rule.entered_call hstage
    refine ⟨congrArg Call.failure hcall, hentered, ?_⟩
    have hissues : Exchange.issues ⟨r, .call h⟩ =
        (r.respond h).issues.map (·.withRuleId r.id) := congrArg Call.issues hcall
    rw [hissues]
    exact forall₂_stamped r.id _
  failed e he := stage_of_failed he
  assigned := nofun
  unassigned := nofun
  id id hsome := (id_call r h).trans hsome

/-- What every exchange keeps, whatever is requested. -/
theorem Exchange.kept (x : Exchange) : x.Kept := by
  obtain ⟨r, q⟩ := x
  cases q with
  | assign asked => exact kept_assign r asked
  | call h => exact kept_call r h

/-! ## Many exchanges -/

/-- The hooks that lead a rule to a stage. -/
def Stage.LedBy : Stage → List Hook → Prop
  | .configured, hooks => hooks = []
  | .active, hooks => ∃ artifacts : List Flow.Artifact, hooks = .start :: artifacts.map .inspect
  | .finalized, hooks => ∃ artifacts, hooks = hooksOf artifacts

theorem Stage.LedBy.isPrefix {s : Stage} {hooks : List Hook} (hled : s.LedBy hooks) :
    ∃ artifacts, hooks <+: hooksOf artifacts := by
  cases s with
  | configured =>
    have hnone : hooks = [] := hled
    exact ⟨[], hnone ▸ List.nil_prefix⟩
  | active =>
    obtain ⟨artifacts, rfl⟩ := hled
    exact ⟨artifacts, List.prefix_append _ _⟩
  | finalized =>
    obtain ⟨artifacts, rfl⟩ := hled
    exact ⟨artifacts, List.prefix_rfl⟩

/-- A hook that fits leads from a stage to the next. -/
theorem Stage.LedBy.next {s : Stage} {hooks : List Hook} (hled : s.LedBy hooks) {h : Hook}
    (hs : s.Takes h) : (Rule.stageAfter h.name).LedBy (hooks ++ [h]) := by
  cases hs with
  | start =>
    have hnone : hooks = [] := hled
    exact ⟨[], by rw [hnone]; rfl⟩
  | inspect a =>
    obtain ⟨artifacts, rfl⟩ := hled
    exact ⟨artifacts ++ [a], by simp⟩
  | finish =>
    obtain ⟨artifacts, rfl⟩ := hled
    exact ⟨artifacts, rfl⟩

@[simp] theorem Exchange.passed?_eq_some {x : Exchange} {h : Hook} :
    x.passed? = some h ↔ x.request = .call h ∧ x.failure? = none := by
  obtain ⟨r, q⟩ := x
  cases q with
  | assign id => simp [Exchange.passed?]
  | call h' =>
    cases hfailure : Exchange.failure? ⟨r, .call h'⟩ <;> simp [Exchange.passed?, hfailure]

/-- A hook that passes was called in the stage that it fits and leads to the next. -/
theorem Exchange.stage_of_passed {x : Exchange} {h : Hook} (hpassed : x.passed? = some h) :
    x.rule.stage.Takes h ∧ x.after.stage = Rule.stageAfter h.name := by
  obtain ⟨r, q⟩ := x
  obtain ⟨rfl, hfailure⟩ := Exchange.passed?_eq_some.mp hpassed
  have htakes : r.stage.Takes h := Stage.takes_iff.mpr (Rule.stage_of_passed hfailure)
  refine ⟨htakes, ?_⟩
  show (r.call h).rule.stage = Rule.stageAfter h.name
  rw [Rule.call_of_passed hfailure]
  rfl

theorem Exchange.stage_of_not_passed {x : Exchange} (hpassed : x.passed? = none) :
    x.after.stage = x.rule.stage := by
  obtain ⟨r, q⟩ := x
  cases q with
  | assign id =>
    cases hid : r.id with
    | none => rw [after_assign_of_none hid]
    | some existing => rw [after_assign_of_some hid]
  | call h =>
    cases hfailure : (r.call h).failure with
    | some e => exact stage_of_failed hfailure
    | none =>
      have hsome : Exchange.passed? ⟨r, .call h⟩ = some h :=
        Exchange.passed?_eq_some.mpr ⟨rfl, hfailure⟩
      rw [hpassed] at hsome
      cases hsome

/-- An exchange adds the hook that passes in it, if one does, to those that led to the stage. -/
theorem Exchange.ledBy_after (x : Exchange) {hooks : List Hook} (hled : x.rule.stage.LedBy hooks) :
    x.after.stage.LedBy (hooks ++ x.passed?.toList) := by
  cases hpassed : x.passed? with
  | none =>
    rw [Exchange.stage_of_not_passed hpassed, Option.toList_none, List.append_nil]
    exact hled
  | some h =>
    obtain ⟨htakes, hafter⟩ := Exchange.stage_of_passed hpassed
    rw [hafter, Option.toList_some]
    exact hled.next htakes

/-- The hooks that have passed are those that lead to the stage reached. -/
theorem ledBy_asked {r : Rule} {hooks : List Hook} (hled : r.stage.LedBy hooks)
    (requests : List Request) :
    (r.asked requests).stage.LedBy (hooks ++ passedHooks (history r requests)) := by
  induction requests generalizing r hooks with
  | nil =>
    rw [history, passedHooks, List.filterMap_nil, List.append_nil]
    exact hled
  | cons q rest ih =>
    have hfirst := Exchange.ledBy_after ⟨r, q⟩ hled
    have hall := ih hfirst
    have hpassed : passedHooks (history r (q :: rest)) =
        (Exchange.passed? ⟨r, q⟩).toList ++ passedHooks (history (Exchange.after ⟨r, q⟩) rest) := by
      rw [passedHooks, history, List.filterMap_cons]
      cases Exchange.passed? ⟨r, q⟩ <;> rfl
    rw [hpassed, ← List.append_assoc]
    exact hall

theorem id_asked {r : Rule} {id : String} (hid : r.id = some id) (requests : List Request) :
    (r.asked requests).id = some id := by
  induction requests generalizing r with
  | nil => exact hid
  | cons q rest ih => exact ih ((Exchange.kept ⟨r, q⟩).id id hid)

/-- Whatever a rule that has just been built is asked, and whatever its logic answers: hooks that
do not fit are refused and change nothing, hooks that fail leave the stage, issues carry the id of
the rule unless they came with another, the hooks that pass are those of a run as far as it went,
and an id stays. -/
theorem asked_orderly (kind : String) (logic : Logic) (requests : List Request) :
    let fresh : Rule := { kind, logic }
    let exchanges := history fresh requests
    (∀ x ∈ exchanges, x.Kept) ∧ (∃ artifacts, passedHooks exchanges <+: hooksOf artifacts) ∧
      (fresh.asked requests).stage.LedBy (passedHooks exchanges) ∧
      ∀ before later id, requests = before ++ later → (fresh.asked before).id = some id →
        (fresh.asked requests).id = some id := by
  intro fresh exchanges
  have hfresh : fresh.stage.LedBy [] := rfl
  have hled : (fresh.asked requests).stage.LedBy (passedHooks exchanges) :=
    ledBy_asked hfresh requests
  refine ⟨fun x _ => x.kept, hled.isPrefix, hled, ?_⟩
  intro before later id hrequests hid
  rw [hrequests, asked_append]
  exact id_asked hid later

end FlowLint

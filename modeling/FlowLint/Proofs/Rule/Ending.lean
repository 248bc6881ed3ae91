import FlowLint.Proofs.Rule.Requests
import FlowLint.Extension.Declared

/-!
# The last hook of a rule

The hook that finishes a rule is meant to be entered once, with nothing after it. A rule is
finalized when that hook passes, and from then on it refuses every call. A finish that fails
leaves the rule active instead, so that it takes whatever an active rule takes: artifacts, and
further attempts to finish. What was meant therefore holds exactly as long as a rule whose finish
has failed is asked nothing but to start. Runs stop at the first failure and ask nothing more; no
such restraint is put on others who call a rule.
-/

namespace FlowLint

/-! ## Hooks that are entered -/

/-- The hook that was entered, if one was, whether it then passed or failed. -/
def Exchange.entered? (x : Exchange) : Option Hook :=
  match x.request with
  | .assign _ => none
  | .call h => if x.rule.stage = Rule.stageFor h.name then some h else none

/-- A call that enters no hook and changes nothing, in a request to call one. -/
def Exchange.IsRefused (x : Exchange) : Prop :=
  ∀ h, x.request = .call h →
    x.failure? = some (.lifecycle x.rule.display h.name x.rule.stage) ∧ x.entered? = none ∧
      x.issues = [] ∧ x.after = x.rule

/-- What is meant of the hook that finishes a rule. -/
structure EndsOnce (exchanges : List Exchange) : Prop where
  once : ((exchanges.filterMap Exchange.entered?).filter (·.name = .finish)).length ≤ 1
  last : ∀ before x later, exchanges = before ++ x :: later → x.entered? = some .finish →
    ∀ y ∈ later, y.IsRefused

/-- A finish that was entered and failed. -/
structure Exchange.FailsToFinish (x : Exchange) : Prop where
  entered : x.entered? = some .finish
  failed : x.failure? ≠ none

section Exchange

variable {x : Exchange} {h : Hook}

@[simp] theorem Exchange.entered?_eq_some :
    x.entered? = some h ↔ x.request = .call h ∧ x.rule.stage.Takes h := by
  obtain ⟨r, q⟩ := x
  rw [Stage.takes_iff]
  cases q with
  | assign id => simp [Exchange.entered?]
  | call h' =>
    simp only [Exchange.entered?, Request.call.injEq]
    split
    · next hstage =>
      constructor
      · intro heq
        cases heq
        exact ⟨rfl, hstage⟩
      · rintro ⟨rfl, -⟩
        rfl
    · next hstage =>
      constructor
      · intro heq
        cases heq
      · rintro ⟨rfl, hfits⟩
        exact absurd hfits hstage

/-- The rule keeps account of the hooks it has entered. -/
theorem Exchange.entered_after (x : Exchange) :
    x.after.entered = x.rule.entered ++ x.entered?.toList := by
  obtain ⟨r, q⟩ := x
  cases q with
  | assign id =>
    have hentered : Exchange.entered? ⟨r, .assign id⟩ = none := rfl
    rw [hentered, Option.toList_none, List.append_nil]
    cases hid : r.id with
    | none => rw [after_assign_of_none hid]
    | some existing => rw [after_assign_of_some hid]
  | call h =>
    show (r.call h).rule.entered = _
    by_cases hstage : r.stage = Rule.stageFor h.name
    · have hentered : Exchange.entered? ⟨r, .call h⟩ = some h := if_pos hstage
      rw [Rule.entered_call hstage, hentered, Option.toList_some]
    · have hentered : Exchange.entered? ⟨r, .call h⟩ = none := if_neg hstage
      rw [Rule.call_of_refused hstage, hentered, Option.toList_none, List.append_nil]

theorem Exchange.isRefused_iff :
    x.IsRefused ↔ ∀ h, x.request = .call h → ¬ x.rule.stage.Takes h := by
  constructor
  · intro hrefused h hcall htakes
    obtain ⟨-, hnone, -⟩ := hrefused h hcall
    rw [Exchange.entered?_eq_some.mpr ⟨hcall, htakes⟩] at hnone
    cases hnone
  · intro hnot h hcall
    obtain ⟨hfailure, hissues, hafter⟩ := x.kept.refused h hcall (hnot h hcall)
    refine ⟨hfailure, ?_, hissues, hafter⟩
    cases hentered : x.entered? with
    | none => rfl
    | some h' =>
      obtain ⟨hcall', htakes⟩ := Exchange.entered?_eq_some.mp hentered
      exact absurd htakes (hnot h' hcall')

theorem Exchange.IsRefused.entered? (hrefused : x.IsRefused) : x.entered? = none := by
  cases hrequest : x.request with
  | assign id => rw [Exchange.entered?, hrequest]
  | call h => exact (hrefused h hrequest).2.1

theorem Exchange.IsRefused.passed? (hrefused : x.IsRefused) : x.passed? = none := by
  cases hpassed : x.passed? with
  | none => rfl
  | some h =>
    obtain ⟨hcall, -⟩ := Exchange.passed?_eq_some.mp hpassed
    have hnotTakes : ¬x.rule.stage.Takes h := Exchange.isRefused_iff.mp hrefused h hcall
    exact absurd (Exchange.stage_of_passed hpassed).1 hnotTakes

/-- Whether a finish fails decides the stage after it. -/
theorem Exchange.stage_of_finish (hentered : x.entered? = some .finish) :
    (x.failure? = none → x.after.stage = .finalized) ∧
      (x.failure? ≠ none → x.after.stage = .active) := by
  obtain ⟨hcall, htakes⟩ := Exchange.entered?_eq_some.mp hentered
  constructor
  · intro hfailure
    exact (Exchange.stage_of_passed (Exchange.passed?_eq_some.mpr ⟨hcall, hfailure⟩)).2
  · intro hfailure
    have hpassed : x.passed? = none := by
      cases hpassed : x.passed? with
      | none => rfl
      | some h => exact absurd (Exchange.passed?_eq_some.mp hpassed).2 hfailure
    rw [Exchange.stage_of_not_passed hpassed]
    exact Stage.takes_iff.mp htakes

end Exchange

/-! ## Histories -/

section History

variable {r : Rule} {requests : List Request} {before later : List Exchange} {x y : Exchange}

@[simp] theorem history_cons (r : Rule) (q : Request) (rest : List Request) :
    history r (q :: rest) = ⟨r, q⟩ :: history (Exchange.after ⟨r, q⟩) rest :=
  rfl

/-- What follows an exchange is the history of the rule that it leaves. -/
theorem later_of_history (hsplit : history r requests = before ++ x :: later) :
    ∃ rest, later = history x.after rest := by
  induction requests generalizing r before with
  | nil => cases before <;> cases hsplit
  | cons q rest ih =>
    rw [history_cons] at hsplit
    cases before with
    | nil =>
      obtain ⟨hx, hlater⟩ := List.cons.inj hsplit
      rw [← hx]
      exact ⟨rest, hlater.symm⟩
    | cons first before => exact ih (List.cons.inj hsplit).2

/-- The hooks that were entered are those of the exchanges in which one was. -/
theorem entered_asked (r : Rule) (requests : List Request) :
    (r.asked requests).entered =
      r.entered ++ (history r requests).filterMap Exchange.entered? := by
  induction requests generalizing r with
  | nil => exact (List.append_nil _).symm
  | cons q rest ih =>
    have hrest : (r.asked (q :: rest)).entered = _ := ih (Exchange.after ⟨r, q⟩)
    rw [hrest, Exchange.entered_after, history_cons, List.filterMap_cons]
    cases Exchange.entered? ⟨r, q⟩ <;> simp

/-- What holds of the stage at first, and after each hook that passes, holds at every exchange that
comes after these. -/
theorem stage_of_history (P : Stage → Prop) (hstage : P r.stage)
    (hsplit : history r requests = before ++ y :: later)
    (hstep : ∀ z ∈ before, ∀ h, z.passed? = some h → z.rule.stage.Takes h → P z.rule.stage →
      P (Rule.stageAfter h.name)) : P y.rule.stage := by
  induction requests generalizing r before with
  | nil => cases before <;> cases hsplit
  | cons q rest ih =>
    rw [history_cons] at hsplit
    cases before with
    | nil =>
      rw [← (List.cons.inj hsplit).1]
      exact hstage
    | cons first before =>
      obtain ⟨rfl, hrest⟩ := List.cons.inj hsplit
      apply ih _ hrest fun z hz => hstep z (List.mem_cons_of_mem _ hz)
      cases hpassed : Exchange.passed? ⟨r, q⟩ with
      | none =>
        rw [Exchange.stage_of_not_passed hpassed]
        exact hstage
      | some h =>
        obtain ⟨htakes, hafter⟩ := Exchange.stage_of_passed hpassed
        rw [hafter]
        exact hstep _ List.mem_cons_self h hpassed htakes hstage

/-- A stage that takes no hook is never left. -/
theorem refused_of_finalized (hstage : r.stage = .finalized) (hy : y ∈ history r requests) :
    y.IsRefused := by
  obtain ⟨before, later, hsplit⟩ := List.append_of_mem hy
  have hfinal : y.rule.stage = .finalized :=
    stage_of_history (· = .finalized) hstage hsplit fun z _ h _ htakes hz => by
      rw [hz] at htakes
      cases htakes
  apply Exchange.isRefused_iff.mpr
  intro h _ htakes
  rw [hfinal] at htakes
  cases htakes

/-- A rule that has started is not started again. -/
theorem refused_of_start (hstage : r.stage ≠ .configured) (hy : y ∈ history r requests)
    (hstart : ∀ h, y.request = .call h → h = .start) : y.IsRefused := by
  obtain ⟨before, later, hsplit⟩ := List.append_of_mem hy
  have hstarted : y.rule.stage ≠ .configured :=
    stage_of_history (· ≠ .configured) hstage hsplit fun z _ h _ _ _ => by cases h <;> exact nofun
  apply Exchange.isRefused_iff.mpr
  intro h hcall htakes
  rw [hstart h hcall] at htakes
  exact hstarted (Stage.takes_iff.mp htakes)

/-- A rule stays active until it has finished. -/
theorem active_of_unfinished (hstage : r.stage = .active)
    (hsplit : history r requests = before ++ y :: later)
    (hbefore : ∀ z ∈ before, z.passed? ≠ some .finish) : y.rule.stage = .active := by
  refine stage_of_history (· = .active) hstage hsplit fun z hz h hpassed htakes hactive => ?_
  rw [hactive] at htakes
  cases htakes with
  | inspect a => rfl
  | finish => exact absurd hpassed (hbefore z hz)

end History

/-! ## Ends -/

/-- Where nothing is entered after a finish, no other finish is. -/
theorem once_of_last {exchanges : List Exchange}
    (hlast : ∀ before x later, exchanges = before ++ x :: later → x.entered? = some .finish →
      ∀ y ∈ later, y.IsRefused) : EndsOnce exchanges := by
  refine ⟨?_, hlast⟩
  induction exchanges with
  | nil => exact Nat.zero_le 1
  | cons first rest ih =>
    have hrest := ih fun before x later hsplit => hlast (first :: before) x later (by rw [hsplit]; rfl)
    rw [List.filterMap_cons]
    cases hfirst : first.entered? with
    | none => exact hrest
    | some h =>
      cases h with
      | start | inspect => exact hrest
      | finish =>
        have hnone : rest.filterMap Exchange.entered? = [] := by
          apply List.filterMap_eq_nil_iff.mpr
          intro y hy
          have hrefused : y.IsRefused := hlast [] first rest rfl hfirst y hy
          exact hrefused.entered?
        rw [hnone]
        exact Nat.le_refl 1

/-- A finish that passes is the last hook that a rule enters, and one that fails is not: the rule
goes on taking artifacts and finishing until a finish passes. So a rule ends once exactly if it is
asked nothing but to start once a finish has failed. -/
theorem asked_ending (kind : String) (logic : Logic) (requests : List Request) :
    let fresh : Rule := { kind, logic }
    let exchanges := history fresh requests
    (fresh.asked requests).entered = exchanges.filterMap Exchange.entered? ∧
      (∀ before x later, exchanges = before ++ x :: later → x.passed? = some .finish →
        ∀ y ∈ later, y.IsRefused) ∧
      (∀ before x between y later, exchanges = before ++ x :: (between ++ y :: later) →
        x.FailsToFinish → (∀ z ∈ between, z.passed? ≠ some .finish) →
        ∀ h, y.request = .call h → h ≠ .start → y.entered? = some h) ∧
      (EndsOnce exchanges ↔ ∀ before x later, exchanges = before ++ x :: later →
        x.FailsToFinish → ∀ y ∈ later, ∀ h, y.request = .call h → h = .start) := by
  intro fresh exchanges
  have hpasses : ∀ before x later, exchanges = before ++ x :: later → x.passed? = some .finish →
      ∀ y ∈ later, y.IsRefused := by
    intro before x later hsplit hpassed y hy
    obtain ⟨rest, rfl⟩ := later_of_history hsplit
    exact refused_of_finalized (Exchange.stage_of_passed hpassed).2 hy
  have hfails : ∀ before x between y later,
      exchanges = before ++ x :: (between ++ y :: later) → x.FailsToFinish →
      (∀ z ∈ between, z.passed? ≠ some .finish) →
      ∀ h, y.request = .call h → h ≠ .start → y.entered? = some h := by
    intro before x between y later hsplit hx hbetween h hcall hstart
    obtain ⟨rest, hrest⟩ := later_of_history hsplit
    have hactive : y.rule.stage = .active :=
      active_of_unfinished ((Exchange.stage_of_finish hx.entered).2 hx.failed) hrest.symm hbetween
    apply Exchange.entered?_eq_some.mpr
    refine ⟨hcall, ?_⟩
    rw [hactive]
    cases h with
    | start => exact absurd rfl hstart
    | inspect a => exact .inspect a
    | finish => exact .finish
  have henteredAsked : (fresh.asked requests).entered =
      fresh.entered ++ (history fresh requests).filterMap Exchange.entered? :=
    entered_asked fresh requests
  refine ⟨henteredAsked.trans (List.nil_append _), hpasses, hfails, ?_⟩
  constructor
  · intro hends before x later hsplit hx y hy h hcall
    by_contra hstart
    obtain ⟨between, rest, rfl⟩ := List.append_of_mem hy
    have hrefused := hends.last before x _ hsplit hx.entered
    have hbetween : ∀ z ∈ between, z.passed? ≠ some .finish := by
      intro z hz
      have hisRefused : z.IsRefused := hrefused z (List.mem_append_left _ hz)
      rw [hisRefused.passed?]
      exact nofun
    have hentered := hfails before x between y rest hsplit hx hbetween h hcall hstart
    rw [(hrefused y hy).entered?] at hentered
    cases hentered
  · intro hasked
    apply once_of_last
    intro before x later hsplit hentered y hy
    by_cases hfailure : x.failure? = none
    · have hpassed : x.passed? = some .finish :=
        Exchange.passed?_eq_some.mpr ⟨(Exchange.entered?_eq_some.mp hentered).1, hfailure⟩
      exact hpasses before x later hsplit hpassed y hy
    · have hx : x.FailsToFinish := ⟨hentered, hfailure⟩
      have hstage : x.after.stage ≠ .configured := by
        rw [(Exchange.stage_of_finish hentered).2 hfailure]
        exact nofun
      have honly := hasked before x later hsplit hx y hy
      obtain ⟨rest, rfl⟩ := later_of_history hsplit
      exact refused_of_start hstage hy honly

/-- The rule of an extension whose finish fails enters it as often as it is asked to. -/
theorem asked_finishAgain :
    ¬ ∀ (kind : String) (logic : Logic) (requests : List Request),
      EndsOnce (history { kind, logic } requests) := by
  intro hends
  have hlogic := hends "custom" (Extension.Declared.logic { failsAt := some .finish })
  have honce := (hlogic [.call .start, .call .finish, .call .finish]).once
  have htwice : ¬ 2 ≤ 1 := by decide
  exact htwice honce

end FlowLint

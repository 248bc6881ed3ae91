import FlowLint.Proofs.Rule.Emission
import FlowLint.Proofs.Rule.Requests

/-!
# Rules with a memory

A logic answers by the hooks that were entered before it. A rule that judges all artifacts of a run
together does not have to keep them for that: it can gather from each what its judgement needs, and
judge what it has gathered. Whether it does one or the other cannot be told from outside, neither by
asking one rule after another in any order nor by any run, provided the judgement does not fail. One
that fails can be asked for again, and would then be made of what is left in the memory; nothing is
said of that here.
-/

namespace FlowLint

open FlowLint.Flow (Artifact)

/-! ## Rules that cannot be told apart -/

/-- What is asked in two exchanges and what comes of it are the same. -/
structure Exchange.Alike (x y : Exchange) : Prop where
  request : y.request = x.request
  issues : y.issues = x.issues
  failure : y.failure? = x.failure?

/-- A relation of rules that no request ends and no answer betrays. -/
structure Rule.Bisimulation (R : Rule → Rule → Prop) : Prop where
  alike : ∀ {r s : Rule}, R r s → ∀ q, Exchange.Alike ⟨r, q⟩ ⟨s, q⟩
  after : ∀ {r s : Rule}, R r s → ∀ q, R (Exchange.after ⟨r, q⟩) (Exchange.after ⟨s, q⟩)

/-- What two passes have come to is the same, but for rules that are related. -/
structure Pass.Alike {σ : Type} (R : Rule → Rule → Prop) (p q : Pass σ) : Prop where
  rules : List.Forall₂ R p.rules q.rules
  sink : q.sink = p.sink
  trace : q.trace = p.trace
  failure : q.failure = p.failure

/-- What two runs have come to is the same, but for rules that are related. -/
structure Outcome.Alike {σ : Type} (R : Rule → Rule → Prop) (o q : Outcome σ) : Prop where
  rules : List.Forall₂ R o.rules q.rules
  sink : q.sink = o.sink
  trace : q.trace = o.trace
  inspected : q.artifactsInspected = o.artifactsInspected
  failure : q.failure = o.failure

theorem Outcome.Alike.imp {σ : Type} {R S : Rule → Rule → Prop} {o q : Outcome σ}
    (h : Outcome.Alike R o q) (hRS : ∀ r s, R r s → S r s) : Outcome.Alike S o q :=
  { h with rules := h.rules.imp hRS }

theorem Outcome.alike_refl {σ : Type} {R : Rule → Rule → Prop} (hR : ∀ r, R r r) (o : Outcome σ) :
    Outcome.Alike R o o :=
  ⟨List.forall₂_same.mpr fun r _ => hR r, rfl, rfl, rfl, rfl⟩

theorem history_alike_refl (exchanges : List Exchange) :
    List.Forall₂ Exchange.Alike exchanges exchanges :=
  List.forall₂_same.mpr fun _ _ => ⟨rfl, rfl, rfl⟩

/-- Rules that differ in their logic at most. -/
def Rule.SameBut (r s : Rule) : Prop :=
  s = { r with logic := s.logic }

theorem Rule.sameBut_refl (r : Rule) : r.SameBut r :=
  rfl

namespace Rule.Bisimulation

variable {R : Rule → Rule → Prop} {r s : Rule} {σ : Type} [Sink σ]

/-- Related rules tell the same story, whatever they are asked. -/
theorem history (hR : Bisimulation R) (h : R r s) (requests : List Request) :
    List.Forall₂ Exchange.Alike (history r requests) (history s requests) := by
  induction requests generalizing r s with
  | nil => exact .nil
  | cons q rest ih => exact .cons (hR.alike h q) (ih (hR.after h q))

/-- Rules that cannot be told apart answer a call alike and stay so. -/
theorem call (hR : Bisimulation R) (h : R r s) (hook : Hook) :
    (s.call hook).issues = (r.call hook).issues ∧
      (s.call hook).failure = (r.call hook).failure ∧ R (r.call hook).rule (s.call hook).rule :=
  ⟨(hR.alike h (.call hook)).issues, (hR.alike h (.call hook)).failure, hR.after h (.call hook)⟩

theorem callEach (hR : Bisimulation R) (hook : Hook) {rules others : List Rule}
    (h : List.Forall₂ R rules others) (place : Nat) (sink : σ) :
    Pass.Alike R (callEach hook place sink rules) (callEach hook place sink others) := by
  induction h generalizing place sink with
  | nil => exact ⟨.nil, rfl, rfl, rfl⟩
  | @cons r s rules others hfirst hrest ih =>
    obtain ⟨hissues, hfailure, hrule⟩ := hR.call hfirst hook
    cases hcall : (r.call hook).failure with
    | some e =>
      rw [callEach_failed hcall, callEach_failed (hfailure.trans hcall), hissues]
      exact ⟨.cons hrule hrest, rfl, rfl, rfl⟩
    | none =>
      have hlater := ih (place + 1) (Sink.acceptAll sink (r.call hook).issues)
      rw [callEach_passed hcall, callEach_passed (hfailure.trans hcall), hissues]
      have htrace := congrArg (⟨place, hook⟩ :: ·) hlater.trace
      exact ⟨.cons hrule hlater.rules, hlater.sink, htrace, hlater.failure⟩

omit [Sink σ] in
theorem proceed {p q : Pass σ} (h : Pass.Alike R p q) (inspected : Nat)
    {rest : List Rule → σ → Outcome σ}
    (hrest : ∀ {rules others : List Rule}, List.Forall₂ R rules others → ∀ sink,
      Outcome.Alike R (rest rules sink) (rest others sink)) :
    Outcome.Alike R (p.proceed inspected rest) (q.proceed inspected rest) := by
  rw [Pass.proceed, Pass.proceed, h.failure]
  cases p.failure with
  | some e => exact ⟨h.rules, h.sink, h.trace, rfl, rfl⟩
  | none =>
    have hlater := hrest h.rules p.sink
    dsimp only
    rw [h.sink, Outcome.after, Outcome.after, h.trace]
    exact ⟨hlater.rules, hlater.sink, congrArg (p.trace ++ ·) hlater.trace, hlater.inspected,
      hlater.failure⟩

theorem runRest (hR : Bisimulation R) (supply : List (Except Markup.Error Artifact)) :
    ∀ {rules others : List Rule}, List.Forall₂ R rules others → ∀ (sink : σ) (inspected : Nat),
      Outcome.Alike R (runRest rules sink inspected supply)
        (runRest others sink inspected supply) := by
  induction supply with
  | nil =>
    intro rules others h sink inspected
    have hpass := hR.callEach .finish h 0 sink
    have hfailure := congrArg (Option.map RunError.evaluation) hpass.failure
    exact ⟨hpass.rules, hpass.sink, hpass.trace, rfl, hfailure⟩
  | cons item rest ih =>
    intro rules others h sink inspected
    cases item with
    | error e => exact ⟨h, rfl, rfl, rfl, rfl⟩
    | ok a =>
      rw [runRest_ok, runRest_ok]
      have halike : Pass.Alike R (FlowLint.callEach (Hook.inspect a) 0 sink rules)
          (FlowLint.callEach (Hook.inspect a) 0 sink others) :=
        hR.callEach (.inspect a) h 0 sink
      exact proceed halike inspected fun hrules sink =>
        ih hrules sink (inspected + 1)

/-- Runs of related rules come to the same. -/
theorem run (hR : Bisimulation R) {rules others : List Rule} (h : List.Forall₂ R rules others)
    (supply : List (Except Markup.Error Artifact)) (sink : σ) :
    Outcome.Alike R (run rules supply sink) (run others supply sink) := by
  rw [run_eq, run_eq]
  have halike : Pass.Alike R (FlowLint.callEach Hook.start 0 sink rules)
      (FlowLint.callEach Hook.start 0 sink others) :=
    hR.callEach .start h 0 sink
  exact proceed halike 0 fun hrules sink => hR.runRest supply hrules sink 0

/-- Rules can be exchanged for related ones while others stay as they are. -/
theorem orEq (hR : Bisimulation R) : Bisimulation fun r s => R r s ∨ s = r where
  alike h q := by
    rcases h with h | rfl
    · exact hR.alike h q
    · exact ⟨rfl, rfl, rfl⟩
  after h q := by
    rcases h with h | rfl
    · exact .inl (hR.after h q)
    · exact .inr rfl

end Rule.Bisimulation

/-! ## Memories -/

/-- A memory of a rule: what is in it at first, what an artifact adds to it, how the rule judges by
it in the end, and what of it is left then. -/
structure Memory (μ : Type) where
  initial : μ
  gather : μ → Artifact → μ
  judge : μ → Response
  left : μ → μ

namespace Memory

variable {μ : Type} {m : Memory μ} {judge : List Artifact → Response} {r s : Rule}

/-- The memory after a hook. -/
def after (m : Memory μ) (x : μ) : Hook → μ
  | .start => x
  | .inspect a => m.gather x a
  | .finish => m.left x

def remembered (m : Memory μ) (entered : List Hook) : μ :=
  entered.foldl m.after m.initial

/-- The logic of a rule that is silent until its memory holds all that it judges by. -/
def logic (m : Memory μ) : Logic :=
  { inspect := fun _ _ => {}, finish := fun entered => m.judge (m.remembered entered) }

/-- What is gathered of artifacts is enough to judge them, and no judgement fails. -/
structure Suffices (m : Memory μ) (judge : List Artifact → Response) : Prop where
  judges : ∀ artifacts, m.judge (artifacts.foldl m.gather m.initial) = judge artifacts
  passes : ∀ artifacts, (judge artifacts).failure = none

/-- A rule that judges all artifacts together, and the same rule with a memory. -/
structure Mirrors (m : Memory μ) (judge : List Artifact → Response) (r s : Rule) : Prop where
  logic : r.logic = .perRun judge
  other : s = { r with logic := m.logic }
  led : r.stage.LedBy r.entered

theorem remembered_start (artifacts : List Artifact) :
    m.remembered (.start :: artifacts.map .inspect) = artifacts.foldl m.gather m.initial := by
  rw [remembered, List.foldl_cons, List.foldl_map]
  rfl

theorem inspected_start (artifacts : List Artifact) :
    inspected (.start :: artifacts.map .inspect) = artifacts := by
  rw [inspected, List.filterMap_cons_none rfl, List.filterMap_map]
  simp only [Function.comp_def, List.filterMap_some]

/-- A hook that fits the stage is answered from the memory as from the artifacts, without failure. -/
theorem Mirrors.respond (hm : m.Suffices judge) (h : m.Mirrors judge r s) {hook : Hook}
    (hstage : r.stage = Rule.stageFor hook.name) :
    s.respond hook = r.respond hook ∧ (r.respond hook).failure = none := by
  obtain ⟨hlogic, rfl, hled⟩ := h
  cases hook with
  | start | inspect a =>
    simp only [Rule.respond, hlogic]
    exact ⟨rfl, rfl⟩
  | finish =>
    have hactive : r.stage = .active := hstage
    rw [hactive] at hled
    obtain ⟨artifacts, hentered⟩ := hled
    have hmemory : m.judge (m.remembered r.entered) = judge (inspected r.entered) := by
      rw [hentered, remembered_start, inspected_start]
      exact hm.judges artifacts
    simp only [Rule.respond, hlogic]
    exact ⟨hmemory, hm.passes _⟩

theorem Mirrors.call (hm : m.Suffices judge) (h : m.Mirrors judge r s) (hook : Hook) :
    (s.call hook).issues = (r.call hook).issues ∧
      (s.call hook).failure = (r.call hook).failure ∧
      m.Mirrors judge (r.call hook).rule (s.call hook).rule := by
  by_cases hstage : r.stage = Rule.stageFor hook.name
  · obtain ⟨hrespond, hanswer⟩ := h.respond hm hstage
    have hother : s.stage = Rule.stageFor hook.name := h.other ▸ hstage
    have hanswer' : (s.respond hook).failure = none := hrespond ▸ hanswer
    have hled : (r.advanced [hook]).stage.LedBy (r.advanced [hook]).entered :=
      h.led.next (Stage.takes_iff.mpr hstage)
    rw [Rule.call_of_answer hstage hanswer, Rule.call_of_answer hother hanswer', hrespond, h.other]
    exact ⟨rfl, rfl, h.logic, rfl, hled⟩
  · have hother : s.stage ≠ Rule.stageFor hook.name := h.other ▸ hstage
    rw [Rule.call_of_refused hstage, Rule.call_of_refused hother, h.other]
    exact ⟨rfl, rfl, h.logic, rfl, h.led⟩

theorem Mirrors.assignId (h : m.Mirrors judge r s) (id : String) :
    m.Mirrors judge (Exchange.after ⟨r, .assign id⟩) (Exchange.after ⟨s, .assign id⟩) := by
  have hid : s.id = r.id := by rw [h.other]
  cases hfirst : r.id with
  | none =>
    rw [Exchange.after_assign_of_none hfirst, Exchange.after_assign_of_none (hid.trans hfirst),
      h.other]
    exact ⟨h.logic, rfl, h.led⟩
  | some existing =>
    rw [Exchange.after_assign_of_some hfirst, Exchange.after_assign_of_some (hid.trans hfirst)]
    exact h

/-- A memory that suffices answers every request as the history does. -/
theorem Suffices.bisimulation (hm : m.Suffices judge) : Rule.Bisimulation (m.Mirrors judge) where
  alike h q := by
    cases q with
    | assign id => exact ⟨rfl, rfl, rfl⟩
    | call hook =>
      obtain ⟨hissues, hfailure, -⟩ := h.call hm hook
      exact ⟨rfl, hissues, hfailure⟩
  after h q := by
    cases q with
    | assign id => exact h.assignId id
    | call hook => exact (h.call hm hook).2.2

/-- A memory that suffices stands for the artifacts: a rule that has just been built answers the same
with it, whatever it is asked, and a run in which it takes the place of the other comes to the
same. -/
theorem Suffices.indistinct (hm : m.Suffices judge) (kind : String) (id : Option String) :
    let keeps : Rule := { kind, id, logic := .perRun judge }
    let gathers : Rule := { kind, id, logic := m.logic }
    (∀ requests, List.Forall₂ Exchange.Alike (history keeps requests) (history gathers requests)) ∧
      ∀ {σ : Type} [Sink σ] (before later : List Rule)
        (supply : List (Except Markup.Error Artifact)) (sink : σ),
        Outcome.Alike Rule.SameBut (run (before ++ keeps :: later) supply sink)
          (run (before ++ gathers :: later) supply sink) := by
  intro keeps gathers
  have hmirrors : m.Mirrors judge keeps gathers := ⟨rfl, rfl, rfl⟩
  have hsame : ∀ rules : List Rule,
      List.Forall₂ (fun r s => m.Mirrors judge r s ∨ s = r) rules rules := fun rules =>
    List.forall₂_same.mpr fun _ _ => .inr rfl
  have hhistory : ∀ requests,
      List.Forall₂ Exchange.Alike (history keeps requests) (history gathers requests) :=
    hm.bisimulation.history hmirrors
  refine ⟨hhistory, ?_⟩
  intro σ _ before later supply sink
  have hrules := List.rel_append (hsame before) (.cons (.inl hmirrors) (hsame later))
  refine (hm.bisimulation.orEq.run hrules supply sink).imp ?_
  rintro r s (h | rfl)
  · rw [Rule.SameBut, h.other]
  · rfl

end Memory

end FlowLint

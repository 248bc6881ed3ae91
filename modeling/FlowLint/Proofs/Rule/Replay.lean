import FlowLint.Rule.Run
import FlowLint.Proofs.Order.Interleaving

/-!
# Replaying a trace

The trace of a run lists the hooks that were called, each with the place of its rule. To
replay it is to call them again, one by one, on rules as they stood at first. A rule answers
to the hooks called on it and to nothing else, so what a replay does at one place is to call
on the rule there the hooks that the trace has for this place, whatever it has for others.
-/

namespace FlowLint

open FlowLint.Order

/-! ## One rule -/

namespace Rule

/-- The rule after hooks have been called on it. -/
def after (r : Rule) (hooks : List Hook) : Rule :=
  hooks.foldl (fun r h => (r.call h).rule) r

/-- The issues raised by hooks called on the rule in turn. -/
def issuesAlong : Rule → List Hook → List Issue
  | _, [] => []
  | r, h :: rest => (r.call h).issues ++ issuesAlong (r.call h).rule rest

/-- No hook fails of those called on the rule in turn. -/
def Passes : Rule → List Hook → Prop
  | _, [] => True
  | r, h :: rest => (r.call h).failure = none ∧ Passes (r.call h).rule rest

@[simp] theorem after_cons (r : Rule) (h : Hook) (rest : List Hook) :
    r.after (h :: rest) = (r.call h).rule.after rest :=
  rfl

@[simp] theorem after_append (r : Rule) (hooks more : List Hook) :
    r.after (hooks ++ more) = (r.after hooks).after more :=
  List.foldl_append

end Rule

/-! ## Rules at their places -/

namespace Step

/-- The rules after a step. -/
def act (s : Step) (rules : List Rule) : List Rule :=
  rules.modify s.place fun r => (r.call s.hook).rule

/-- The issues that a step raises. -/
def issues (s : Step) (rules : List Rule) : List Issue :=
  (rules[s.place]?.map fun r => (r.call s.hook).issues).getD []

/-- Why a step fails, if it does. -/
def failure? (s : Step) (rules : List Rule) : Option EvaluationError :=
  rules[s.place]?.bind fun r => (r.call s.hook).failure

@[simp] theorem length_act (s : Step) (rules : List Rule) : (s.act rules).length = rules.length :=
  List.length_modify _ _ _

theorem getElem?_act_self (s : Step) (rules : List Rule) :
    (s.act rules)[s.place]? = rules[s.place]?.map fun r => (r.call s.hook).rule := by
  rw [act, List.getElem?_modify]
  simp

theorem getElem?_act_ne {s : Step} {place : Nat} (h : s.place ≠ place) (rules : List Rule) :
    (s.act rules)[place]? = rules[place]? := by
  rw [act, List.getElem?_modify]
  simp [h]

end Step

/-- The rules after the steps of a trace. -/
def replay (rules : List Rule) (trace : List Step) : List Rule :=
  trace.foldl (fun rules s => s.act rules) rules

/-- The issues raised along a trace, each with the place of the rule that raised it. -/
def attributed : List Rule → List Step → List (Nat × Issue)
  | _, [] => []
  | rules, s :: rest => (s.issues rules).map (s.place, ·) ++ attributed (s.act rules) rest

/-- The hooks of a trace that were called on the rule at a place. -/
def hooksAt (place : Nat) (trace : List Step) : List Hook :=
  (trace.filter (·.place = place)).map (·.hook)

@[simp] theorem hooksAt_append (place : Nat) (trace more : List Step) :
    hooksAt place (trace ++ more) = hooksAt place trace ++ hooksAt place more := by
  rw [hooksAt, List.filter_append, List.map_append]
  rfl

@[simp] theorem hooksAt_cons_self (s : Step) (rest : List Step) :
    hooksAt s.place (s :: rest) = s.hook :: hooksAt s.place rest := by
  simp [hooksAt]

theorem hooksAt_cons_ne {s : Step} {place : Nat} (h : s.place ≠ place) (rest : List Step) :
    hooksAt place (s :: rest) = hooksAt place rest := by
  simp [hooksAt, h]

theorem replay_append (rules : List Rule) (trace more : List Step) :
    replay rules (trace ++ more) = replay (replay rules trace) more :=
  List.foldl_append

theorem attributed_append (rules : List Rule) (trace more : List Step) :
    attributed rules (trace ++ more) =
      attributed rules trace ++ attributed (replay rules trace) more := by
  induction trace generalizing rules with
  | nil => rfl
  | cons s rest ih =>
    rw [List.cons_append, attributed, ih, attributed, List.append_assoc]
    rfl

@[simp] theorem length_replay (rules : List Rule) (trace : List Step) :
    (replay rules trace).length = rules.length := by
  induction trace generalizing rules with
  | nil => rfl
  | cons s rest ih =>
    have hlength : (replay (s.act rules) rest).length = (s.act rules).length := ih (s.act rules)
    have hlengthAct : (s.act rules).length = rules.length := s.length_act rules
    exact hlength.trans hlengthAct

/-- The rule at a place only knows of the hooks called on it. -/
@[simp] theorem getElem?_replay (rules : List Rule) (trace : List Step) (place : Nat) :
    (replay rules trace)[place]? = rules[place]?.map (·.after (hooksAt place trace)) := by
  induction trace generalizing rules with
  | nil => exact Option.map_id'.symm
  | cons s rest ih =>
    have hstep : replay rules (s :: rest) = replay (s.act rules) rest := rfl
    rw [hstep, ih]
    by_cases h : s.place = place
    · subst h
      rw [Step.getElem?_act_self, hooksAt_cons_self, Option.map_map]
      rfl
    · rw [Step.getElem?_act_ne h, hooksAt_cons_ne h]

/-- The issues of the rule at a place are those raised by the hooks called on it. -/
theorem labelled_attributed (rules : List Rule) (trace : List Step) {place : Nat} {r : Rule}
    (hr : rules[place]? = some r) :
    labelled place (attributed rules trace) = r.issuesAlong (hooksAt place trace) := by
  induction trace generalizing rules r with
  | nil => rfl
  | cons s rest ih =>
    rw [attributed, labelled_append]
    by_cases h : s.place = place
    · subst h
      have hact := s.getElem?_act_self rules
      rw [hr, Option.map_some] at hact
      simp [ih _ hact, Rule.issuesAlong, Step.issues, hr]
    · have hact := (Step.getElem?_act_ne h rules).trans hr
      rw [labelled_map_ne h, ih _ hact, hooksAt_cons_ne h, List.nil_append]

/-- An issue is raised by a rule. -/
theorem lt_length_of_mem_attributed {rules : List Rule} {trace : List Step} {x : Nat × Issue}
    (h : x ∈ attributed rules trace) : x.1 < rules.length := by
  induction trace generalizing rules with
  | nil => cases h
  | cons s rest ih =>
    rw [attributed, List.mem_append] at h
    rcases h with h | h
    · obtain ⟨i, hi, rfl⟩ := List.mem_map.mp h
      rw [Step.issues] at hi
      cases hr : rules[s.place]? with
      | none => simp [hr] at hi
      | some r => exact (List.getElem?_eq_some_iff.mp hr).1
    · rw [← s.length_act rules]
      exact ih h

end FlowLint

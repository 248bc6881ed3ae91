import FlowLint.Rule.Run

/-!
# What a run gives to its sink

Rules answer to the hooks they have been called with and to nothing else, so the sink has no
influence on a run: it is given the issues that a sink which keeps everything would have
kept, in the same order, and all else about the outcome is the same. Nothing is said here of
what a sink does with the issues.
-/

namespace FlowLint

open FlowLint.Flow (Artifact)

variable {σ : Type} [Sink σ]

namespace Sink

@[simp] theorem acceptAll_append (sink : σ) (xs ys : List Issue) :
    acceptAll sink (xs ++ ys) = acceptAll (acceptAll sink xs) ys :=
  List.foldl_append

@[simp] theorem acceptAll_cons (sink : σ) (i : Issue) (rest : List Issue) :
    acceptAll sink (i :: rest) = acceptAll (accept sink i) rest :=
  rfl

end Sink

@[simp] theorem Collector.issues_acceptAll (c : Collector) (issues : List Issue) :
    (Sink.acceptAll c issues).issues = c.issues ++ issues := by
  induction issues generalizing c with
  | nil => exact (List.append_nil _).symm
  | cons i rest ih =>
    rw [Sink.acceptAll_cons, ih]
    exact List.append_assoc _ _ _

/-! ## Outcomes into another sink -/

/-- A pass with all its issues given to another sink. -/
def Pass.into (p : Pass Collector) (sink : σ) : Pass σ :=
  { p with sink := Sink.acceptAll sink p.sink.issues }

/-- An outcome with all its issues given to another sink. -/
def Outcome.into (o : Outcome Collector) (sink : σ) : Outcome σ :=
  { o with sink := Sink.acceptAll sink o.sink.issues }

/-- Issues collected in two stages reach the sink as those of one. -/
@[simp] theorem Outcome.into_into (o : Outcome Collector) (c : Collector) (sink : σ) :
    (o.into c).into sink = o.into (Sink.acceptAll sink c.issues) := by
  simp [Outcome.into]

/-! ## The sink has no influence -/

theorem callEach_failed {h : Hook} {place : Nat} {sink : σ} {r : Rule} {rest : List Rule}
    {e : EvaluationError} (hfail : (r.call h).failure = some e) :
    callEach h place sink (r :: rest) =
      ⟨(r.call h).rule :: rest, Sink.acceptAll sink (r.call h).issues, [⟨place, h⟩], some e⟩ := by
  simp only [callEach, hfail]

theorem callEach_passed {h : Hook} {place : Nat} {sink : σ} {r : Rule} {rest : List Rule}
    (hpass : (r.call h).failure = none) :
    callEach h place sink (r :: rest) =
      let p := callEach h (place + 1) (Sink.acceptAll sink (r.call h).issues) rest
      ⟨(r.call h).rule :: p.rules, p.sink, ⟨place, h⟩ :: p.trace, p.failure⟩ := by
  simp only [callEach, hpass]

/-- One hook called on several rules comes to the same whatever the sink. -/
theorem callEach_into (h : Hook) (rules : List Rule) :
    ∀ (place : Nat) {σ : Type} [Sink σ] (sink : σ),
      callEach h place sink rules = (callEach h place ({} : Collector) rules).into sink := by
  -- The induction is for all sinks at once: the collector itself goes on with issues in it.
  induction rules with
  | nil =>
    intro place σ _ sink
    rfl
  | cons r rest ih =>
    intro place σ _ sink
    have hissues : (Sink.acceptAll ({} : Collector) (r.call h).issues).issues = (r.call h).issues :=
      Collector.issues_acceptAll _ _
    cases hcall : (r.call h).failure with
    | some e =>
      rw [callEach_failed hcall, callEach_failed hcall, Pass.into, hissues]
    | none =>
      rw [callEach_passed hcall, callEach_passed hcall, ih,
        ih (place + 1) (Sink.acceptAll ({} : Collector) _)]
      generalize callEach h (place + 1) ({} : Collector) rest = p
      simp [Pass.into, hissues]

/-! ## From pass to pass -/

/-- What comes of a pass: where a rule failed the run stops, and else the rest of it follows. -/
def Pass.proceed (p : Pass σ) (inspected : Nat) (rest : List Rule → σ → Outcome σ) : Outcome σ :=
  match p.failure with
  | some e => p.stop inspected e
  | none => (rest p.rules p.sink).after p.trace

theorem runRest_ok (rules : List Rule) (sink : σ) (inspected : Nat) (a : Artifact)
    (supply : List (Except Markup.Error Artifact)) :
    runRest rules sink inspected (.ok a :: supply) =
      (callEach (.inspect a) 0 sink rules).proceed inspected fun rules sink =>
        runRest rules sink (inspected + 1) supply :=
  rfl

theorem run_eq (rules : List Rule) (supply : List (Except Markup.Error Artifact)) (sink : σ) :
    run rules supply sink = (callEach .start 0 sink rules).proceed 0 fun rules sink =>
      runRest rules sink 0 supply :=
  rfl

omit [Sink σ] in
/-- A run that comes to its end goes on after each pass. -/
theorem Pass.proceed_passed {p : Pass σ} {inspected : Nat} {rest : List Rule → σ → Outcome σ}
    (h : (p.proceed inspected rest).failure = none) :
    p.failure = none ∧ p.proceed inspected rest = (rest p.rules p.sink).after p.trace ∧
      (rest p.rules p.sink).failure = none := by
  rw [proceed] at h ⊢
  cases hfailure : p.failure with
  | some e =>
    rw [hfailure] at h
    cases h
  | none =>
    rw [hfailure] at h
    exact ⟨rfl, rfl, h⟩

/-- If the rest comes to the same whatever the sink, so do the pass and the rest together. -/
theorem Pass.proceed_into {rest : List Rule → σ → Outcome σ}
    {collected : List Rule → Collector → Outcome Collector}
    (hrest : ∀ rules sink, rest rules sink = (collected rules {}).into sink)
    (hcollected : ∀ rules c, collected rules c = (collected rules {}).into c)
    (p : Pass Collector) (inspected : Nat) (sink : σ) :
    (p.into sink).proceed inspected rest = (p.proceed inspected collected).into sink := by
  obtain ⟨rules, c, trace, failure⟩ := p
  cases failure with
  | some e => rfl
  | none =>
    dsimp only [proceed, Pass.into]
    rw [hrest rules (Sink.acceptAll sink c.issues), hcollected rules c, ← Outcome.into_into]
    rfl

/-- What a run emits does not depend on the sink it emits to. -/
theorem runRest_into (supply : List (Except Markup.Error Artifact)) :
    ∀ (rules : List Rule) (inspected : Nat) {σ : Type} [Sink σ] (sink : σ),
      runRest rules sink inspected supply =
        (runRest rules ({} : Collector) inspected supply).into sink := by
  induction supply with
  | nil =>
    intro rules inspected σ _ sink
    rw [runRest, callEach_into]
    rfl
  | cons item rest ih =>
    intro rules inspected σ _ sink
    cases item with
    | error e => rfl
    | ok a =>
      rw [runRest_ok, runRest_ok, callEach_into]
      exact Pass.proceed_into (fun rules sink => ih rules (inspected + 1) sink)
        (fun rules c => ih rules (inspected + 1) c) _ inspected sink

/-- A run comes to the same whatever the sink, which is given the issues in order. -/
theorem run_into (rules : List Rule) (supply : List (Except Markup.Error Artifact)) (sink : σ) :
    run rules supply sink = (run rules supply ({} : Collector)).into sink := by
  rw [run_eq, run_eq, callEach_into]
  exact Pass.proceed_into (fun rules sink => runRest_into supply rules 0 sink)
    (fun rules c => runRest_into supply rules 0 c) _ 0 sink

end FlowLint

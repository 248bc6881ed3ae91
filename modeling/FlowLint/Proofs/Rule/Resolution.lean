import FlowLint.Catalog.Factory
import Mathlib.Data.List.Forall2

/-!
# Who builds the rule of an element

A registry learns from its factories who claims an element, and only the one factory that does
is given the element to validate and to build its rule. To say that nobody else works on it,
what factories do there is any action, such as one that keeps a record or writes to a disk;
`Registry.create` is the case of factories that do nothing besides. Claiming is a plain
question here: nothing is said of factories that act when they are asked who claims.
-/

namespace FlowLint

open FlowLint.Markup (Element)

variable {m : Type → Type} [Monad m] {g : Registry} {e : Element}

/-- A factory whose validating and creating are actions of any kind. -/
structure Worker (m : Type → Type) where
  claims : RuleName → Bool
  validate : Element → m (Except ConfigurationError Unit)
  create : Element → m (Except ConfigurationError Rule)

namespace Worker

/-- Validates an element, and creates its rule unless there is an objection. -/
def build (w : Worker m) (e : Element) : m (Except ConfigurationError Rule) := do
  match ← w.validate e with
  | .error objection => return .error objection
  | .ok () => w.create e

/-- Has the rule of an element built by the one worker that claims it. -/
def createAmong (workers : List (Worker m)) (e : Element) : m (Except ConfigurationError Rule) :=
  match workers.filter (·.claims (.ofElement e)) with
  | [one] => one.build e
  | [] => return .error (.noFactory (.ofElement e))
  | several => return .error (.ambiguousFactory (.ofElement e) several.length)

/-- The worker does what the factory does and nothing besides. -/
structure Performs (w : Worker m) (f : Factory) : Prop where
  claims : w.claims = f.claims
  build : ∀ e, w.build e = pure (f.build e)

end Worker

/-! ## Factories that do nothing besides -/

/-- A factory that builds without validating first, as all built-in ones do. -/
def Factory.worker (f : Factory) : Worker m :=
  { claims := f.claims
    validate := fun _ => pure (.ok ())
    create := fun e => pure (f.build e) }

/-- An extension, which does both. -/
def ExtensionFactory.worker (x : ExtensionFactory) : Worker m :=
  { claims := x.claimsName
    validate := fun e => pure ((x.validate e).mapError (objection e))
    create := fun e => pure ((x.create e).mapError (objection e)) }

theorem Factory.performs_worker [LawfulMonad m] (f : Factory) :
    (f.worker : Worker m).Performs f := by
  refine ⟨rfl, fun e => ?_⟩
  simp only [Worker.build, worker, pure_bind]

theorem ExtensionFactory.performs_worker [LawfulMonad m] (x : ExtensionFactory) :
    (x.worker : Worker m).Performs x.toFactory := by
  refine ⟨rfl, fun e => ?_⟩
  simp only [Worker.build, worker, toFactory, pure_bind]
  cases x.validate e <;> rfl

theorem forall₂_claimants {workers : List (Worker m)}
    (h : List.Forall₂ Worker.Performs workers g.factories) :
    List.Forall₂ Worker.Performs (workers.filter (·.claims (.ofElement e))) (g.claimants e) :=
  List.rel_filter (fun _ _ hwf => by simp only [hwf.claims]) h

/-- Workers that do what the factories of a registry do, and nothing besides, come to what the
registry comes to. -/
theorem createAmong_of_performs {workers : List (Worker m)}
    (h : List.Forall₂ Worker.Performs workers g.factories) (e : Element) :
    Worker.createAmong workers e = pure (g.create e) := by
  have hclaimants := forall₂_claimants (e := e) h
  unfold Worker.createAmong Registry.create
  generalize workers.filter (·.claims (.ofElement e)) = ws at hclaimants
  generalize g.claimants e = fs at hclaimants
  cases hclaimants with
  | nil => rfl
  | cons hfirst hrest =>
    cases hrest with
    | nil => exact hfirst.build e
    | cons hsecond hmore => simp only [List.length_cons, hmore.length_eq]

/-! ## Elements by the number of their claimants -/

/-- The number of factories that claim an element. -/
def Registry.claimCount (g : Registry) (e : Element) : Nat :=
  g.factories.countP (·.claims (.ofElement e))

@[simp] theorem length_claimants (g : Registry) (e : Element) :
    (g.claimants e).length = g.claimCount e :=
  List.countP_eq_length_filter.symm

theorem create_of_unclaimed (h : g.claimCount e = 0) :
    g.create e = .error (.noFactory (.ofElement e)) := by
  have hnone : g.claimants e = [] := List.eq_nil_of_length_eq_zero ((length_claimants g e).trans h)
  rw [Registry.create, hnone]

theorem create_of_ambiguous (h : 2 ≤ g.claimCount e) :
    g.create e = .error (.ambiguousFactory (.ofElement e) (g.claimCount e)) := by
  rw [← length_claimants] at h ⊢
  unfold Registry.create
  generalize g.claimants e = several at h
  match several with
  | [] => simp at h
  | [_] => simp at h
  | _ :: _ :: _ => rfl

theorem create_of_mem {f : Factory} (h : g.claimCount e = 1) (hf : f ∈ g.factories)
    (hclaims : f.claims (.ofElement e) = true) : g.create e = f.build e := by
  have hlength : (g.claimants e).length = g.claimCount e := length_claimants g e
  obtain ⟨one, hone⟩ := List.length_eq_one_iff.mp (hlength.trans h)
  have hmem : f ∈ g.claimants e := List.mem_filter.mpr ⟨hf, hclaims⟩
  rw [hone] at hmem
  rw [Registry.create, hone, List.mem_singleton.mp hmem]

theorem claimCount_of_create {rule : Rule} (h : g.create e = .ok rule) : g.claimCount e = 1 := by
  rcases Nat.lt_trichotomy (g.claimCount e) 1 with hlt | heq | hgt
  · rw [create_of_unclaimed (Nat.lt_one_iff.mp hlt)] at h
    cases h
  · exact heq
  · rw [create_of_ambiguous hgt] at h
    cases h

/-- Workers who make the claims that the factories of a registry make do not act on an element
that none or several of them claim. -/
theorem createAmong_idle {workers : List (Worker m)}
    (hclaims : workers.map Worker.claims = g.factories.map Factory.claims)
    (hcount : g.claimCount e ≠ 1) : Worker.createAmong workers e = pure (g.create e) := by
  have hlength : (workers.filter (·.claims (.ofElement e))).length = g.claimCount e := by
    have h := congrArg (List.countP fun claims => claims (RuleName.ofElement e)) hclaims
    rw [List.countP_map, List.countP_map] at h
    rw [← List.countP_eq_length_filter]
    exact h
  unfold Worker.createAmong
  generalize workers.filter (·.claims (.ofElement e)) = several at hlength
  match several with
  | [] => rw [create_of_unclaimed hlength.symm]
  | [_] => exact absurd hlength.symm hcount
  | _ :: _ :: _ => rw [create_of_ambiguous (hlength ▸ Nat.le_add_left _ _), ← hlength]

/-- How the rule of an element is come by: it is built by the factory that alone claims the
element, and where there is no such factory none is given any work. -/
structure Resolves (g : Registry) (e : Element) : Prop where
  built : ∀ rule, g.create e = .ok rule → g.claimCount e = 1
  alone : g.claimCount e = 1 →
    ∃ f ∈ g.factories, f.claims (.ofElement e) = true ∧ g.create e = f.build e
  unclaimed : g.claimCount e = 0 → g.create e = .error (.noFactory (.ofElement e))
  ambiguous : 2 ≤ g.claimCount e →
    g.create e = .error (.ambiguousFactory (.ofElement e) (g.claimCount e))
  idle : g.claimCount e ≠ 1 → ∀ (m : Type → Type) [Monad m] (workers : List (Worker m)),
    workers.map Worker.claims = g.factories.map Factory.claims →
      Worker.createAmong workers e = pure (g.create e)

/-- An element is resolved by the one factory that claims it, or refused. -/
theorem resolves (g : Registry) (e : Element) : Resolves g e := by
  have hone : ∀ rule, g.create e = .ok rule → g.claimCount e = 1 :=
    fun rule => claimCount_of_create
  refine ⟨hone, fun h => ?_, create_of_unclaimed, create_of_ambiguous,
    fun hcount m _ workers hclaims => createAmong_idle hclaims hcount⟩
  have hlt : 0 < List.countP (fun f => f.claims (RuleName.ofElement e)) g.factories :=
    Nat.lt_of_lt_of_eq Nat.one_pos h.symm
  obtain ⟨f, hf, hclaims⟩ : ∃ f ∈ g.factories, f.claims (.ofElement e) = true :=
    List.countP_pos_iff.mp hlt
  exact ⟨f, hf, hclaims, create_of_mem h hf hclaims⟩

end FlowLint

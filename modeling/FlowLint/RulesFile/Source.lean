import FlowLint.Path.Normal
import FlowLint.Rule.Error

/-! # Where rules files come from

A source resolves references to rules files and reads the files. Two references to one file resolve to
one path, and there are finitely many paths to resolve to. The source here holds files in memory under
their normalized paths.
-/

namespace FlowLint.RulesFile

/-- A source of rules files. -/
structure Source where
  /-- Every path that a reference can resolve to. -/
  paths : List Path
  resolve : Path → Except FileFailure Path
  read : Path → Except FileFailure String
  mem_paths : ∀ {p q : Path}, resolve p = .ok q → q ∈ paths

namespace Source

/-- The path of a file that is referred to. -/
def locate (s : Source) (p : Path) : Except ConfigurationError Path :=
  (s.resolve p).mapError (.unreadable p)

def text (s : Source) (p : Path) : Except ConfigurationError String :=
  (s.read p).mapError (.unreadable p)

/-- What is located is among the paths. -/
theorem mem_paths_of_locate (s : Source) {p q : Path} (h : s.locate p = .ok q) : q ∈ s.paths := by
  unfold locate at h
  cases hr : s.resolve p with
  | error e => rw [hr] at h; cases h
  | ok r =>
    rw [hr] at h
    cases h
    exact s.mem_paths hr

end Source

/-- The latest text stored under a normalized path. -/
def stored? (files : List (Path × String)) (p : Path) : Option String :=
  (files.reverse.find? fun f => f.1.normalize = p.normalize).map (·.2)

def Source.ofFiles (files : List (Path × String)) : Source :=
  { paths := files.map (·.1.normalize)
    resolve := fun p =>
      if p.normalize ∈ files.map (·.1.normalize) then .ok p.normalize
      else .error .noSuchRulesFile
    read := fun p =>
      match stored? files p with
      | some text => .ok text
      | none => .error .noSuchRulesFile
    mem_paths := by
      intro p q h
      split at h
      · next hp => exact Except.ok.inj h ▸ hp
      · simp at h }

end FlowLint.RulesFile

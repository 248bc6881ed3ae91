import FlowLint.Command.Lint

/-! # Commands and their arguments

What the program can be told to do, and how command lines say it. Options have a long name, and some a
letter; their values follow after `=` or as the next argument, which must not look like an option.
After `--` everything is taken as it stands.
-/

namespace FlowLint

/-- What to do. -/
inductive Command
  | check (lint : Command.Lint) (reportOut : Path) (markdownOut : Option Path)
  | markdown (report : Path) (output : Option Path)
  | annotations (report : Path) (limit : Nat)
  | explain (name : String)
deriving Repr, DecidableEq, Inhabited

namespace Command

/-- Where reports are, unless another place is given. -/
def usualReport : Path := ⟨"artifacts/cpilint/report.json"⟩

/-- The options of a command, with their letters. -/
structure Options where
  names : List String
  letters : List (Char × String) := []
deriving Repr, DecidableEq, Inhabited

/-- An argument that need not wait for the next one. -/
inductive Argument
  | value (option value : String)
  | plain (text : String)
  /-- Says nothing about what to do. -/
  | silent
  /-- An option whose value is the next argument. -/
  | pending (option : String)
  /-- Ends the options. -/
  | endOfOptions
deriving Repr, DecidableEq, Inhabited

/-- An argument that begins with two dashes. -/
def longArgument? (o : Options) (cs : List Char) : Option Argument :=
  let name := String.ofList (cs.takeWhile (· ≠ '='))
  match cs.dropWhile (· ≠ '=') with
  | _ :: value =>
    if o.names.contains name then some (.value name (String.ofList value)) else none
  | [] =>
    if name = "" then some .endOfOptions
    else if name = "verbose" then some .silent
    else if o.names.contains name then some (.pending name)
    else none

/-- An argument of letters after one dash. -/
def letters? (o : Options) : List Char → Option Argument
  | [] => some .silent
  | 'v' :: rest => letters? o rest
  | c :: rest =>
    match o.letters.lookup c, rest with
    | none, _ => none
    | some name, [] => some (.pending name)
    | some name, '=' :: value => some (.value name (String.ofList value))
    | some name, value => some (.value name (String.ofList value))

/-- What an argument is. -/
def argument? (o : Options) (text : String) : Option Argument :=
  match text.toList with
  | '-' :: '-' :: rest => longArgument? o rest
  | ['-'] => some (.plain text)
  | '-' :: rest => letters? o rest
  | _ => some (.plain text)

/-- Whether an argument can be the value of an option. -/
def isValue (text : String) : Bool :=
  text = "-" || text.toList.head? ≠ some '-'

/-- The arguments of a command, read. -/
structure Given where
  values : List (String × String) := []
  plain : List String := []
deriving Repr, DecidableEq, Inhabited

/-- Reads arguments; `pending` is the option that waits for its value. -/
def given? (o : Options) (pending : Option String) : List String → Option Given
  | [] => if pending.isSome then none else some {}
  | text :: rest =>
    match pending with
    | some name =>
      if isValue text then
        (given? o none rest).map fun g => { g with values := (name, text) :: g.values }
      else none
    | none =>
      match argument? o text with
      | none => none
      | some .silent => given? o none rest
      | some (.pending name) => given? o (some name) rest
      | some (.plain s) => (given? o none rest).map fun g => { g with plain := s :: g.plain }
      | some (.value name v) =>
        (given? o none rest).map fun g => { g with values := (name, v) :: g.values }
      | some .endOfOptions => some { plain := rest }

namespace Given

def all (g : Given) (name : String) : List String :=
  (g.values.filter (·.1 = name)).map (·.2)

/-- The value of an option that may be given once. -/
def optional? (g : Given) (name : String) : Option (Option String) :=
  match g.all name with
  | [] => some none
  | [v] => some (some v)
  | _ => none

/-- The path that an option gives, or another. -/
def path? (g : Given) (name : String) (otherwise : Path) : Option Path :=
  (g.optional? name).map fun v => (v.map Path.mk).getD otherwise

end Given

/-- A count: digits, perhaps after a plus, of a number that fits 64 bits. -/
def count? (text : String) : Option Nat :=
  let digits :=
    match text.toList with
    | '+' :: rest => rest
    | cs => cs
  let n := Text.digitsValue digits
  if digits ≠ [] ∧ digits.all Char.isDigit ∧ n < UInt64.size then some n else none

/-- Arguments without plain ones. -/
def onlyOptions? (o : Options) (arguments : List String) : Option Given :=
  (given? o none arguments).filter (·.plain.isEmpty)

def check? (arguments : List String) : Option Command := do
  let g ← onlyOptions? ⟨["rules", "directory", "report-out", "markdown-out"], []⟩ arguments
  let rules ← (← g.optional? "rules")
  let directories := g.all "directory"
  if directories.isEmpty then none
  let markdownOut ← g.optional? "markdown-out"
  return .check ⟨⟨rules⟩, directories.map Path.mk⟩ (← g.path? "report-out" usualReport)
    (markdownOut.map Path.mk)

def markdown? (arguments : List String) : Option Command := do
  let g ← onlyOptions? ⟨["report", "output"], [('o', "output")]⟩ arguments
  let output ← g.optional? "output"
  return .markdown (← g.path? "report" usualReport) (output.map Path.mk)

/-- The command to render a report as annotations, ten of them unless told otherwise. -/
def annotations? (arguments : List String) : Option Command := do
  let g ← onlyOptions? ⟨["report", "max"], []⟩ arguments
  let limit ← count? ((← g.optional? "max").getD "10")
  return .annotations (← g.path? "report" usualReport) limit

def explain? (arguments : List String) : Option Command := do
  match ← given? ⟨[], []⟩ none arguments with
  | ⟨[], [name]⟩ => return .explain name
  | _ => none

/-- The command that arguments give, after options that say nothing. -/
def ofArguments? : List String → Option Command
  | [] => none
  | "check" :: rest => check? rest
  | "md" :: rest => markdown? rest
  | "annotations" :: rest => annotations? rest
  | "explain" :: rest => explain? rest
  | text :: rest =>
    if argument? ⟨[], []⟩ text = some .silent then ofArguments? rest else none

end Command

end FlowLint

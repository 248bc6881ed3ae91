/-! # Artifact tags

An artifact is identified by its id, compared exactly; its tag adds what people call it. Tags are
ordered by id, then name, then package, where no package comes before any.
-/

namespace FlowLint.Flow

structure Package where
  id : String
  name : String
deriving Repr, DecidableEq, Inhabited

/-- What identifies an artifact in issues and reports. -/
structure Tag where
  id : String
  name : String
  package : Option Package := none
deriving Repr, DecidableEq, Inhabited

/-- Packages by id, then name. -/
instance : LT Package :=
  ⟨fun a b => a.id < b.id ∨ (a.id = b.id ∧ a.name < b.name)⟩

instance (a b : Package) : Decidable (a < b) :=
  inferInstanceAs (Decidable (a.id < b.id ∨ (a.id = b.id ∧ a.name < b.name)))

/-- Whether one optional package comes before another. -/
def packageBefore : Option Package → Option Package → Prop
  | none, some _ => True
  | some a, some b => a < b
  | _, none => False

instance : (a b : Option Package) → Decidable (packageBefore a b)
  | none, some _ => isTrue trivial
  | some a, some b => inferInstanceAs (Decidable (a < b))
  | none, none => isFalse id
  | some _, none => isFalse id

/-- Tags by id, then name, then package. -/
instance : LT Tag :=
  ⟨fun a b => a.id < b.id ∨
    (a.id = b.id ∧ (a.name < b.name ∨ (a.name = b.name ∧ packageBefore a.package b.package)))⟩

instance (a b : Tag) : Decidable (a < b) :=
  inferInstanceAs (Decidable (a.id < b.id ∨
    (a.id = b.id ∧ (a.name < b.name ∨ (a.name = b.name ∧ packageBefore a.package b.package)))))

/-- How a tag is shown: the name, and the id if it is another. -/
def Tag.display (t : Tag) : String :=
  if t.name = t.id then s!"'{t.id}'" else s!"'{t.name}' (ID '{t.id}')"

end FlowLint.Flow

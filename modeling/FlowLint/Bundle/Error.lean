import FlowLint.Bundle.Manifest
import FlowLint.Files.Failure
import FlowLint.Markup.Error
import FlowLint.Path.Basic

/-! # Why artifacts cannot be loaded

Each error is told as a chain of texts, from what was being done down to what went wrong.
-/

namespace FlowLint.Bundle

/-- Why an artifact cannot be read. -/
inductive ReadingError
  | manifestUnreadable (file : Path) (failure : FileFailure)
  | manifestInvalid (file : Path)
  | folderUnreadable (folder : Path) (failure : FileFailure)
  | noDocument (folder : Path)
  | severalDocuments (folder : Path) (found : Nat)
  | documentUnreadable (file : Path) (failure : FileFailure)
  | documentInvalid (file : Path) (error : Markup.Error)
deriving Repr, DecidableEq, Inhabited

def ReadingError.chain : ReadingError → List String
  | manifestUnreadable file failure => [s!"read {file.text}", failure.message]
  | manifestInvalid file => [s!"parse {file.text}", noSymbolicName]
  | folderUnreadable folder failure => [s!"read directory {folder.text}", failure.message]
  | noDocument folder => [s!"no .iflw document in {folder.text}"]
  | severalDocuments folder found =>
    [s!"expected one .iflw document in {folder.text}, found {found}"]
  | documentUnreadable file failure => [s!"read {file.text}", failure.message]
  | documentInvalid file error => [s!"parse {file.text}", error.message]

def notADirectoryMessage (root : Path) : String :=
  s!"{root.text} is not a directory"

/-- Why the artifacts under some roots cannot be loaded. -/
inductive CorpusError
  | rootNotADirectory (root : Path)
  | artifact (directory : Path) (error : ReadingError)
  | sharedId (id : String) (first second : Path)
deriving Repr, DecidableEq, Inhabited

def CorpusError.chain : CorpusError → List String
  | rootNotADirectory root => [s!"discover in {root.text}", notADirectoryMessage root]
  | artifact directory error => s!"read artifact {directory.text}" :: error.chain
  | sharedId id first second =>
    [s!"artifact id '{id}' is declared by both {first.text} and {second.text}"]

end FlowLint.Bundle

/-! # Failures of files

Why a file or directory cannot be read or written, in the words of the system it is on.
-/

namespace FlowLint

inductive FileFailure
  | noSuchRulesFile
  | notFound
  | notADirectory
  | isADirectory
  | exists
  | notText
deriving Repr, DecidableEq, Inhabited

def FileFailure.message : FileFailure → String
  | noSuchRulesFile => "no such rules file"
  | notFound => "No such file or directory (os error 2)"
  | notADirectory => "Not a directory (os error 20)"
  | isADirectory => "Is a directory (os error 21)"
  | «exists» => "File exists (os error 17)"
  | notText => "stream did not contain valid UTF-8"

end FlowLint

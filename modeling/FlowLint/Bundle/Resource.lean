import FlowLint.Flow.Artifact
import FlowLint.Path.Basic

/-! # Resource files

Resources lie in folders, and a folder together with the extension of a file's name says what category
the resource has. Files with other extensions are no resources.
-/

namespace FlowLint.Bundle

open FlowLint.Flow (Category)

/-- The folders of resources, in the order in which they are read. -/
def resourceFolders : List String :=
  ["script", "mapping", "xsd", "wsdl", "edmx", "json", "lib"]

/-- The extensions that a folder gives a meaning to. -/
def extensionsOf : Category → String × List String
  | .groovyScript => ("script", ["groovy", "gsh", "gy"])
  | .javascript => ("script", ["js"])
  | .messageMapping => ("mapping", ["mmap"])
  | .operationMapping => ("mapping", ["opmap"])
  | .xslt => ("mapping", ["xsl", "xslt"])
  | .xsd => ("xsd", ["xsd"])
  | .wsdl => ("wsdl", ["wsdl"])
  | .edmx => ("edmx", ["edmx"])
  | .json => ("json", ["json"])
  | .archive => ("lib", ["jar"])

/-- Whether files with an extension in a folder are of a category. -/
def isOf (folder extension : String) (c : Category) : Bool :=
  (extensionsOf c).1 = folder && (extensionsOf c).2.contains extension

def lowerLetters (s : String) : String :=
  String.ofList (s.toList.map Char.toLower)

/-- The category of a file in a folder; the case of its extension says nothing. -/
def categorize (folder : String) (file : Path) : Option Category := do
  let extension ← file.extension?
  Category.all.find? (isOf folder (lowerLetters extension))

end FlowLint.Bundle

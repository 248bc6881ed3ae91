import FlowLint.Bundle.Discovery
import FlowLint.Bundle.Error
import FlowLint.Bundle.Resource
import FlowLint.Markup.Document

/-! # Reading artifacts

An artifact directory holds a manifest, one document, and resources in folders of their own. The
artifacts under several roots are read in the order of their directories, each once, and must have
different ids.
-/

namespace FlowLint.Bundle

open FlowLint.Files (Node Tree)
open FlowLint.Flow (Artifact Resource Tag)

def manifestFile : Path := ⟨"META-INF/MANIFEST.MF"⟩

def resourcesFolder : Path := ⟨"src/main/resources"⟩

def documentFolder : Path := ⟨"src/main/resources/scenarioflows/integrationflow"⟩

def readManifest (t : Tree) (directory : Path) : Except ReadingError Manifest :=
  let file := directory.join manifestFile
  match t.text file with
  | .error e => .error (.manifestUnreadable file e)
  | .ok text =>
    match Manifest.parse? text with
    | some m => .ok m
    | none => .error (.manifestInvalid file)

def isDocument (entry : String × Node) : Bool :=
  Path.extensionOf? entry.1 = some "iflw" && entry.2.isFile

def documentFile (t : Tree) (directory : Path) : Except ReadingError Path :=
  let folder := directory.join documentFolder
  match t.entries folder with
  | .error e => .error (.folderUnreadable folder e)
  | .ok entries =>
    match entries.filter isDocument with
    | [(name, _)] => .ok (folder.join ⟨name⟩)
    | [] => .error (.noDocument folder)
    | several => .error (.severalDocuments folder several.length)

def readDocument (t : Tree) (directory : Path) : Except ReadingError Markup.Element := do
  let file ← documentFile t directory
  let text ← (t.text file).mapError (.documentUnreadable file)
  (Markup.parse text).mapError (.documentInvalid file)

mutual
/-- The files of a node with their places, in the order of a walk. -/
def filesOf : Node → List (List String × List UInt8)
  | .file content => [([], content)]
  | .directory entries => filesIn entries
def filesIn : List (String × Node) → List (List String × List UInt8)
  | [] => []
  | (name, n) :: rest =>
    (filesOf n).map (fun f => (name :: f.1, f.2)) ++ filesIn rest
end

/-- A file in a folder of resources as a resource, which is called by its path. -/
def resource? (folder : String) (file : List String × List UInt8) : Option Resource :=
  let name := "/".intercalate (folder :: file.1)
  (categorize folder ⟨name⟩).map fun category => ⟨name, category, file.2⟩

/-- The resources in a folder; none if it is missing. -/
def readFolder (t : Tree) (directory : Path) (folder : String) : List Resource :=
  match t.entries ((directory.join resourcesFolder).join ⟨folder⟩) with
  | .error _ => []
  | .ok entries => (filesIn entries).filterMap (resource? folder)

/-- The resources of an artifact, folder by folder. -/
def readResources (t : Tree) (directory : Path) : List Resource :=
  resourceFolders.flatMap (readFolder t directory)

/-- The artifact in a directory. -/
def readArtifact (t : Tree) (directory : Path) : Except ReadingError Artifact := do
  let manifest ← readManifest t directory
  let document ← readDocument t directory
  return ⟨⟨manifest.symbolicName, manifest.name, none⟩, document, readResources t directory⟩

/-- The artifact directories under several roots, in order and each once. -/
def discoverAll (t : Tree) (roots : List Path) : Except CorpusError (List Path) :=
  match roots.find? fun r => (discover? t r).isNone with
  | some r => .error (.rootNotADirectory r)
  | none => .ok (Path.sortDistinct (roots.flatMap fun r => (discover? t r).getD []))

/-- An artifact with the directory it was read from. -/
structure Delivered where
  directory : Path
  artifact : Artifact
deriving Inhabited

/-- The artifacts in directories, up to the first that cannot be read. -/
def readEach (t : Tree) : List Path → Except CorpusError (List Delivered)
  | [] => .ok []
  | d :: rest =>
    match readArtifact t d with
    | .error e => .error (.artifact d e)
    | .ok a => (readEach t rest).map (⟨d, a⟩ :: ·)

/-- The first artifact whose id one before it has; `seen` are those before, latest first. -/
def sharedId? (seen : List Delivered) : List Delivered → Option CorpusError
  | [] => none
  | d :: rest =>
    match seen.find? (·.artifact.tag.id = d.artifact.tag.id) with
    | some first => some (.sharedId d.artifact.tag.id first.directory d.directory)
    | none => sharedId? (d :: seen) rest

/-- The artifacts under several roots. -/
def loadArtifacts (t : Tree) (roots : List Path) : Except CorpusError (List Artifact) := do
  let directories ← discoverAll t roots
  let delivered ← readEach t directories
  match sharedId? [] delivered with
  | some e => .error e
  | none => return delivered.map (·.artifact)

end FlowLint.Bundle

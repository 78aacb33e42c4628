import IdlBinder.Diagnostic
import IdlBinder.Files.Storage
import IdlBinder.Generate

set_option autoImplicit false

/-!
# Output

Artifacts are put below a directory. A file that already holds what it should is not written again,
so that nothing is rebuilt without need.
-/

namespace IdlBinder

/-- Why output could not be put in place. -/
inductive WriteError where
  | createDir (path : Path) (fault : Fault)
  | write (path : Path) (fault : Fault)
deriving DecidableEq

/-- What went wrong. -/
def WriteError.message : WriteError → String
  | createDir path fault =>
    "failed to create directory " ++ quote path.text ++ ": " ++ fault.text
  | write path fault => "failed to write " ++ quote path.text ++ ": " ++ fault.text

/-- What a run of the writer did, by the paths of the artifacts. -/
structure WriteSummary where
  /-- Files that were made or replaced. -/
  written : List Path := []
  /-- Files that held their contents before. -/
  unchanged : List Path := []
deriving DecidableEq

namespace WriteSummary

/-- All artifacts of the run, the written ones first. -/
def all (s : WriteSummary) : List Path := s.written ++ s.unchanged

/-- Adds an artifact. -/
def add (s : WriteSummary) (path : Path) (isWritten : Bool) : WriteSummary :=
  if isWritten then { s with written := s.written ++ [path] }
  else { s with unchanged := s.unchanged ++ [path] }

end WriteSummary

/-- The lines that name files below a directory. -/
def listing (root : Path) (paths : List Path) : String :=
  String.join (paths.map fun p => (root.join p).text ++ "\n")

namespace Output

open Storage

variable {m : Type → Type} [Monad m] [Storage m]

/-- Whether the file at a path holds a text. -/
def holds (p : Path) (text : String) : m Bool := do
  match ← readText p with
  | .ok old => return old == text
  | .error _ => return false

/-- Writes a file, and first makes the directories it is in. -/
def place (p : Path) (text : String) : ExceptT WriteError m Unit := do
  if let some dir := p.parent? then
    if let .error fault ← ensureDirs (m := m) dir then throw (.createDir dir fault)
  if let .error fault ← Storage.write (m := m) p text.toUTF8 then throw (.write p fault)

/-- Puts an artifact in place unless it is there, and says whether it was written. -/
def writeArtifact (root : Path) (a : Artifact) : ExceptT WriteError m Bool := do
  let p := root.join a.path
  if ← holds (m := m) p a.contents then return false
  place p a.contents
  return true

/-- Puts artifacts in place, up to the first that fails. -/
def writeAll (root : Path) (artifacts : List Artifact) : ExceptT WriteError m WriteSummary :=
  artifacts.foldlM (fun s a => s.add a.path <$> writeArtifact root a) {}

/-- Writes the list of files below a directory. -/
def writeList (root list : Path) (paths : List Path) : ExceptT WriteError m Unit :=
  place list (listing root paths)

end Output

end IdlBinder

import IdlBinder.Command.Arguments
import IdlBinder.Idl.Decode
import IdlBinder.Output

set_option autoImplicit false

/-!
# Running a command

A command reads a document, generates it, and reports or writes what comes out. Nothing is written
before generation has succeeded.
-/

namespace IdlBinder.Command

/-- How a failed run ends: what it says, and the code it ends with. -/
structure Ending where
  message : String
  exitCode : Int
deriving DecidableEq

/-- Whether a code stands for success. -/
def Ending.isSuccess (e : Ending) : Bool := e.exitCode == 0

/-- Why a command fails. -/
inductive Failure where
  | outDirGoesUp (dir : Path)
  | subdirGoesUp (flag : Flag) (dir : Path)
  | subdirRooted (flag : Flag) (dir : Path)
  | noAccess (input : Path) (fault : Fault)
  | tooLarge (input : Path) (size : Nat)
  | unreadable (input : Path) (fault : Fault)
  | invalidDocument (input : Path)
  | diagnostic (d : Diagnostic)
  | output (e : WriteError)
  | fileList (e : WriteError)
deriving DecidableEq

/-- The number of bytes a document may have. -/
def maxInputSize : Nat := 100 * 1024 * 1024

namespace Failure

/-- What went wrong. -/
def message : Failure → String
  | outDirGoesUp dir => "Output directory " ++ quote dir.text ++ " contains path traversal (..)"
  | subdirGoesUp flag dir =>
    "--" ++ flag.long ++ " " ++ quote dir.text ++ " contains path traversal (..)"
  | subdirRooted flag dir =>
    "--" ++ flag.long ++ " " ++ quote dir.text ++ " must be relative to the output directory"
  | noAccess input fault => "Cannot access file " ++ quote input.text ++ ": " ++ fault.text
  | tooLarge input size =>
    "Input file " ++ quote input.text ++ " is too large (" ++ toString size ++ " bytes, max " ++
      toString maxInputSize ++ " bytes)"
  | unreadable input fault => "Error reading file " ++ quote input.text ++ ": " ++ fault.text
  | invalidDocument input => "Invalid document " ++ quote input.text
  | diagnostic d =>
    d.code ++ "\n\n  × " ++ d.message ++ d.help?.elim "" fun h => "\n  help: " ++ h
  | output e => "Error writing output: " ++ e.message
  | fileList e => "Error writing file list: " ++ e.message

/-- How a run ends that fails so. -/
def ending (f : Failure) : Ending := ⟨f.message, 1⟩

end Failure

/-! ## Directories -/

/-- Refuses a directory for headers or sources that is not below the output directory. -/
def checkSubdir (flag : Flag) (dir : Path) : Except Failure Unit :=
  if dir.goesUp then .error (.subdirGoesUp flag dir)
  else if dir.isRooted then .error (.subdirRooted flag dir)
  else .ok ()

/-- Checks the three directories that output goes to. -/
def checkDirs (r : GenerateRequest) : Except Failure Unit := do
  if r.outDir.goesUp then throw (.outDirGoesUp r.outDir)
  checkSubdir .headerDir r.settings.headerDir
  checkSubdir .sourceDir r.settings.sourceDir

/-! ## Commands -/

open Storage

variable {m : Type → Type} [Monad m] [Storage m]

/-- The document in a file. -/
def readDocument (input : Path) : ExceptT Failure m Document := do
  match ← Storage.size (m := m) input with
  | .error fault => throw (.noAccess input fault)
  | .ok n => if maxInputSize < n then throw (.tooLarge input n)
  match ← readText (m := m) input with
  | .error fault => throw (.unreadable input fault)
  | .ok text => (Document.read? text).elim (throw (.invalidDocument input)) pure

/-- The artifacts of the document in a file. -/
def artifacts (input : Path) (s : Settings) : ExceptT Failure m (List Artifact) := do
  let doc ← readDocument input
  match (Generator.standard s).generate doc with
  | .error d => throw (.diagnostic d)
  | .ok l => return l

/-- Generates a document below a directory, and says so. A dry run only prints the paths. -/
def generate (r : GenerateRequest) : ExceptT Failure m String := do
  MonadExcept.ofExcept (checkDirs r)
  let l ← artifacts r.input r.settings
  let paths := l.map (·.path)
  if r.dryRun then return listing r.outDir paths
  let summary ← (Output.writeAll r.outDir l).adapt Failure.output
  if let some list := r.listOut then
    (Output.writeList r.outDir list paths).adapt Failure.fileList
  return "✓ Generated " ++ toString l.length ++ " files in " ++ r.outDir.text ++ " (" ++
    toString summary.unchanged.length ++ " unchanged)\n"

/-- Generates a document without writing anything, and says how many artifacts there are. -/
def check (input : Path) (s : Settings) : ExceptT Failure m String := do
  let l ← artifacts input s
  return "✓ Check passed: " ++ toString l.length ++ " artifacts\n"

/-- Does what is asked for; the result is what is printed. -/
def run : Request → ExceptT Failure m String
  | .generate r => generate r
  | .check input s => check input s

/-- What the program prints for its version. -/
def versionText : String := "bridgegen 0.1.0\n"

/-- How the program is called. -/
def usageText : String :=
  "Usage: bridgegen generate <AST.json> [-o DIR] [--list-out FILE] [--dry-run] [OPTIONS]\n" ++
  "       bridgegen check <AST.json> [OPTIONS]\n"

end IdlBinder.Command

import IdlBinder.Files.Fault
import IdlBinder.Files.Path

set_option autoImplicit false

/-!
# Storage

The operations on files that the program needs, for any monad that offers them, and how directories
and files are put in place with them.
-/

namespace IdlBinder

/-- A monad in which files can be read and written. -/
class Storage (m : Type → Type) where
  /-- The number of bytes of what is at a path. -/
  size : Path → m (Except Fault Nat)
  /-- The bytes of the file at a path. -/
  read : Path → m (Except Fault ByteArray)
  /-- Whether a directory is at a path. -/
  isDir : Path → m Bool
  /-- Makes one directory. -/
  makeDir : Path → m (Except Fault Unit)
  /-- Gives the file at a path the bytes; the file is made if it is missing. -/
  write : Path → ByteArray → m (Except Fault Unit)

namespace Path

/-- A path and those above it, at most `limit` of them. -/
def ancestorsWithin : Nat → Path → List Path
  | 0, _ => []
  | limit + 1, p => p :: (p.parent?.map (ancestorsWithin limit)).getD []

/-- A path and those above it, up to the root or the current directory, which has no name. A parent
is shorter than its path. -/
def ancestors (p : Path) : List Path :=
  (ancestorsWithin (p.text.length + 1) p).filter (·.text ≠ "")

end Path

namespace Storage

variable {m : Type → Type} [Monad m] [Storage m]

/-- The text of the file at a path. -/
def readText (p : Path) : m (Except Fault String) := do
  match ← read p with
  | .error fault => return .error fault
  | .ok bytes => return (String.fromUTF8? bytes).elim (.error .notText) .ok

/-- Makes a directory unless it is there. -/
def ensureDir (p : Path) : m (Except Fault Unit) := do
  match ← makeDir p with
  | .ok () => return .ok ()
  | .error fault => return if ← isDir p then .ok () else .error fault

/-- Makes the first of some directories, each of which is in the next one; those further up are made
only if they are missing. -/
def ensureChain : List Path → m (Except Fault Unit)
  | [] => return .ok ()
  | p :: above => do
    match ← ensureDir p with
    | .error .missing =>
      match ← ensureChain above with
      | .error fault => return .error fault
      | .ok () => ensureDir p
    | result => return result

/-- Makes a directory with all that it is in. -/
def ensureDirs (p : Path) : m (Except Fault Unit) := ensureChain p.ancestors

end Storage

end IdlBinder

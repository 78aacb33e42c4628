import IdlBinder.Command.Run

set_option autoImplicit false

/-!
# The program

Files are those of the system; all else is decided by `Command`.
-/

namespace IdlBinder

/-- The number that the system gives an error; some of its layers negate it. -/
def systemCode : IO.Error → Option UInt32
  | .alreadyExists _ code _ | .noFileOrDirectory _ code _ | .inappropriateType _ code _
  | .invalidArgument _ code _ | .permissionDenied _ code _ | .resourceExhausted _ code _
  | .noSuchThing _ code _ | .otherError code _ | .unsupportedOperation code _
  | .illegalOperation code _ | .unsatisfiedConstraints code _ => some code
  | _ => none

/-- The fault behind an error of the system. -/
def systemFault (e : IO.Error) : Fault :=
  match (systemCode e).map (·.toInt32.toInt.natAbs) with
  | some 2 => .missing
  | some 17 => .alreadyThere
  | some 20 => .notDirectory
  | some 21 => .isDirectory
  | some 36 => .nameTooLong
  | _ => .other (toString e)

/-- Runs an operation of the system on a path. -/
def onPath {α : Type} (p : Path) (action : String → IO α) : IO (Except Fault α) := do
  if p.text.toList.contains '\x00' then return .error .nulInName
  try
    return .ok (← action p.text)
  catch e =>
    return .error (systemFault e)

instance : Storage IO where
  read p := onPath p fun name => IO.FS.readBinFile name
  size p := do
    match ← onPath p fun name => IO.FS.readBinFile name with
    | .ok bytes => return .ok bytes.size
    | .error .isDirectory => return .ok 0
    | .error fault => return .error fault
  isDir p := do
    let result ← onPath p fun name => do
      let file ← IO.FS.Handle.mk name .read
      file.read 1
    match result with
    | .error .isDirectory => return true
    | _ => return false
  makeDir p := onPath p fun name => IO.FS.createDir name
  write p bytes := onPath p fun name => IO.FS.writeBinFile name bytes

end IdlBinder

open IdlBinder in
/-- Does what the arguments ask for. -/
def main (args : List String) : IO UInt32 := do
  match Command.parse args with
  | .error .version => IO.print Command.versionText; return 0
  | .error .help => IO.print Command.usageText; return 0
  | .error e => IO.eprint (e.message ++ Command.usageText); return e.exitCode.toNat.toUInt32
  | .ok request =>
    match ← (Command.run (m := IO) request).run with
    | .ok text => IO.print text; return 0
    | .error failure =>
      IO.eprintln failure.ending.message
      return failure.ending.exitCode.toNat.toUInt32

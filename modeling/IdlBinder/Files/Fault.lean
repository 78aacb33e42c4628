set_option autoImplicit false

/-!
# Faults

What can go wrong with a path when files are read or written.
-/

namespace IdlBinder

/-- A reason why an operation on files fails. -/
inductive Fault where
  /-- Nothing is there. -/
  | missing
  /-- Something is there already. -/
  | alreadyThere
  /-- A path goes on below a file. -/
  | notDirectory
  | isDirectory
  | nameTooLong
  /-- A path holds the character that ends paths. -/
  | nulInName
  /-- The bytes of a file are not UTF-8. -/
  | notText
  /-- Anything else that the system reports. -/
  | other (text : String)
deriving DecidableEq

/-- How the system words a fault. -/
def Fault.text : Fault → String
  | missing => "No such file or directory (os error 2)"
  | alreadyThere => "File exists (os error 17)"
  | notDirectory => "Not a directory (os error 20)"
  | isDirectory => "Is a directory (os error 21)"
  | nameTooLong => "File name too long (os error 36)"
  | nulInName => "file name contained an unexpected NUL byte"
  | notText => "stream did not contain valid UTF-8"
  | other text => text

end IdlBinder

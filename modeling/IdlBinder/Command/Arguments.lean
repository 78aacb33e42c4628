import IdlBinder.Command.Flag

set_option autoImplicit false

/-!
# Arguments

Arguments are read from left to right. What a flag or the input is given is looked at only when the
next one begins, so an argument that is wrong in itself is reported before a value that is.
-/

namespace IdlBinder.Command

/-- Why arguments do not ask for work on a document. -/
inductive UsageError where
  | help
  | version
  /-- There are no arguments at all. -/
  | empty
  | missingInput
  | unknownCommand
  | unknownArgument
  /-- A flag lacks its value, or a path is empty. -/
  | invalidValue
  /-- A flag is given twice. -/
  | repeatedFlag
  /-- A flag without a value is given one. -/
  | surplusValue
deriving DecidableEq

namespace UsageError

/-- The code that the program ends with. -/
def exitCode : UsageError → Int
  | help | version => 0
  | _ => 2

/-- What is wrong with the arguments. -/
def message : UsageError → String
  | help | version | empty => ""
  | missingInput => "error: the input document is missing\n"
  | unknownCommand => "error: unrecognized subcommand\n"
  | unknownArgument => "error: unexpected argument\n"
  | invalidValue => "error: a value is required\n"
  | repeatedFlag => "error: an argument cannot be used multiple times\n"
  | surplusValue => "error: an argument takes no value\n"

end UsageError

/-! ## The arguments of a command -/

/-- What a value is given for. -/
inductive Slot where
  | input
  | flag (f : Flag)
deriving DecidableEq

/-- What a slot holds. -/
def Slot.operand : Slot → Operand
  | input => .path
  | flag f => f.operand

/-- The arguments read so far. -/
structure Reading where
  verb : Verb
  /-- The slots given, in order, with their values. -/
  given : List (Slot × String) := []
  /-- The slot that was begun last; a flag waits while it has no value. -/
  pending : Option (Slot × Option String) := none
  /-- Whether there was an argument for the input. -/
  hasInput : Bool := false
  /-- Whether two dashes have ended the flags. -/
  trailing : Bool := false

namespace Reading

variable (r : Reading)

/-- Gives a slot its value. -/
def give (slot : Slot) (value : String) : Except UsageError Reading :=
  if r.given.any (·.1 == slot) then .error .repeatedFlag
  else if slot.operand == .path && value.isEmpty then .error .invalidValue
  else .ok { r with given := r.given ++ [(slot, value)] }

/-- Ends the slot that was begun last. -/
def settle : Except UsageError Reading :=
  match r.pending with
  | none => .ok r
  | some (_, none) => .error .invalidValue
  | some (slot, some value) => { r with pending := none }.give slot value

/-- Reads a flag, with the value attached to it. -/
def takeFlag (f : Flag) (attached : Option String) : Except UsageError Reading :=
  match f.operand, attached with
  | .nothing, some _ => .error .surplusValue
  | .nothing, none => do
    let r ← r.settle
    if f = .help then .error .help else r.give (.flag f) ""
  | _, some value => do (← r.settle).give (.flag f) value
  | _, none => do return { ← r.settle with pending := some (.flag f, none) }

/-- Reads what follows two dashes: a name, and a value after an equals sign. -/
def takeLong (text : List Char) : Except UsageError Reading :=
  let name := String.ofList (text.takeWhile (· ≠ '='))
  match r.verb.flags.find? (·.long == name) with
  | none => .error .unknownArgument
  | some f =>
    match text.dropWhile (· ≠ '=') with
    | [] => r.takeFlag f none
    | _ :: value => r.takeFlag f (some (String.ofList value))

/-- The value attached to a letter. -/
def attachedValue : List Char → Option String
  | [] => none
  | '=' :: value => some (String.ofList value)
  | value => some (String.ofList value)

/-- Reads what follows one dash: letters, of which one that takes a value is the last. -/
def takeShort (r : Reading) : List Char → Except UsageError Reading
  | [] => .ok r
  | c :: rest =>
    match r.verb.flags.find? (·.short? == some c) with
    | none => .error .unknownArgument
    | some f =>
      if f.operand = .nothing then do takeShort (← r.takeFlag f none) rest
      else r.takeFlag f (attachedValue rest)

/-- Reads an argument that is no flag. -/
def takePlain (arg : String) : Except UsageError Reading :=
  match r.pending, r.trailing with
  | some (.flag f, none), false => .ok { r with pending := some (.flag f, some arg) }
  | _, _ =>
    if r.hasInput then .error .unknownArgument
    else do return { ← r.settle with pending := some (.input, some arg), hasInput := true }

/-- Reads an argument. -/
def take (arg : String) : Except UsageError Reading :=
  if r.trailing then r.takePlain arg
  else match arg.toList with
    | ['-', '-'] => .ok { r with trailing := true }
    | '-' :: '-' :: text => r.takeLong text
    | '-' :: c :: rest => r.takeShort (c :: rest)
    | _ => r.takePlain arg

/-- The value of a slot. -/
def value? (slot : Slot) : Option String := r.given.lookup slot

/-- The value of a flag, or what holds without it. -/
def valueD (f : Flag) (default : String) : String := (r.value? (.flag f)).getD default

/-- Whether a flag is given. -/
def has (f : Flag) : Bool := (r.value? (.flag f)).isSome

/-- The settings that the flags ask for. -/
def settings : Settings :=
  let d : Settings := {}
  { d with
    nativeNamespace := r.valueD .nativeNamespace d.nativeNamespace
    componentNamespace := r.valueD .componentNamespace d.componentNamespace
    supportNamespace := r.valueD .supportNamespace d.supportNamespace
    supportInclude := r.valueD .supportInclude d.supportInclude
    includePrefix := r.valueD .includePrefix d.includePrefix
    headerExt := r.valueD .headerExt d.headerExt
    sourceExt := r.valueD .sourceExt d.sourceExt
    headerDir := ⟨r.valueD .headerDir d.headerDir.text⟩
    sourceDir := ⟨r.valueD .sourceDir d.sourceDir.text⟩
    hashEnums := !r.has .noHash
    extSuffix := r.valueD .extSuffix d.extSuffix }

end Reading

/-! ## Requests -/

/-- What the generate command is asked to do. -/
structure GenerateRequest where
  input : Path
  outDir : Path := ⟨"generated"⟩
  settings : Settings := {}
  listOut : Option Path := none
  dryRun : Bool := false

/-- What the program is asked to do. -/
inductive Request where
  | generate (r : GenerateRequest)
  | check (input : Path) (settings : Settings)

/-- The request that the arguments of a command make. -/
def Reading.request (r : Reading) : Except UsageError Request := do
  let r ← r.settle
  match r.value? .input with
  | none => .error .missingInput
  | some input =>
    match r.verb with
    | .check => return .check ⟨input⟩ r.settings
    | .generate =>
      return .generate {
        input := ⟨input⟩
        outDir := ⟨r.valueD .outDir "generated"⟩
        settings := r.settings
        listOut := (r.value? (.flag .listOut)).map Path.mk
        dryRun := r.has .dryRun }

/-- The names that may stand in the place of a command. -/
def commandNames : List String := Verb.all.map Verb.name ++ ["help"]

/-- Help on at most one command. -/
def helpOn : List String → UsageError
  | [] => .help
  | [topic] => if commandNames.contains topic then .help else .unknownCommand
  | _ => .unknownCommand

/-- What arguments ask for that do not begin with a command. -/
def withoutCommand : List String → UsageError
  | [] => .empty
  | "help" :: topics => helpOn topics
  | ["--"] => .empty
  | "--" :: arg :: _ => if commandNames.contains arg then .unknownArgument else .unknownCommand
  | arg :: _ =>
    match arg.toList with
    | '-' :: '-' :: text =>
      let name := String.ofList (text.takeWhile (· ≠ '='))
      if name ≠ "help" ∧ name ≠ "version" then .unknownArgument
      else if text.contains '=' then .surplusValue
      else if name = "help" then .help else .version
    | '-' :: 'h' :: _ => .help
    | '-' :: 'V' :: _ => .version
    | '-' :: _ :: _ => .unknownArgument
    | _ => .unknownCommand

/-- The request that the arguments of the program make. -/
def parse (args : List String) : Except UsageError Request :=
  match args with
  | [] => .error .empty
  | first :: rest =>
    match Verb.all.find? (·.name == first) with
    | none => .error (withoutCommand args)
    | some verb => do (← rest.foldlM Reading.take { verb := verb }).request

end IdlBinder.Command

import IdlBinder.Settings

set_option autoImplicit false

/-!
# Flags

The commands of the program, the flags each of them takes, and what a flag is followed by.
-/

namespace IdlBinder.Command

/-- What the program can be asked to do with a document. -/
inductive Verb where
  | generate
  | check
deriving DecidableEq

/-- How a command is written. -/
def Verb.name : Verb → String
  | generate => "generate"
  | check => "check"

/-- All commands. -/
def Verb.all : List Verb := [.generate, .check]

/-- The flags. -/
inductive Flag where
  | outDir
  | listOut
  | dryRun
  | nativeNamespace
  | componentNamespace
  | supportNamespace
  | supportInclude
  | includePrefix
  | headerExt
  | sourceExt
  | headerDir
  | sourceDir
  | noHash
  | extSuffix
  | help
deriving DecidableEq

/-- What follows a flag. -/
inductive Operand where
  | nothing
  | text
  /-- A path, which may not be empty. -/
  | path
deriving DecidableEq

namespace Flag

/-- How a flag is written after two dashes. -/
def long : Flag → String
  | outDir => "out-dir"
  | listOut => "list-out"
  | dryRun => "dry-run"
  | nativeNamespace => "namespace"
  | componentNamespace => "component-namespace"
  | supportNamespace => "support-namespace"
  | supportInclude => "support-include"
  | includePrefix => "include-prefix"
  | headerExt => "header-ext"
  | sourceExt => "source-ext"
  | headerDir => "header-dir"
  | sourceDir => "source-dir"
  | noHash => "no-hash-workaround"
  | extSuffix => "ext-suffix"
  | help => "help"

/-- How a flag is written after one dash. -/
def short? : Flag → Option Char
  | outDir => some 'o'
  | help => some 'h'
  | _ => none

/-- What follows a flag. -/
def operand : Flag → Operand
  | outDir | listOut | headerDir | sourceDir => .path
  | dryRun | noHash | help => .nothing
  | _ => .text

/-- The flags that say how files are generated. -/
def ofSettings : List Flag :=
  [nativeNamespace, componentNamespace, supportNamespace, supportInclude, includePrefix, headerExt,
    sourceExt, headerDir, sourceDir, noHash, extSuffix]

end Flag

/-- The flags that a command takes. -/
def Verb.flags : Verb → List Flag
  | generate => [.outDir, .listOut, .dryRun] ++ Flag.ofSettings ++ [.help]
  | check => Flag.ofSettings ++ [.help]

end IdlBinder.Command

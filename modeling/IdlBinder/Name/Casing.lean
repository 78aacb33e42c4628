import IdlBinder.Name.Words
import IdlBinder.Text.CaseMap

set_option autoImplicit false

/-!
# Casing styles

A casing style respells a name from its words. Each kind of identifier has a style of its own, and
there is one set of styles for each side of the bridge.
-/

namespace IdlBinder

open IdlBinder.Text IdlBinder.Name

/-- How the words of a name are spelled and joined. -/
inductive Casing where
  /-- `FooBar` -/
  | upperCamel
  /-- `fooBar` -/
  | lowerCamel
  /-- `foo_bar` -/
  | snake
  /-- `FOO_BAR` -/
  | screamingSnake
  /-- The name as it is. -/
  | verbatim
  /-- Any other respelling. -/
  | custom (respell : String → String)

namespace Casing

/-- Words in camel case, the first one lowered. -/
def lowerFirst : List (List Char) → List Char
  | [] => []
  | w :: ws => lowerWord w ++ ws.flatMap capitalize

/-- A name in a style. -/
def apply : Casing → String → String
  | upperCamel, name => String.ofList ((words name.toList).flatMap capitalize)
  | lowerCamel, name => String.ofList (lowerFirst (words name.toList))
  | snake, name => String.ofList (['_'].intercalate ((words name.toList).map lowerWord))
  | screamingSnake, name => String.ofList (['_'].intercalate ((words name.toList).map upperWord))
  | verbatim, name => name
  | custom respell, name => respell name

/-- A style shown by an example of its spelling. -/
def sample : Casing → String
  | upperCamel => "FooBar"
  | lowerCamel => "fooBar"
  | snake => "foo_bar"
  | screamingSnake => "FOO_BAR"
  | verbatim => "verbatim"
  | custom _ => "custom"

end Casing

/-- One style for each kind of identifier. -/
structure Styles where
  type : Casing
  typeParam : Casing
  method : Casing
  field : Casing
  localName : Casing
  enumOption : Casing
  constant : Casing
  file : Casing

namespace Styles

/-- The usual styles of the native side. -/
def native : Styles where
  type := .upperCamel
  typeParam := .upperCamel
  method := .snake
  field := .snake
  localName := .snake
  enumOption := .screamingSnake
  constant := .screamingSnake
  file := .snake

/-- The usual styles of the component side. -/
def component : Styles where
  type := .upperCamel
  typeParam := .upperCamel
  method := .upperCamel
  field := .upperCamel
  localName := .lowerCamel
  enumOption := .upperCamel
  constant := .upperCamel
  file := .upperCamel

end Styles

end IdlBinder

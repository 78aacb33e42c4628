set_option autoImplicit false

/-!
# Spelled C++ types

A C++ type as it is spelled: a name, or a template with its arguments.
-/

namespace IdlBinder

/-- A C++ type name. -/
inductive TypeName where
  | plain (name : String)
  | template (name : String) (args : List TypeName)

namespace TypeName

mutual

/-- The text of a type name. -/
def text : TypeName → String
  | plain name => name
  | template name args => name ++ "<" ++ ", ".intercalate (texts args) ++ ">"

/-- The texts of type names. -/
def texts : List TypeName → List String
  | [] => []
  | t :: ts => t.text :: texts ts

end

mutual

/-- The plain names and template names that occur in a type name. -/
def names : TypeName → List String
  | plain name => [name]
  | template name args => name :: namesAll args

/-- The names that occur in several type names. -/
def namesAll : List TypeName → List String
  | [] => []
  | t :: ts => t.names ++ namesAll ts

end

end TypeName

end IdlBinder

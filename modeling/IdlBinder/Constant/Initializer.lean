set_option autoImplicit false

/-!
# Initializers

The C++ expression a constant is initialised with. It keeps apart what it refers to: enumerators,
earlier constants and constructors of records.
-/

namespace IdlBinder

/-- An initializer expression. -/
inductive Initializer where
  /-- A truth value, a number or a string. -/
  | scalar (text : String)
  /-- An enumerator of an enum. -/
  | enumerator (enum option : String)
  /-- Another constant of the same owner. -/
  | constant (owner name : String)
  /-- A constructor call; each argument has the name of its field beside it. -/
  | construct (type : String) (args : List (Initializer × String))

namespace Initializer

mutual

/-- The text of an initializer. -/
def text : Initializer → String
  | scalar text => text
  | enumerator enum option => enum ++ "::" ++ option
  | constant owner name => owner ++ "::" ++ name
  | construct type args => type ++ "(" ++ ", ".intercalate (argTexts args) ++ ")"

/-- The texts of constructor arguments, with the field names as comments. -/
def argTexts : List (Initializer × String) → List String
  | [] => []
  | (a, name) :: rest => (a.text ++ " /* " ++ name ++ " */") :: argTexts rest

end

end Initializer

end IdlBinder

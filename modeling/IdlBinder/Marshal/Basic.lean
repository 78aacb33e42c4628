import IdlBinder.Marshal.References
import IdlBinder.Idl.Document

set_option autoImplicit false

/-!
# Marshals

A marshal knows one side of the bridge: how types are spelled there and what naming them needs. The
component side also knows how values cross over and how an instance is put together field by field.
-/

namespace IdlBinder

/-- The native side. -/
structure NativeMarshal where
  needs : NeedsOf
  /-- A type as a value. -/
  typename : TypeExpr → String
  /-- A type as a parameter. -/
  paramType : TypeExpr → String
  /-- A type as a result, if there is one. -/
  returnType : Option TypeExpr → String

/-- An expression that builds a component instance, so far. -/
inductive Builder where
  /-- Nothing is set yet; the instance will be of this type. -/
  | empty (type : String)
  /-- The call that starts the instance, and one call for each further field. -/
  | chain (head : String) (steps : List String)
deriving DecidableEq

/-- The component side. -/
structure ComponentMarshal where
  needs : NeedsOf
  /-- A type as a value. -/
  typename : TypeExpr → String
  /-- Reads a field of an instance. -/
  accessor : Field → String → String
  /-- Converts an expression of a type to the native side. -/
  toNative : TypeExpr → String → String
  /-- Converts an expression of a type to the component side. -/
  toComponent : TypeExpr → String → String
  /-- Sets a field to a value. -/
  withField : Builder → Field → String → Builder
  /-- The lines of the finished expression. -/
  finish : Builder → List String

end IdlBinder

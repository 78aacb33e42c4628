import IdlBinder.Marshal.Native

set_option autoImplicit false

/-!
# The component marshal

Types as the C++/WinRT projection spells them. Values cross over through translators of the
conversion library, each with a function for either direction; the translator of a container is a
template over the translators of its elements, and the translator of a record is its bridge.
-/

namespace IdlBinder.Component

variable (s : Settings)

/-- The function of a translator that gives a native value. -/
def toNativeName : String := "ToNative"

/-- The function of a translator that gives a component value. -/
def toComponentName : String := "ToComponent"

/-- The header of the projection's own types. -/
def baseHeader : String := "<winrt/base.h>"

/-- The header of optional values and dates. -/
def foundationHeader : String := "<winrt/Windows.Foundation.h>"

/-- The header of the collections. -/
def collectionsHeader : String := "<winrt/Windows.Foundation.Collections.h>"

/-! ## Types -/

/-- The projected name of a primitive type. -/
def primName : Prim → TypeName
  | .bool => .plain "bool"
  | .i8 => .plain "int8_t"
  | .i16 => .plain "int16_t"
  | .i32 => .plain "int32_t"
  | .i64 => .plain "int64_t"
  | .f32 => .plain "float"
  | .f64 => .plain "double"
  | .string => .plain "winrt::hstring"
  | .binary => .template "winrt::com_array" [.plain "uint8_t"]
  | .date => .plain "winrt::Windows::Foundation::DateTime"

/-- Whether values of a type may be null by themselves: records and interfaces. -/
def isNullable (t : TypeExpr) : Bool := t.isDeclared .record || t.isDeclared .interface

/-- Whether an optional of these arguments is the argument itself. -/
def collapses (args : List TypeExpr) : Bool := args.head?.any isNullable

mutual

/-- The projected name of a type. -/
def spell : TypeExpr → TypeName
  | .node (.primitive p) _ => primName p
  | .node .optional [] => .template "winrt::Windows::Foundation::IReference" []
  | .node .optional (a :: as) =>
    if collapses (a :: as) then spell a
    else .template "winrt::Windows::Foundation::IReference" (spellAll (a :: as))
  | .node .list as | .node .set as =>
    .template "winrt::Windows::Foundation::Collections::IVector" (spellAll as)
  | .node .map as => .template "winrt::Windows::Foundation::Collections::IMap" (spellAll as)
  | .node (.param n) _ => .plain (s.componentStyles.typeParam.apply n)
  | .node (.declared d) as => Native.className (s.componentQualified d.name) (spellAll as)

/-- The projected names of types. -/
def spellAll : List TypeExpr → List TypeName
  | [] => []
  | t :: ts => spell t :: spellAll ts

end

/-! ## Translators -/

/-- The translator of a primitive type. -/
def primTranslator : Prim → String
  | .bool => "Bool"
  | .i8 => "I8"
  | .i16 => "I16"
  | .i32 => "I32"
  | .i64 => "I64"
  | .f32 => "F32"
  | .f64 => "F64"
  | .string => "String"
  | .binary => "Binary"
  | .date => "Date"

mutual

/-- The translator of a type. A record finished by hand keeps the plain name of its bridge. -/
def translator : TypeExpr → TypeName
  | .node (.primitive p) _ => .plain (s.supportType (primTranslator p))
  | .node .optional as => .template (s.supportType "Optional") (translators as)
  | .node .list as => .template (s.supportType "List") (translators as)
  | .node .set as => .template (s.supportType "Set") (translators as)
  | .node .map as => .template (s.supportType "Map") (translators as)
  | .node (.param n) _ => .template (s.supportType "Generic") [.plain (s.nativeTypeParam n)]
  | .node (.declared d) as =>
    match d.kind with
    | .enum => .template (s.supportType "Enum")
        [.plain (s.nativeQualified d.name), .plain (s.componentQualified d.name)]
    | .record => .plain (s.qualify (s.bridgeName d.name {}))
    | .interface => .template (s.supportType "Interface")
        [Native.interfaceClass s d as, .plain (s.componentQualified d.name)]

/-- The translators of types. -/
def translators : List TypeExpr → List TypeName
  | [] => []
  | t :: ts => translator t :: translators ts

end

/-- A call of a function of a type's translator. -/
def convert (function : String) (t : TypeExpr) (expr : String) : String :=
  (translator s t).text ++ "::" ++ function ++ "(" ++ expr ++ ")"

/-! ## Needs -/

/-- What naming a node of a type expression and translating its values needs. -/
def needs : NeedsOf := fun t role owner =>
  match t.head with
  | .primitive .date => [.inclusion baseHeader, .inclusion foundationHeader]
  | .primitive _ => [.inclusion baseHeader]
  | .optional => [.inclusion foundationHeader]
  | .list | .set | .map => [.inclusion collectionsHeader]
  | .param _ => []
  | .declared d =>
    .inclusion s.projectionHeader ::
      if d.kind = .record ∧ role = .source ∧ owner ≠ some d.name then
        [.inclusion (s.includeTarget (s.bridgeFileStem d.name {}))]
      else []

/-! ## Instances -/

/-- Reads a property. -/
def accessor (f : Field) (instanceExpr : String) : String :=
  instanceExpr ++ "." ++ s.componentField f.name ++ "()"

/-- Sets a property: the first one starts the instance, later ones are chained. -/
def withField (b : Builder) (f : Field) (value : String) : Builder :=
  let name := s.componentField f.name
  match b with
  | .empty type => .chain (type ++ "::CreateWith" ++ name ++ "(" ++ value ++ ")") []
  | .chain head steps => .chain head (steps ++ [".With" ++ name ++ "(" ++ value ++ ")"])

/-- The finished expression; an instance without properties has a factory of its own. -/
def finish : Builder → List String
  | .empty type => [type ++ "::Create()"]
  | .chain head steps => head :: steps

/-- The component marshal. -/
def marshal : ComponentMarshal where
  needs := needs s
  typename t := (spell s t).text
  accessor := accessor s
  toNative := convert s toNativeName
  toComponent := convert s toComponentName
  withField := withField s
  finish := finish

end IdlBinder.Component

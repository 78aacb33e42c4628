import IdlBinder.Marshal.Basic
import IdlBinder.Cpp.TypeName
import IdlBinder.Naming

set_option autoImplicit false

/-!
# The native marshal

Types as standard C++17 values: containers of the standard library, enums and records by name,
interfaces behind shared pointers. A shared pointer may be null, so an optional interface is the
pointer itself.
-/

namespace IdlBinder.Native

variable (s : Settings)

/-- The C++ name of a primitive type. -/
def primName : Prim → TypeName
  | .bool => .plain "bool"
  | .i8 => .plain "int8_t"
  | .i16 => .plain "int16_t"
  | .i32 => .plain "int32_t"
  | .i64 => .plain "int64_t"
  | .f32 => .plain "float"
  | .f64 => .plain "double"
  | .string => .plain "std::string"
  | .binary => .template "std::vector" [.plain "uint8_t"]
  | .date => .plain "std::chrono::system_clock::time_point"

/-- A class with template arguments, if there are any. -/
def className (name : String) (args : List TypeName) : TypeName :=
  if args.isEmpty then .plain name else .template name args

/-- Whether an optional of these arguments is the argument itself. -/
def collapses (args : List TypeExpr) : Bool := args.head?.any (·.isDeclared .interface)

mutual

/-- The C++ name of a type. -/
def spell : TypeExpr → TypeName
  | .node (.primitive p) _ => primName p
  | .node .optional [] => .template "std::optional" []
  | .node .optional (a :: as) =>
    if collapses (a :: as) then spell a else .template "std::optional" (spellAll (a :: as))
  | .node .list as => .template "std::vector" (spellAll as)
  | .node .set as => .template "std::unordered_set" (spellAll as)
  | .node .map as => .template "std::unordered_map" (spellAll as)
  | .node (.param n) _ => .plain (s.nativeTypeParam n)
  | .node (.declared d) as =>
    match d.kind with
    | .enum | .record => .plain (s.nativeQualified d.name)
    | .interface =>
      .template "std::shared_ptr" [className (s.nativeQualified d.name) (spellAll as)]

/-- The C++ names of types. -/
def spellAll : List TypeExpr → List TypeName
  | [] => []
  | t :: ts => spell t :: spellAll ts

end

theorem spellAll_eq_map (ts : List TypeExpr) : spellAll s ts = ts.map (spell s) := by
  induction ts with
  | nil => rfl
  | cons t ts ih => rw [spellAll, ih, List.map_cons]

/-- The C++ class of an interface with its arguments. -/
def interfaceClass (d : DefRef) (args : List TypeExpr) : TypeName :=
  className (s.nativeQualified d.name) (spellAll s args)

/-- Whether values of a type are passed as they are, not by reference. -/
def isByValue (t : TypeExpr) : Bool :=
  match t.head with
  | .primitive p => p.isInteger || p.isFloat || p == .bool
  | .declared d => d.kind == .enum
  | _ => false

/-- A forward declaration, for a class with as many type parameters as `arity` says. -/
def forwardDecl (d : DefRef) (arity : Nat) : String :=
  let name := s.nativeType d.name
  match d.kind with
  | .record => "struct " ++ name ++ ";"
  | .enum => "enum class " ++ name ++ " : int32_t;"
  | .interface =>
    if arity = 0 then "class " ++ name ++ ";"
    else "template <" ++ ", ".intercalate (List.replicate arity "typename") ++ "> class " ++
      name ++ ";"

/-- The standard headers of a primitive type. -/
def primNeeds : Prim → List Need
  | .bool | .f32 | .f64 => []
  | .i8 | .i16 | .i32 | .i64 => [.inclusion "<cstdint>"]
  | .string => [.inclusion "<string>"]
  | .binary => [.inclusion "<vector>", .inclusion "<cstdint>"]
  | .date => [.inclusion "<chrono>"]

/-- What naming a declaration needs. The owner of a header needs no header of its own, and other
interfaces are declared in advance so that headers do not include each other in a circle. -/
def declNeeds (d : DefRef) (arity : Nat) (role : FileRole) (isOwner : Bool) : List Need :=
  let header := Need.inclusion (s.includeTarget (s.fileStem d.name))
  match d.kind with
  | .enum => [header]
  | .record =>
    if isOwner then
      match role with
      | .header => [.forward (forwardDecl s d 0)]
      | .source => []
    else [header]
  | .interface =>
    .inclusion "<memory>" ::
      if isOwner then []
      else match role with
        | .header => [.forward (forwardDecl s d arity)]
        | .source => [header]

/-- What naming a node of a type expression needs. -/
def needs : NeedsOf := fun t role owner =>
  match t.head with
  | .primitive p => primNeeds p
  | .optional => if collapses t.args then [] else [.inclusion "<optional>"]
  | .list => [.inclusion "<vector>"]
  | .set => [.inclusion "<unordered_set>"]
  | .map => [.inclusion "<unordered_map>"]
  | .param _ => []
  | .declared d => declNeeds s d t.args.length role (owner == some d.name)

/-- The name of a type as text. -/
def typename (t : TypeExpr) : String := (spell s t).text

/-- A parameter of a type: by value if it is small, else by constant reference. -/
def paramType (t : TypeExpr) : String :=
  if isByValue t then typename s t else typename s t ++ " const&"

/-- A result of a type. -/
def returnType : Option TypeExpr → String
  | some t => typename s t
  | none => "void"

/-- The native marshal. -/
def marshal : NativeMarshal where
  needs := needs s
  typename := typename s
  paramType := paramType s
  returnType := returnType s

end IdlBinder.Native

import IdlBinder.Constant.Initializer
import IdlBinder.Decimal.Shortest
import IdlBinder.Naming
import IdlBinder.Registry

set_option autoImplicit false

/-!
# Literals at types

A literal is checked against a type and spelled as an initializer in one pass. An optional type
takes what its argument takes. A constant reference must have the very type that is asked for and
stand before the constant in question.
-/

namespace IdlBinder

/-- The owner of a list of constants, as the generated code sees it. -/
structure ConstScope where
  /-- The name in the document. -/
  owner : String
  /-- What qualifies the constants in C++, such as `Point` or `Listener<T>`. -/
  qualifier : String
  consts : List Const

/-- The type below all optionals around it. -/
def TypeExpr.core : TypeExpr → TypeExpr
  | .node .optional (a :: _) => a.core
  | t => t

/-- Where a literal stands. -/
structure LiteralContext where
  settings : Settings
  /-- How the native side spells types. -/
  typename : TypeExpr → String
  registry : Registry
  scope : ConstScope
  /-- The position of the constant in its scope. -/
  index : Nat
  /-- The name of the constant. -/
  name : String

namespace LiteralContext

variable (ctx : LiteralContext)

/-- The constant that diagnostics name. -/
def site : ConstSite := ⟨ctx.scope.owner, ctx.name⟩

/-- A number as a C++ literal. -/
def floatText (single : Bool) (x : Binary64) : String :=
  if single then Decimal.text x ++ "f" else Decimal.text x

/-- A reference to an earlier constant of the type `t`. -/
def reference (target : String) (t : TypeExpr) : Except Diagnostic Initializer :=
  match ctx.scope.consts.zipIdx.find? (·.1.name == target) with
  | none => .error (.unknownConstRef ctx.site target)
  | some (c, position) =>
    if ctx.index ≤ position then .error (.forwardConstRef ctx.site target)
    else if c.type = t then .ok (.constant ctx.scope.qualifier (ctx.settings.nativeConst target))
    else .error (.constRefType ctx.site t target c.type)

/-- A literal at a primitive type. -/
def primitive (p : Prim) (t : TypeExpr) (v : Literal) : Except Diagnostic Initializer :=
  let mismatch := Except.error (.constKind ctx.site t v.form)
  match p, v with
  | .binary, _ | .date, _ => .error (.unsupportedConstType ctx.site t)
  | .bool, .bool b => .ok (.scalar (if b then "true" else "false"))
  | .string, .string s => .ok (.scalar s)
  | p, .int i =>
    if p.isInteger then .ok (.scalar (toString i.toInt))
    else if p.isFloat then .ok (.scalar (floatText (p == .f32) (.ofInt i.toInt)))
    else mismatch
  | p, .float x =>
    if !p.isFloat then mismatch
    else if x.isFinite then .ok (.scalar (floatText (p == .f32) x))
    else .error (.nonFiniteFloat ctx.site)
  | _, _ => mismatch

/-- An option of an enum. -/
def enumerator (enum option : String) : Except Diagnostic Initializer :=
  if ((ctx.registry.enum? enum).bind (·.ordinal? option)).isSome then
    .ok (.enumerator (ctx.settings.nativeQualified enum) (ctx.settings.nativeEnumOption option))
  else .error (.unknownEnumOption ctx.site enum option)

/-- The arguments of a record's constructor, one for each field, from what the literal's values are
at a type. -/
def arguments (record : String) (fields : List Field)
    (values : List (String × (TypeExpr → Except Diagnostic Initializer))) :
    Except Diagnostic (List (Initializer × String)) :=
  fields.mapM fun f =>
    match NameMap.find? f.name values with
    | none => .error (.missingField ctx.site record f.name)
    | some value => (value f.type).map fun i => (i, ctx.settings.nativeField f.name)

/-- A record literal at a record type, from what its values are at a type. -/
def construct (d : DefRef) (t : TypeExpr)
    (values : List (String × (TypeExpr → Except Diagnostic Initializer))) :
    Except Diagnostic Initializer :=
  match ctx.registry.record? d.name with
  | none => .error (.unresolvedType ctx.scope.owner d.name d.kind)
  | some r =>
    match (NameMap.names values).find? (fun n => !r.fields.any (·.name == n)) with
    | some extra => .error (.unknownField ctx.site d.name extra)
    | none => (ctx.arguments d.name r.fields values).map (.construct (ctx.typename t))

/-- A literal that is neither a reference nor a record, at a type without optionals around it. -/
def plain (v : Literal) (t : TypeExpr) : Except Diagnostic Initializer :=
  match t.head with
  | .primitive p => ctx.primitive p t v
  | .optional => .error (.constKind ctx.site t v.form)
  | .declared d =>
    match d.kind, v with
    | .enum, .enumOption option => ctx.enumerator d.name option
    | .interface, _ => .error (.unsupportedConstType ctx.site t)
    | _, _ => .error (.constKind ctx.site t v.form)
  | .list | .set | .map | .param _ => .error (.unsupportedConstType ctx.site t)

mutual

/-- A literal at a type. -/
def elaborate : Literal → TypeExpr → Except Diagnostic Initializer
  | .constRef target, t => ctx.reference target t
  | .record entries, t =>
    match t.core.head with
    | .declared ⟨name, .record⟩ => ctx.construct ⟨name, .record⟩ t.core (elaborateAll entries)
    | _ => ctx.plain (.record entries) t.core
  | v, t => ctx.plain v t.core

/-- The values of a record literal, each waiting for its type. -/
def elaborateAll :
    List (String × Literal) → List (String × (TypeExpr → Except Diagnostic Initializer))
  | [] => []
  | (name, v) :: rest => (name, fun t => elaborate v t) :: elaborateAll rest

end

end LiteralContext

end IdlBinder

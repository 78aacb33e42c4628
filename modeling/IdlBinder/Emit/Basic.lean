import IdlBinder.Constant.Elaborate
import IdlBinder.Cpp.SourceFile
import IdlBinder.Marshal.Basic

set_option autoImplicit false

/-!
# The context of emission

What the emission of every declaration shares: the settings, the marshals of both sides, the
registry and the name of the document. From it come the two kinds of files, the constants and what
is all of an enum: one header.
-/

namespace IdlBinder

/-- How files are made, whatever the document. -/
structure Generator where
  settings : Settings
  native : NativeMarshal
  component : ComponentMarshal

/-- How the files of one document are made. -/
structure Emitter extends Generator where
  registry : Registry
  /-- The file that the document comes from. -/
  origin : String

namespace Emitter

variable (e : Emitter)

/-! ## Files -/

/-- A header. -/
def header (stem : String) (refs : References) (items : List Cpp.Item) : Cpp.SourceFile where
  path := e.settings.headerPath stem
  origin := e.origin
  ownHeader := none
  includes := refs.includes.toList
  scope := e.settings.nativeNamespace
  forwards := refs.forwards.toList
  items := items

/-- The source that belongs to the header of the same stem. Its includes make forward declarations
unnecessary. -/
def source (stem : String) (includes : List String) (items : List Cpp.Item) : Cpp.SourceFile where
  path := e.settings.sourcePath stem
  origin := e.origin
  ownHeader := some (e.settings.includeTarget stem)
  includes := includes
  scope := e.settings.nativeNamespace
  forwards := []
  items := items

/-! ## Constants -/

/-- The declaration of a constant. -/
def constDecl (c : Const) : Cpp.ConstDecl where
  doc := c.doc
  type := e.native.typename c.type
  name := e.settings.nativeConst c.name

/-- Where the literal of a constant stands. -/
def literalContext (scope : ConstScope) (index : Nat) (name : String) : LiteralContext where
  settings := e.settings
  typename := e.native.typename
  registry := e.registry
  scope := scope
  index := index
  name := name

/-- The definition of a constant. -/
def constDef (scope : ConstScope) (template : Option Cpp.Template) (c : Const) (index : Nat) :
    Except Diagnostic Cpp.ConstDef := do
  let value ← (e.literalContext scope index c.name).elaborate c.value c.type
  return {
    template := template
    type := e.native.typename c.type
    owner := scope.qualifier
    name := e.settings.nativeConst c.name
    value := value }

/-- The definitions of the constants of a scope, in order. -/
def constDefs (scope : ConstScope) (template : Option Cpp.Template) :
    Except Diagnostic (List Cpp.ConstDef) :=
  scope.consts.zipIdx.mapM fun c => e.constDef scope template c.1 c.2

/-! ## Enums

Enumerators carry no values: their positions are their values.
-/

/-- The enum that a declaration generates. -/
def enumClass (d : Decl) (enum : Enum) : Cpp.EnumClass where
  doc := d.doc
  name := e.settings.nativeType d.name
  enumerators := enum.options.map fun o => ⟨o.doc, e.settings.nativeEnumOption o.name⟩

/-- What the header of an enum includes. -/
def enumReferences : References :=
  let refs := References.empty.addInclude "<cstdint>"
  if e.settings.hashEnums then refs.addInclude "<functional>" else refs

/-- The header of an enum. -/
def enumHeader (d : Decl) (enum : Enum) : Cpp.SourceFile :=
  { e.header (e.settings.fileStem d.name) e.enumReferences [.enumClass (e.enumClass d enum)] with
    hashed := if e.settings.hashEnums then some (e.settings.nativeQualified d.name) else none }

end Emitter

end IdlBinder

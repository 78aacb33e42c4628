import IdlBinder.Emit.Basic

set_option autoImplicit false

/-!
# Emission of records

A record has a struct for the native side and a bridge between that struct and the component class.
The struct of a record that is extended by hand on the native side is a base with a name of its own,
and so is the bridge of one that is extended on either side. All other code keeps to the plain
names.
-/

namespace IdlBinder.Emitter

variable (e : Emitter)

/-! ## The struct -/

/-- The constructor's parameter for a field. -/
def ctorParam (f : Field) : String := e.settings.nativeLocal f.name ++ "_"

/-- The struct of a record. -/
def structDef (d : Decl) (r : Record) : Cpp.StructDef where
  doc := d.doc
  name := e.settings.structName d.name r.ext
  isBase := r.ext.native
  consts := r.consts.map e.constDecl
  members := r.fields.map fun f =>
    ⟨f.doc, e.native.typename f.type, e.settings.nativeField f.name⟩
  ctorParams := r.fields.map fun f => ⟨e.native.typename f.type, e.ctorParam f⟩
  ctorInits := r.fields.map fun f => ⟨e.settings.nativeField f.name, e.ctorParam f⟩

/-- What the header of a record includes and declares ahead. -/
def structReferences (d : Decl) (r : Record) : References :=
  let refs := References.collectAll e.native.needs .header (some d.name) r.types
  if r.fields.isEmpty then refs else refs.addInclude "<utility>"

/-- The header of a record. -/
def structHeader (d : Decl) (r : Record) : Cpp.SourceFile :=
  e.header (e.settings.recordFileStem d.name r.ext) (e.structReferences d r)
    [.struct (e.structDef d r)]

/-- The constants of a record. -/
def structScope (d : Decl) (r : Record) : ConstScope where
  owner := d.name
  qualifier := e.settings.structName d.name r.ext
  consts := r.consts

/-- The source that defines the constants of a record. -/
def structSource (d : Decl) (r : Record) : Except Diagnostic Cpp.SourceFile := do
  let consts ← e.constDefs (e.structScope d r) none
  return e.source (e.settings.recordFileStem d.name r.ext) [] (consts.map .const)

/-! ## The bridge -/

/-- The declaration of a bridge. -/
def bridgeDecl (d : Decl) (r : Record) : Cpp.BridgeDecl where
  name := e.settings.bridgeName d.name r.ext
  isBase := r.ext.any
  native := e.settings.nativeQualified d.name
  component := e.settings.componentQualified d.name

/-- What the header of a bridge includes: the native type, by its plain name, and the component. -/
def bridgeDeclReferences (d : Decl) : References :=
  let native := e.settings.includeTarget (e.settings.fileStem d.name)
  (References.empty.addInclude native).addInclude e.settings.projectionHeader

/-- The header of a bridge. -/
def bridgeHeader (d : Decl) (r : Record) : Cpp.SourceFile :=
  e.header (e.settings.bridgeFileStem d.name r.ext) (e.bridgeDeclReferences d)
    [.bridge (e.bridgeDecl d r)]

/-- The field of a component instance as a native value. -/
def nativeArg (f : Field) : String :=
  e.component.toNative f.type (e.component.accessor f Cpp.bridgeParam)

/-- The function that makes a native value. -/
def toNativeDef (d : Decl) (r : Record) : Cpp.ToNativeDef where
  bridge := e.settings.bridgeName d.name r.ext
  args := r.fields.map e.nativeArg

/-- The field of a native value as a component value. -/
def componentArg (f : Field) : String :=
  e.component.toComponent f.type (Cpp.bridgeParam ++ "." ++ e.settings.nativeField f.name)

/-- The calls that make a component instance, one step for each field in order. -/
def componentBuilder (r : Record) : Builder :=
  r.fields.foldl (fun b f => e.component.withField b f (e.componentArg f))
    (.empty Cpp.componentAlias)

/-- The function that makes a component instance. -/
def toComponentDef (d : Decl) (r : Record) : Cpp.ToComponentDef where
  bridge := e.settings.bridgeName d.name r.ext
  usesParam := !r.fields.isEmpty
  chain := e.component.finish (e.componentBuilder r)

/-- What the source of a bridge includes. -/
def bridgeReferences (d : Decl) (r : Record) : References :=
  let types := r.fields.map (·.type)
  let native := References.collectAll e.native.needs .source (some d.name) types
  let component := References.collectAll e.component.needs .source (some d.name) types
  ((native.merge component).addInclude "<cassert>").addInclude e.settings.supportTarget

/-- The source of a bridge. -/
def bridgeSource (d : Decl) (r : Record) : Cpp.SourceFile :=
  e.source (e.settings.bridgeFileStem d.name r.ext) (e.bridgeReferences d r).includes.toList
    [.toNative (e.toNativeDef d r), .toComponent (e.toComponentDef d r)]

/-! ## The files of a record -/

/-- The files of a record, in order. -/
def recordFiles (d : Decl) (r : Record) : Except Diagnostic (List Cpp.SourceFile) :=
  if r.consts.isEmpty then .ok [e.structHeader d r, e.bridgeHeader d r, e.bridgeSource d r]
  else do
    let source ← e.structSource d r
    return [e.structHeader d r, source, e.bridgeHeader d r, e.bridgeSource d r]

end IdlBinder.Emitter

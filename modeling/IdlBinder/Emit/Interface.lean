import IdlBinder.Emit.Basic

set_option autoImplicit false

/-!
# Emission of interfaces

An interface is an abstract class. The constants of a generic one are defined in the header, after
the class, where every instantiation sees them; its source then only includes the header.
-/

namespace IdlBinder.Emitter

variable (e : Emitter)

/-- The spelled type parameters of an interface. -/
def typeParams (i : Interface) : List String := i.typeParams.map e.settings.nativeTypeParam

/-- The template of a generic interface. -/
def template (i : Interface) : Option Cpp.Template :=
  if i.typeParams.isEmpty then none else some ⟨e.typeParams i⟩

/-- How a method is called. -/
def dispatch (m : Method) : Cpp.Dispatch :=
  if m.isStatic then .static else if m.isConst then .virtualConst else .virtual

/-- The declaration of a method. -/
def methodDecl (m : Method) : Cpp.MethodDecl where
  doc := m.doc
  result := e.native.returnType m.result
  name := e.settings.nativeMethod m.name
  params := m.params.map fun p => ⟨e.native.paramType p.type, e.settings.nativeLocal p.name⟩
  dispatch := dispatch m

/-- The class of an interface. -/
def classDef (d : Decl) (i : Interface) : Cpp.ClassDef where
  doc := d.doc
  template := e.template i
  name := e.settings.nativeType d.name
  consts := i.consts.map e.constDecl
  methods := i.methods.map e.methodDecl

/-- What the header of an interface includes and declares ahead. -/
def classReferences (d : Decl) (i : Interface) : References :=
  References.collectAll e.native.needs .header (some d.name) i.types

/-- The constants of an interface. -/
def classScope (d : Decl) (i : Interface) : ConstScope where
  owner := d.name
  qualifier :=
    if i.typeParams.isEmpty then e.settings.nativeType d.name
    else e.settings.nativeType d.name ++ "<" ++ ", ".intercalate (e.typeParams i) ++ ">"
  consts := i.consts

/-- The header of an interface, with constants defined after the class. -/
def classHeader (d : Decl) (i : Interface) (consts : List Cpp.ConstDef) : Cpp.SourceFile :=
  e.header (e.settings.fileStem d.name) (e.classReferences d i)
    (.abstractClass (e.classDef d i) :: consts.map .const)

/-- The source of an interface. -/
def classSource (d : Decl) (consts : List Cpp.ConstDef) : Cpp.SourceFile :=
  e.source (e.settings.fileStem d.name) [] (consts.map .const)

/-- The files of an interface, in order. -/
def interfaceFiles (d : Decl) (i : Interface) : Except Diagnostic (List Cpp.SourceFile) :=
  if i.consts.isEmpty then .ok [e.classHeader d i []]
  else do
    let consts ← e.constDefs (e.classScope d i) (e.template i)
    if i.typeParams.isEmpty then return [e.classHeader d i [], e.classSource d consts]
    else return [e.classHeader d i consts, e.classSource d []]

end IdlBinder.Emitter

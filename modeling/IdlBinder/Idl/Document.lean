import IdlBinder.Idl.Type
import IdlBinder.Idl.Literal
import IdlBinder.Text.Property

set_option autoImplicit false

/-!
# Documents

A document holds the declarations of one interface description: enums, records and interfaces, with
their constants and comments.
-/

namespace IdlBinder

/-- The lines of a comment. -/
abbrev Doc := List String

/-- A comment with nothing but blanks in it. -/
def Doc.isBlank (doc : Doc) : Bool := doc.all fun line => (Text.trim line).isEmpty

/-- A constant of a record or interface. -/
structure Const where
  name : String
  doc : Doc := []
  type : TypeExpr
  value : Literal

/-- An option of an enum. -/
structure EnumOption where
  name : String
  doc : Doc := []

/-- An enum. -/
structure Enum where
  options : List EnumOption := []

/-- The position of the first option with a name. -/
def Enum.ordinal? (e : Enum) (name : String) : Option Nat :=
  e.options.findIdx? (·.name == name)

/-- A field of a record, or a parameter of a method. -/
structure Field where
  name : String
  doc : Doc := []
  type : TypeExpr

/-- On which sides a record is finished by hand. -/
structure Extension where
  native : Bool := false
  component : Bool := false
deriving DecidableEq

/-- Whether a record is finished by hand on some side. -/
def Extension.any (ext : Extension) : Bool := ext.native || ext.component

/-- A record. -/
structure Record where
  fields : List Field := []
  consts : List Const := []
  ext : Extension := {}

/-- The types that a record uses, in order. -/
def Record.types (r : Record) : List TypeExpr :=
  r.fields.map (·.type) ++ r.consts.map (·.type)

/-- A method of an interface. -/
structure Method where
  name : String
  doc : Doc := []
  params : List Field := []
  result : Option TypeExpr := none
  isStatic : Bool := false
  isConst : Bool := false

/-- The types that a method uses, in order. -/
def Method.types (m : Method) : List TypeExpr := m.params.map (·.type) ++ m.result.toList

/-- An interface, generic when it has type parameters. -/
structure Interface where
  typeParams : List String := []
  methods : List Method := []
  consts : List Const := []

/-- The types that an interface uses, in order. -/
def Interface.types (i : Interface) : List TypeExpr :=
  i.methods.flatMap Method.types ++ i.consts.map (·.type)

/-- What a declaration declares. -/
inductive Body where
  | enum (e : Enum)
  | record (r : Record)
  | interface (i : Interface)

namespace Body

/-- The kind of a declaration. -/
def kind : Body → Kind
  | enum _ => .enum
  | record _ => .record
  | interface _ => .interface

/-- The enum, if it is one. -/
def enum? : Body → Option Enum
  | enum e => some e
  | _ => none

/-- The record, if it is one. -/
def record? : Body → Option Record
  | record r => some r
  | _ => none

/-- The interface, if it is one. -/
def interface? : Body → Option Interface
  | interface i => some i
  | _ => none

end Body

/-- A declaration. -/
structure Decl where
  name : String
  doc : Doc := []
  body : Body

namespace Decl

/-- The kind of a declaration. -/
def kind (d : Decl) : Kind := d.body.kind

/-- The constants of a declaration. -/
def consts (d : Decl) : List Const :=
  match d.body with
  | .enum _ => []
  | .record r => r.consts
  | .interface i => i.consts

end Decl

/-- A document. -/
structure Document where
  origin : String := ""
  decls : List Decl := []

/-- The first declaration with a name. -/
def Document.find? (doc : Document) (name : String) : Option Decl :=
  doc.decls.find? (·.name == name)

end IdlBinder

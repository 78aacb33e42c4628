import IdlBinder.Idl.Document
import IdlBinder.Json.Basic

set_option autoImplicit false

/-!
# Writing documents

The full JSON form of a document: every field is written, also where it has its default value.
-/

namespace IdlBinder.Encode

/-- Texts. -/
def texts (lines : List String) : Json := .array (lines.map Json.text)

/-- A primitive type. -/
def prim (p : Prim) : Json := .text p.name

/-- The head of a type expression. -/
def typeHead : TypeHead → Json
  | .primitive p => .record [("primitive", prim p)]
  | .declared d =>
    .record [("def", .record [("name", .text d.name), ("kind", .text d.kind.name)])]
  | .param n => .record [("param", .text n)]
  | h => .text h.name

mutual

/-- A type expression. -/
def typeExpr : TypeExpr → Json
  | .node h args => .record [("base", typeHead h), ("args", .array (typeExprs args))]

/-- Type expressions. -/
def typeExprs : List TypeExpr → List Json
  | [] => []
  | t :: ts => typeExpr t :: typeExprs ts

end

mutual

/-- A literal. -/
def literal : Literal → Json
  | .int i => .record [("int", .int i.toInt)]
  | .float x => .record [("float", .number (.real x))]
  | .bool b => .record [("bool", .bool b)]
  | .string s => .record [("string", .text s)]
  | .enumOption n => .record [("enum_option", .text n)]
  | .constRef n => .record [("const_ref", .text n)]
  | .record fields => .record [("record", .object (entries fields))]

/-- The entries of a record literal. -/
def entries : List (String × Literal) → List (Option String × Json)
  | [] => []
  | (name, value) :: rest => (some name, literal value) :: entries rest

end

/-- A constant. -/
def const (c : Const) : Json :=
  .record [("ident", .text c.name), ("doc", texts c.doc), ("ty", typeExpr c.type),
    ("value", literal c.value)]

/-- An option of an enum. -/
def enumOption (o : EnumOption) : Json :=
  .record [("ident", .text o.name), ("doc", texts o.doc)]

/-- A field or parameter. -/
def field (f : Field) : Json :=
  .record [("ident", .text f.name), ("doc", texts f.doc), ("ty", typeExpr f.type)]

/-- The sides on which a record is finished by hand. -/
def extension (e : Extension) : Json :=
  .record [("native", .bool e.native), ("component", .bool e.component)]

/-- A method. -/
def method (m : Method) : Json :=
  .record [("ident", .text m.name), ("doc", texts m.doc), ("params", .array (m.params.map field)),
    ("ret", m.result.elim .null typeExpr), ("static", .bool m.isStatic),
    ("const", .bool m.isConst)]

/-- The members of a declaration that belong to its kind. -/
def bodyMembers : Body → List (String × Json)
  | .enum e => [("options", .array (e.options.map enumOption))]
  | .record r => [("fields", .array (r.fields.map field)), ("consts", .array (r.consts.map const)),
      ("ext", extension r.ext)]
  | .interface i => [("type_params", texts i.typeParams),
      ("methods", .array (i.methods.map method)), ("consts", .array (i.consts.map const))]

/-- A declaration. -/
def decl (d : Decl) : Json :=
  .record ([("ident", .text d.name), ("doc", texts d.doc), ("kind", .text d.kind.name)] ++
    bodyMembers d.body)

/-- A document. -/
def document (doc : Document) : Json :=
  .record [("origin", .text doc.origin), ("decls", .array (doc.decls.map decl))]

end IdlBinder.Encode

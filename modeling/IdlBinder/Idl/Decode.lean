import IdlBinder.Idl.Document
import IdlBinder.Json.Shape
import IdlBinder.Json.Reader

set_option autoImplicit false

/-!
# Reading documents

How the parts of a document are written in JSON. Every function takes the number of arrays and
objects that may still be opened, its *room*. Keys that are not known are passed over unseen, except
in a declaration: all of a declaration counts, known or not. In a declaration, too, a choice without
data may be given an empty object; the functions that meet such choices are told where they are.
-/

namespace IdlBinder.Decode

open IdlBinder.Json

/-- A value that may be left out. -/
def orElse {α : Type} (default : α) (decode : Json → Option α) : Option Json → Option α
  | none => some default
  | some j => decode j

/-- A list, whose items have one level less to open. -/
def list {α : Type} (decode : Nat → Json → Option α) : Nat → Json → Option (List α)
  | 0, _ => none
  | room + 1, j => (asItems j).bind fun items => items.mapM (decode room)

/-- The lines of a comment. -/
def doc : Nat → Json → Option Doc := list fun _ => asText

/-- A choice; its object, if it is one, takes a level. -/
def choiceIn : Nat → Json → Option (String × Option Json)
  | 0, .object _ => none
  | _, j => choice j

/-- A name out of a fixed set. -/
def named {α : Type} (inDecl : Bool) (ofName? : String → Option α) (room : Nat) (j : Json) :
    Option α :=
  match choiceIn room j with
  | some (name, data) => if isBare inDecl data then ofName? name else none
  | none => none

/-! ## Types -/

variable (inDecl : Bool)

/-- A declaration referred to. -/
def defRef : Nat → Json → Option DefRef
  | 0, _ => none
  | room + 1, j => do
    match ← slots ["name", "kind"] j with
    | [some name, some kind] =>
      return { name := ← asText name, kind := ← named inDecl Kind.ofName? room kind }
    | _ => none

/-- The head of a type expression. -/
def typeHead (room : Nat) (j : Json) : Option TypeHead :=
  match choiceIn room j with
  | some ("primitive", some data) => (named inDecl Prim.ofName? (room - 1) data).map .primitive
  | some ("def", some data) => (defRef inDecl (room - 1) data).map .declared
  | some ("param", some data) => (asText data).map .param
  | some (name, data) =>
    if isBare inDecl data then
      [TypeHead.optional, .list, .set, .map].find? (·.name == name)
    else none
  | none => none

mutual

/-- A type expression. -/
def typeExpr : Nat → Json → Option TypeExpr
  | 0, _ => none
  | room + 1, j =>
    match slots ["base", "args"] j with
    | some [some base, none] => (typeHead inDecl room base).map (TypeExpr.node · [])
    | some [some base, some args] =>
      (typeHead inDecl room base).bind fun head => (typeExprs room args).map (TypeExpr.node head)
    | _ => none

/-- A list of type expressions. -/
def typeExprs : Nat → Json → Option (List TypeExpr)
  | 0, _ => none
  | room + 1, j => (asItems j).bind fun items => items.mapM fun item => typeExpr room item

end

/-! ## Literals -/

/-- A number literal without fraction and exponent, of 64 bits. -/
def int64 : Json → Option Int64
  | .number (.int i) =>
    if Int64.minValue.toInt ≤ i && i ≤ Int64.maxValue.toInt then some (Int64.ofInt i) else none
  | _ => none

/-- Any number. -/
def real : Json → Option Binary64
  | .number (.int i) => some (.ofInt i)
  | .number (.real x) => some x
  | _ => none

mutual

/-- A literal. -/
def literal : Nat → Json → Option Literal
  | 0, _ => none
  | room + 1, j =>
    match choice j with
    | some (form, some data) =>
      match form with
      | "int" => (int64 data).map .int
      | "float" => (real data).map .float
      | "bool" => (asBool data).map .bool
      | "string" => (asText data).map .string
      | "enum_option" => (asText data).map .enumOption
      | "const_ref" => (asText data).map .constRef
      | "record" => (entries room data).map .record
      | _ => none
    | _ => none

/-- The entries of a record literal. A name that occurs again replaces the value before it. -/
def entries : Nat → Json → Option (List (String × Literal))
  | 0, _ => none
  | room + 1, j =>
    match j with
    | .object members =>
      members.foldlM
        (fun done m => m.1.bind fun name =>
          (literal room m.2).map fun value => NameMap.insert name value done) []
    | _ => none

end

/-! ## Members -/

/-- A constant. -/
def const : Nat → Json → Option Const
  | 0, _ => none
  | room + 1, j => do
    match ← slots ["ident", "doc", "ty", "value"] j with
    | [some name, lines, some type, some value] =>
      return {
        name := ← asText name
        doc := ← orElse [] (doc room) lines
        type := ← typeExpr inDecl room type
        value := ← literal room value }
    | _ => none

/-- An option of an enum. -/
def enumOption : Nat → Json → Option EnumOption
  | 0, _ => none
  | room + 1, j => do
    match ← slots ["ident", "doc"] j with
    | [some name, lines] =>
      return { name := ← asText name, doc := ← orElse [] (doc room) lines }
    | _ => none

/-- A field or parameter. -/
def field : Nat → Json → Option Field
  | 0, _ => none
  | room + 1, j => do
    match ← slots ["ident", "doc", "ty"] j with
    | [some name, lines, some type] =>
      return {
        name := ← asText name
        doc := ← orElse [] (doc room) lines
        type := ← typeExpr inDecl room type }
    | _ => none

/-- The sides on which a record is finished by hand. -/
def extension : Nat → Json → Option Extension
  | 0, _ => none
  | _ + 1, j => do
    match ← slots ["native", "component"] j with
    | [native, component] =>
      return {
        native := ← orElse false asBool native
        component := ← orElse false asBool component }
    | _ => none

/-- A result type; null means that there is none. -/
def result (room : Nat) : Json → Option (Option TypeExpr)
  | .null => some none
  | j => (typeExpr inDecl room j).map some

/-- A method. -/
def method : Nat → Json → Option Method
  | 0, _ => none
  | room + 1, j => do
    match ← slots ["ident", "doc", "params", "ret", "static", "const"] j with
    | [some name, lines, params, ret, isStatic, isConst] =>
      return {
        name := ← asText name
        doc := ← orElse [] (doc room) lines
        params := ← orElse [] (list (field inDecl) room) params
        result := ← orElse none (result inDecl room) ret
        isStatic := ← orElse false asBool isStatic
        isConst := ← orElse false asBool isConst }
    | _ => none

/-! ## Declarations -/

/-- The kind of a declaration, by name or number. -/
def kind : Json → Option Kind
  | .string (some s) => Kind.ofName? s
  | .number (.int i) => if 0 ≤ i then Kind.all[i.toNat]? else none
  | _ => none

/-- What a declaration of a kind declares, from the members of its object. -/
def body (room : Nat) (j : Json) : Kind → Option Body
  | .enum => do
    match ← slots ["options"] j with
    | [options] => return .enum { options := ← orElse [] (list enumOption room) options }
    | _ => none
  | .record => do
    match ← slots ["fields", "consts", "ext"] j with
    | [fields, consts, ext] =>
      return .record {
        fields := ← orElse [] (list (field true) room) fields
        consts := ← orElse [] (list (const true) room) consts
        ext := ← orElse {} (extension room) ext }
    | _ => none
  | .interface => do
    match ← slots ["type_params", "methods", "consts"] j with
    | [typeParams, methods, consts] =>
      return .interface {
        typeParams := ← orElse [] (list (fun _ => asText) room) typeParams
        methods := ← orElse [] (list (method true) room) methods
        consts := ← orElse [] (list (const true) room) consts }
    | _ => none

/-- The members of a declaration that all kinds have, and its body. -/
def declMembers (room : Nat) (j : Json) : Option Decl := do
  match ← slots ["ident", "doc", "kind"] j with
  | [some name, lines, some k] =>
    return {
      name := ← asText name
      doc := ← orElse [] (doc room) lines
      body := ← body room j (← kind k) }
  | _ => none

/-- A declaration: an object in which everything is sound and within the room. -/
def decl : Nat → Json → Option Decl
  | 0, _ => none
  | room + 1, j =>
    match j with
    | .object _ => if j.sound && j.nesting ≤ room + 1 then declMembers room j else none
    | _ => none

/-- A document. -/
def document : Nat → Json → Option Document
  | 0, _ => none
  | room + 1, j => do
    match ← slots ["origin", "decls"] j with
    | [origin, decls] =>
      return {
        origin := ← orElse "" asText origin
        decls := ← orElse [] (list decl room) decls }
    | _ => none

/-- How many arrays and objects of a text may be open at once. -/
def maxNesting : Nat := 127

/-- Reads a text of which `decode` says what it holds. -/
def read? {α : Type} (decode : Nat → Json → Option α) (s : String) : Option α :=
  (Json.parse? s).bind (decode maxNesting)

end IdlBinder.Decode

namespace IdlBinder

/-- Reads a document. -/
def Document.read? (s : String) : Option Document := Decode.read? Decode.document s

end IdlBinder

import IdlBinder.Registry

set_option autoImplicit false

/-!
# Checking type expressions

Before anything is generated, every type expression of a document is checked: declarations exist and
are of the stated kind, type parameters are in scope, and every head has the number of arguments it
takes. A node is checked before its arguments.
-/

namespace IdlBinder

namespace Decl

/-- The type parameters in scope in a declaration. -/
def typeParams (d : Decl) : List String :=
  match d.body with
  | .interface i => i.typeParams
  | _ => []

/-- The type expressions of a declaration, in the order in which they are checked. -/
def types (d : Decl) : List TypeExpr :=
  match d.body with
  | .enum _ => []
  | .record r => r.types
  | .interface i => i.types

end Decl

namespace Registry

/-- The number of type parameters of a declaration. -/
def paramCount (r : Registry) (name : String) : Nat :=
  ((r.interface? name).map (·.typeParams.length)).getD 0

/-- The number of arguments a head takes, if it may be used at all. -/
def arityOf (r : Registry) (owner : String) (params : List String) :
    TypeHead → Except Diagnostic Nat
  | .declared d =>
    if (r.get? d.name).any (·.kind == d.kind) then .ok (r.paramCount d.name)
    else .error (.unresolvedType owner d.name d.kind)
  | .param p => if params.contains p then .ok 0 else .error (.unknownTypeParam owner p)
  | h => .ok (h.arity?.getD 0)

mutual

/-- Checks a type expression. -/
def checkType (r : Registry) (owner : String) (params : List String) :
    TypeExpr → Except Diagnostic Unit
  | .node h args =>
    match r.arityOf owner params h with
    | .error e => .error e
    | .ok expected =>
      if args.length = expected then r.checkTypes owner params args
      else .error (.arity owner (.node h args) expected args.length)

/-- Checks type expressions in order. -/
def checkTypes (r : Registry) (owner : String) (params : List String) :
    List TypeExpr → Except Diagnostic Unit
  | [] => .ok ()
  | t :: ts =>
    match r.checkType owner params t with
    | .error e => .error e
    | .ok () => r.checkTypes owner params ts

end

/-- Checks the type expressions of a declaration. -/
def checkDecl (r : Registry) (d : Decl) : Except Diagnostic Unit :=
  r.checkTypes d.name d.typeParams d.types

/-- Checks the type expressions of a document. -/
def check (r : Registry) (doc : Document) : Except Diagnostic Unit := doc.decls.forM r.checkDecl

end Registry

end IdlBinder

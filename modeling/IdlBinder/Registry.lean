import IdlBinder.Diagnostic

set_option autoImplicit false

/-!
# The registry

The declarations of a document by name. A document that declares a name twice has none.
-/

namespace IdlBinder

/-- Declarations by name. -/
structure Registry where
  entries : List (String × Decl)

namespace Registry

/-- The registry without declarations. -/
def empty : Registry := ⟨[]⟩

/-- The declaration of a name. -/
def get? (r : Registry) (name : String) : Option Decl := NameMap.find? name r.entries

/-- Adds a declaration, whose name must be new. -/
def add (r : Registry) (d : Decl) : Except Diagnostic Registry :=
  match r.get? d.name with
  | some _ => .error (.duplicateDecl d.name)
  | none => .ok ⟨NameMap.insert d.name d r.entries⟩

/-- The registry of a document. -/
def build (doc : Document) : Except Diagnostic Registry := doc.decls.foldlM add empty

/-- The enum of a name. -/
def enum? (r : Registry) (name : String) : Option Enum :=
  (r.get? name).bind (·.body.enum?)

/-- The record of a name. -/
def record? (r : Registry) (name : String) : Option Record :=
  (r.get? name).bind (·.body.record?)

/-- The interface of a name. -/
def interface? (r : Registry) (name : String) : Option Interface :=
  (r.get? name).bind (·.body.interface?)

/-- The number of declarations. -/
def size (r : Registry) : Nat := r.entries.length

end Registry

end IdlBinder

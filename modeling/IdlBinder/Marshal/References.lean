import IdlBinder.Idl.Type
import IdlBinder.Text.TextSet

set_option autoImplicit false

/-!
# References

What a file must include or declare in advance in order to name types. A marshal says what a single
node of a type expression needs; the references of a file are the needs of all nodes of its types.
-/

namespace IdlBinder

/-- The kind of file that names a type. -/
inductive FileRole where
  | header
  | source
deriving DecidableEq

/-- What naming a type may need. -/
inductive Need where
  | inclusion (target : String)
  | forward (declaration : String)
deriving DecidableEq

/-- A source includes full definitions, so it keeps no forward declarations. -/
def FileRole.keeps : FileRole → Need → Bool
  | .source, .forward _ => false
  | _, _ => true

/-- What one node of a type expression needs in a file that belongs to `owner`. -/
abbrev NeedsOf := TypeExpr → FileRole → Option String → List Need

/-- Include targets and forward declarations. -/
structure References where
  includes : TextSet
  forwards : TextSet

namespace References

/-- No references. -/
def empty : References := ⟨.empty, .empty⟩

/-- References with one more include target. -/
def addInclude (r : References) (target : String) : References :=
  { r with includes := r.includes.insert target }

/-- References with one more forward declaration. -/
def addForward (r : References) (declaration : String) : References :=
  { r with forwards := r.forwards.insert declaration }

/-- References with one more need. -/
def add (r : References) : Need → References
  | .inclusion target => r.addInclude target
  | .forward declaration => r.addForward declaration

/-- References with more needs. -/
def addAll (r : References) (needs : List Need) : References := needs.foldl add r

/-- The references of either. -/
def merge (r t : References) : References :=
  ⟨r.includes.union t.includes, r.forwards.union t.forwards⟩

/-- Whether there are none. -/
def isEmpty (r : References) : Bool := r.includes.isEmpty && r.forwards.isEmpty

/-- The references of a type expression. -/
def collect (needs : NeedsOf) (role : FileRole) (owner : Option String) (t : TypeExpr) :
    References :=
  empty.addAll ((t.nodes.flatMap fun n => needs n role owner).filter role.keeps)

/-- The references of several type expressions. -/
def collectAll (needs : NeedsOf) (role : FileRole) (owner : Option String)
    (types : List TypeExpr) : References :=
  types.foldl (fun r t => r.merge (collect needs role owner t)) empty

end References

end IdlBinder

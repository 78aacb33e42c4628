set_option autoImplicit false

/-!
# Type expressions

A type expression is a head with arguments: a primitive, a container, a declaration of the document
or a type parameter. Nothing here says that a head has the right number of arguments.
-/

namespace IdlBinder

/-- The primitive types. -/
inductive Prim where
  | bool
  | i8
  | i16
  | i32
  | i64
  | f32
  | f64
  | string
  | binary
  | date
deriving DecidableEq

namespace Prim

/-- All primitive types. -/
def all : List Prim := [bool, i8, i16, i32, i64, f32, f64, string, binary, date]

/-- The name of a primitive type. -/
def name : Prim → String
  | bool => "bool"
  | i8 => "i8"
  | i16 => "i16"
  | i32 => "i32"
  | i64 => "i64"
  | f32 => "f32"
  | f64 => "f64"
  | string => "string"
  | binary => "binary"
  | date => "date"

/-- The primitive type of a name. -/
def ofName? (s : String) : Option Prim := all.find? (·.name == s)

/-- Whether the values are integers. -/
def isInteger : Prim → Bool
  | i8 | i16 | i32 | i64 => true
  | _ => false

/-- Whether the values are floating-point numbers. -/
def isFloat : Prim → Bool
  | f32 | f64 => true
  | _ => false

end Prim

/-- The kinds of declarations. -/
inductive Kind where
  | enum
  | record
  | interface
deriving DecidableEq

namespace Kind

/-- All kinds, in the order of their numbers. -/
def all : List Kind := [enum, record, interface]

/-- The name of a kind. -/
def name : Kind → String
  | enum => "enum"
  | record => "record"
  | interface => "interface"

/-- The kind of a name. -/
def ofName? (s : String) : Option Kind := all.find? (·.name == s)

end Kind

/-- A declaration referred to by name, and the kind it is expected to have. -/
structure DefRef where
  name : String
  kind : Kind
deriving DecidableEq

/-- What a type expression is made with. -/
inductive TypeHead where
  | primitive (p : Prim)
  | optional
  | list
  | set
  | map
  | declared (d : DefRef)
  | param (name : String)
deriving DecidableEq

namespace TypeHead

/-- The name a head is shown by. -/
def name : TypeHead → String
  | primitive p => p.name
  | optional => "optional"
  | list => "list"
  | set => "set"
  | map => "map"
  | declared d => d.name
  | param n => n

/-- The number of arguments a head takes, unless its declaration says so. -/
def arity? : TypeHead → Option Nat
  | primitive _ | param _ => some 0
  | optional | list | set => some 1
  | map => some 2
  | declared _ => none

end TypeHead

/-- A type expression. -/
inductive TypeExpr where
  | node (head : TypeHead) (args : List TypeExpr)

namespace TypeExpr

/-- The head of an expression. -/
def head : TypeExpr → TypeHead
  | node h _ => h

/-- The arguments of an expression. -/
def args : TypeExpr → List TypeExpr
  | node _ as => as

/-- A primitive type. -/
def prim (p : Prim) : TypeExpr := node (.primitive p) []

/-- Whether an expression is headed by a declaration of a kind. -/
def isDeclared (kind : Kind) (t : TypeExpr) : Bool :=
  match t.head with
  | .declared d => d.kind == kind
  | _ => false

/-! ## Equality -/

mutual

/-- Equality of expressions is decidable. -/
def decEq : (s t : TypeExpr) → Decidable (s = t)
  | node h as, node k bs =>
    if hk : h = k then
      match decEqArgs as bs with
      | .isTrue e => .isTrue (by rw [hk, e])
      | .isFalse n => .isFalse (by simp [n])
    else .isFalse (by simp [hk])

/-- Equality of argument lists is decidable. -/
def decEqArgs : (as bs : List TypeExpr) → Decidable (as = bs)
  | [], [] => .isTrue rfl
  | [], _ :: _ => .isFalse (by simp)
  | _ :: _, [] => .isFalse (by simp)
  | a :: as, b :: bs =>
    match decEq a b with
    | .isTrue e =>
      match decEqArgs as bs with
      | .isTrue es => .isTrue (by rw [e, es])
      | .isFalse n => .isFalse (by simp [n])
    | .isFalse n => .isFalse (by simp [n])

end

instance : DecidableEq TypeExpr := decEq

/-! ## Text -/

mutual

/-- An expression as it is shown in messages: `map<string, list<i8>>`. -/
def text : TypeExpr → String
  | node h [] => h.name
  | node h (a :: as) => h.name ++ "<" ++ ", ".intercalate (texts (a :: as)) ++ ">"

/-- The texts of expressions. -/
def texts : List TypeExpr → List String
  | [] => []
  | t :: ts => t.text :: texts ts

end

/-! ## Nodes -/

mutual

/-- All subexpressions, arguments before the expression they belong to. -/
def nodes : TypeExpr → List TypeExpr
  | node h as => nodesAll as ++ [node h as]

/-- All subexpressions of several expressions. -/
def nodesAll : List TypeExpr → List TypeExpr
  | [] => []
  | t :: ts => t.nodes ++ nodesAll ts

end

end TypeExpr

end IdlBinder

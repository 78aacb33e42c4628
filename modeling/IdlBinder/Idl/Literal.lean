import IdlBinder.Decimal.Binary64

set_option autoImplicit false

/-!
# Literals

The values that constants are given. A record literal sets fields by name: it is a map from names.
Such a map is a list of entries in increasing order of their names, so equal maps are equal lists.
Names are ordered by their characters, which is the order of their UTF-8 bytes.
-/

namespace IdlBinder

/-! ## Maps from names -/

namespace NameMap

variable {α : Type}

/-- Puts a value under a name, in place of one that is there. -/
def insert (name : String) (value : α) : List (String × α) → List (String × α)
  | [] => [(name, value)]
  | (n, v) :: rest =>
    if name < n then (name, value) :: (n, v) :: rest
    else if name = n then (name, value) :: rest
    else (n, v) :: insert name value rest

/-- The value under a name. -/
def find? (name : String) : List (String × α) → Option α
  | [] => none
  | (n, v) :: rest => if n = name then some v else find? name rest

/-- The names in order. -/
def names (m : List (String × α)) : List String := m.map (·.1)

/-- The names are in increasing order. -/
def Ordered (m : List (String × α)) : Prop := (names m).Pairwise (· < ·)

end NameMap

/-! ## Values -/

/-- A constant value. -/
inductive Literal where
  | int (i : Int64)
  | float (x : Binary64)
  | bool (b : Bool)
  | string (s : String)
  | enumOption (name : String)
  | constRef (name : String)
  | record (fields : List (String × Literal))

namespace Literal

/-- The forms a literal may have. -/
inductive Form where
  | int
  | float
  | bool
  | string
  | enumOption
  | constRef
  | record
deriving DecidableEq

/-- The name of a form in messages. -/
def Form.name : Form → String
  | int => "integer"
  | float => "float"
  | bool => "bool"
  | string => "string"
  | enumOption => "enum option"
  | constRef => "constant reference"
  | record => "record literal"

/-- The form of a literal. -/
def form : Literal → Form
  | int _ => .int
  | float _ => .float
  | bool _ => .bool
  | string _ => .string
  | enumOption _ => .enumOption
  | constRef _ => .constRef
  | record _ => .record

end Literal

end IdlBinder

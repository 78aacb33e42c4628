import IdlBinder.Decimal.Binary64

set_option autoImplicit false

/-!
# JSON values

A JSON value as a text spells it: objects keep their members in order, repeated keys included.
Two defects of a text show only when the value in question is looked at, so they have a place in
the tree: a string whose escapes name half a surrogate pair, and a number beyond the range of a
double. A value without them is `sound`.
-/

namespace IdlBinder

namespace Json

/-- A number literal: an integer where it has neither fraction nor exponent and fits 64 bits. -/
inductive Number where
  | int (i : Int)
  | real (x : Binary64)
  | tooLarge
deriving DecidableEq

end Json

/-- A JSON value. A string or key is `none` when its escapes name no text. -/
inductive Json where
  | null
  | bool (b : Bool)
  | number (n : Json.Number)
  | string (s : Option String)
  | array (items : List Json)
  | object (members : List (Option String × Json))

namespace Json

/-- A string value. -/
def text (s : String) : Json := string (some s)

/-- An integer value. -/
def int (i : Int) : Json := number (.int i)

/-- An object with plain keys. -/
def record (members : List (String × Json)) : Json :=
  object (members.map fun m => (some m.1, m.2))

/-! ## Nesting and soundness -/

mutual

/-- How many arrays and objects are open at the deepest place of a value. -/
def nesting : Json → Nat
  | null | bool _ | number _ | string _ => 0
  | array items => nestingItems items + 1
  | object members => nestingMembers members + 1

/-- The deepest nesting among the items of an array. -/
def nestingItems : List Json → Nat
  | [] => 0
  | j :: rest => max j.nesting (nestingItems rest)

/-- The deepest nesting among the members of an object. -/
def nestingMembers : List (Option String × Json) → Nat
  | [] => 0
  | (_, j) :: rest => max j.nesting (nestingMembers rest)

end

mutual

/-- Whether all strings, keys and numbers of a value mean something. -/
def sound : Json → Bool
  | null | bool _ => true
  | number n => n != .tooLarge
  | string s => s.isSome
  | array items => soundItems items
  | object members => soundMembers members

/-- Whether all items of an array are sound. -/
def soundItems : List Json → Bool
  | [] => true
  | j :: rest => j.sound && soundItems rest

/-- Whether all members of an object are sound, their keys included. -/
def soundMembers : List (Option String × Json) → Bool
  | [] => true
  | (k, j) :: rest => k.isSome && j.sound && soundMembers rest

end

end Json

end IdlBinder

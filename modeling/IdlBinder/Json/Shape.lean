import IdlBinder.Json.Basic

set_option autoImplicit false

/-!
# Shapes of JSON values

Two shapes that data takes in JSON. A record is an object with known keys, or an array of its fields
in order with trailing ones left out. A choice is the name of an alternative, or an object with that
name as its only key and the alternative's data under it.
-/

namespace IdlBinder.Json

/-- The value under a key that occurs at most once; `some none` when it does not occur. -/
def single (key : String) (members : List (Option String × Json)) : Option (Option Json) :=
  match members.filter (·.1 == some key) with
  | [] => some none
  | [m] => some (some m.2)
  | _ => none

/-- The values of the known keys of a record, in the order of the keys. Other keys of an object are
passed over, however often they occur. -/
def slots (keys : List String) : Json → Option (List (Option Json))
  | array items =>
    if items.length ≤ keys.length then
      some (items.map some ++ List.replicate (keys.length - items.length) none)
    else none
  | object members =>
    if members.all (·.1.isSome) then keys.mapM fun k => single k members else none
  | _ => none

/-- The name of a choice, with its data if it has any. -/
def choice : Json → Option (String × Option Json)
  | string (some s) => some (s, none)
  | object [(some k, j)] => some (k, some j)
  | _ => none

/-- Whether a choice goes without data. For some readers an empty object is no data either. -/
def isBare (emptyToo : Bool) : Option Json → Bool
  | none | some null => true
  | some (object []) => emptyToo
  | _ => false

/-- A text. -/
def asText : Json → Option String
  | string s => s
  | _ => none

/-- A truth value. -/
def asBool : Json → Option Bool
  | bool b => some b
  | _ => none

/-- The items of an array. -/
def asItems : Json → Option (List Json)
  | array items => some items
  | _ => none

end IdlBinder.Json

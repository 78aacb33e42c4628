import IdlBinder.Json.Token

set_option autoImplicit false

/-!
# Reading JSON

Tokens are put together by a machine with a stack of open arrays and objects, so a text may nest as
deep as it likes; who looks at a value sets the limit.
-/

namespace IdlBinder.Json

/-- A container that waits for a value. Its contents so far are kept last first. -/
inductive Frame where
  | array (done : List Json)
  | object (done : List (Option String × Json)) (key : Option String)

/-- What may come next, with the open containers, innermost first. -/
inductive Reader where
  /-- A value. -/
  | value (stack : List Frame)
  /-- The first item of an array, or its end. -/
  | item (stack : List Frame)
  /-- A key of an object; `done` is empty just after the object has begun, and then it may end. -/
  | key (stack : List Frame) (done : List (Option String × Json))
  /-- The colon after a key. -/
  | colon (stack : List Frame) (done : List (Option String × Json)) (key : Option String)
  /-- What follows a finished value. -/
  | after (stack : List Frame) (j : Json)

namespace Reader

/-- Reads the first token of a value. -/
def beginValue (stack : List Frame) : Token → Option Reader
  | .null => some (after stack .null)
  | .bool b => some (after stack (.bool b))
  | .number n => some (after stack (.number n))
  | .string s => some (after stack (.string s))
  | .beginArray => some (item stack)
  | .beginObject => some (key stack [])
  | _ => none

/-- Reads one token. -/
def step : Reader → Token → Option Reader
  | value stack, t => beginValue stack t
  | item stack, .endArray => some (after stack (.array []))
  | item stack, t => beginValue (.array [] :: stack) t
  | key stack done, .string s => some (colon stack done s)
  | key stack [], .endObject => some (after stack (.object []))
  | colon stack done k, .colon => some (value (.object done k :: stack))
  | after (.array done :: stack) j, .comma => some (value (.array (j :: done) :: stack))
  | after (.array done :: stack) j, .endArray => some (after stack (.array (j :: done).reverse))
  | after (.object done k :: stack) j, .comma => some (key stack ((k, j) :: done))
  | after (.object done k :: stack) j, .endObject =>
    some (after stack (.object ((k, j) :: done).reverse))
  | _, _ => none

/-- The value read, when nothing is open. -/
def result? : Reader → Option Json
  | after [] j => some j
  | _ => none

end Reader

/-- The value that tokens spell. -/
def ofTokens? (tokens : List Token) : Option Json :=
  (tokens.foldlM Reader.step (Reader.value [])).bind Reader.result?

/-- The value that a text spells. -/
def parse? (s : String) : Option Json := (Token.scan? s).bind ofTokens?

end IdlBinder.Json

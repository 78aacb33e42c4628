import IdlBinder.Json.Basic
import IdlBinder.Decimal.Shortest

set_option autoImplicit false

/-!
# Writing JSON

A value on one line without blanks. In a string only the quote, the backslash and the control
characters are escaped.
-/

namespace IdlBinder.Json

/-- The hexadecimal digit of a number below sixteen. -/
def hexDigit (n : Nat) : Char := Nat.digitChar n

/-- A character inside a string. -/
def escapeChar (c : Char) : List Char :=
  if c = '"' then ['\\', '"']
  else if c = '\\' then ['\\', '\\']
  else if c.toNat < 0x20 then
    ['\\', 'u', '0', '0', hexDigit (c.toNat / 16), hexDigit (c.toNat % 16)]
  else [c]

/-- A string with its quotes. -/
def quoted (s : String) : List Char := '"' :: (s.toList.flatMap escapeChar ++ ['"'])

/-- A number. One beyond the doubles has no text and is written as null. -/
def numberChars : Number → List Char
  | .int i => (toString i).toList
  | .real x => (Decimal.text x).toList
  | .tooLarge => "null".toList

/-- A string or key; one that names no text is written as the empty one. -/
def stringChars (s : Option String) : List Char := quoted (s.getD "")

mutual

/-- The characters of a value. -/
def chars : Json → List Char
  | null => "null".toList
  | bool true => "true".toList
  | bool false => "false".toList
  | number n => numberChars n
  | string s => stringChars s
  | array items => '[' :: (itemChars items ++ [']'])
  | object members => '{' :: (memberChars members ++ ['}'])

/-- The items of an array with commas between them. -/
def itemChars : List Json → List Char
  | [] => []
  | [j] => j.chars
  | j :: k :: rest => j.chars ++ ',' :: itemChars (k :: rest)

/-- The members of an object with commas between them. -/
def memberChars : List (Option String × Json) → List Char
  | [] => []
  | [(k, j)] => stringChars k ++ ':' :: j.chars
  | (k, j) :: m :: rest => stringChars k ++ ':' :: (j.chars ++ ',' :: memberChars (m :: rest))

end

/-- The text of a value. -/
def render (j : Json) : String := String.ofList j.chars

end IdlBinder.Json

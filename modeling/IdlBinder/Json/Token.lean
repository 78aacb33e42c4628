import IdlBinder.Json.Numeral

set_option autoImplicit false

/-!
# JSON tokens

The scanner reads a text one character at a time. Its state is the list of finished tokens and what
it knows of the one it stands in, so scanning is a fold and a text may be cut anywhere.
-/

namespace IdlBinder.Json

/-- The tokens of a JSON text. -/
inductive Token where
  | beginArray
  | endArray
  | beginObject
  | endObject
  | colon
  | comma
  | null
  | bool (b : Bool)
  | number (n : Number)
  | string (s : Option String)

/-! ## Strings -/

/-- A piece of a string: a character, or a 16-bit unit given by a hexadecimal escape. -/
inductive Piece where
  | char (c : Char)
  | unit (n : Nat)

/-- The first half of a surrogate pair. -/
def isHighUnit (n : Nat) : Bool := 0xD800 ≤ n && n < 0xDC00

/-- The second half of a surrogate pair. -/
def isLowUnit (n : Nat) : Bool := 0xDC00 ≤ n && n < 0xE000

/-- The character of a surrogate pair. -/
def pairChar (high low : Nat) : Char :=
  Char.ofNat (0x10000 + (high - 0xD800) * 0x400 + (low - 0xDC00))

/-- The characters that pieces, last first, stand for in front of `tail`. Units that are halves of a
pair must come in pairs. -/
def assemble : List Piece → List Char → Option (List Char)
  | [], tail => some tail
  | .char c :: before, tail => assemble before (c :: tail)
  | .unit l :: .unit h :: before, tail =>
    if isLowUnit l then
      if isHighUnit h then assemble before (pairChar h l :: tail) else none
    else if isHighUnit l then none
    else assemble (.unit h :: before) (Char.ofNat l :: tail)
  | .unit n :: before, tail =>
    if isHighUnit n || isLowUnit n then none else assemble before (Char.ofNat n :: tail)

/-- The character a one-letter escape stands for. -/
def escaped? : Char → Option Char
  | '"' => some '"'
  | '\\' => some '\\'
  | '/' => some '/'
  | 'b' => some '\x08'
  | 'f' => some '\x0c'
  | 'n' => some '\n'
  | 'r' => some '\r'
  | 't' => some '\t'
  | _ => none

/-- The value of a hexadecimal digit. -/
def hexValue? (c : Char) : Option Nat :=
  if c.isDigit then some (c.toNat - '0'.toNat)
  else if 'a' ≤ c && c ≤ 'f' then some (c.toNat - 'a'.toNat + 10)
  else if 'A' ≤ c && c ≤ 'F' then some (c.toNat - 'A'.toNat + 10)
  else none

/-! ## The scanner -/

/-- What the scanner stands in; the contents so far are kept last first. -/
inductive Inside where
  | gap
  | word (letters : List Char)
  | numeral (chars : List Char)
  | string (pieces : List Piece)
  | escape (pieces : List Piece)
  | hex (pieces : List Piece) (left value : Nat)

/-- The finished tokens, last first, and the one being read. -/
structure Scanner where
  tokens : List Token
  inside : Inside

namespace Scanner

/-- The scanner at the start of a text. -/
def start : Scanner := ⟨[], .gap⟩

/-- Adds a finished token. -/
def push (s : Scanner) (t : Token) : Scanner := ⟨t :: s.tokens, .gap⟩

/-- The token a word stands for. -/
def wordToken? : List Char → Option Token
  | ['n', 'u', 'l', 'l'] => some .null
  | ['t', 'r', 'u', 'e'] => some (.bool true)
  | ['f', 'a', 'l', 's', 'e'] => some (.bool false)
  | _ => none

/-- The blanks between tokens. -/
def isGap (c : Char) : Bool := c == ' ' || c == '\n' || c == '\r' || c == '\t'

/-- The letters of words. -/
def isWordChar (c : Char) : Bool := c.isLower

/-- The characters of numbers. -/
def isNumeralChar (c : Char) : Bool :=
  c.isDigit || c == '-' || c == '+' || c == '.' || c == 'e' || c == 'E'

/-- Reads a character between two tokens. -/
def begin (s : Scanner) (c : Char) : Option Scanner :=
  if isGap c then some s
  else if isWordChar c then some { s with inside := .word [c] }
  else if c == '-' || c.isDigit then some { s with inside := .numeral [c] }
  else match c with
    | '[' => some (s.push .beginArray)
    | ']' => some (s.push .endArray)
    | '{' => some (s.push .beginObject)
    | '}' => some (s.push .endObject)
    | ':' => some (s.push .colon)
    | ',' => some (s.push .comma)
    | '"' => some { s with inside := .string [] }
    | _ => none

/-- Ends a word or number. Nothing else ends without a character of its own. -/
def close (s : Scanner) : Option Scanner :=
  match s.inside with
  | .gap => some s
  | .word letters => (wordToken? letters.reverse).map s.push
  | .numeral chars => (Numeral.read? chars.reverse).map fun n => s.push (.number n)
  | .string _ | .escape _ | .hex _ _ _ => none

/-- Reads one character. -/
def step (s : Scanner) (c : Char) : Option Scanner :=
  match s.inside with
  | .gap => s.begin c
  | .word letters =>
    if isWordChar c then some { s with inside := .word (c :: letters) }
    else s.close.bind (·.begin c)
  | .numeral chars =>
    if isNumeralChar c then some { s with inside := .numeral (c :: chars) }
    else s.close.bind (·.begin c)
  | .string pieces =>
    if c == '"' then some (s.push (.string ((assemble pieces []).map String.ofList)))
    else if c == '\\' then some { s with inside := .escape pieces }
    else if c.toNat < 0x20 then none
    else some { s with inside := .string (.char c :: pieces) }
  | .escape pieces =>
    if c == 'u' then some { s with inside := .hex pieces 3 0 }
    else (escaped? c).map fun d => { s with inside := .string (.char d :: pieces) }
  | .hex pieces left value =>
    (hexValue? c).map fun d =>
      match left with
      | 0 => { s with inside := .string (.unit (value * 16 + d) :: pieces) }
      | left + 1 => { s with inside := .hex pieces left (value * 16 + d) }

end Scanner

namespace Token

/-- The tokens of a text, unless it holds something else; then scanning stops there. -/
def scan? (s : String) : Option (List Token) :=
  (s.chars.foldM Scanner.step Scanner.start).bind fun scanner =>
    scanner.close.map (·.tokens.reverse)

/-- Scanning is a fold over the characters. -/
theorem scan?_eq (s : String) :
    scan? s = (s.toList.foldlM Scanner.step Scanner.start).bind fun scanner =>
      scanner.close.map (·.tokens.reverse) := by
  rw [scan?, ← String.toList_chars, Std.Iter.foldlM_toList]

end Token

end IdlBinder.Json

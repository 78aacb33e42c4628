import IdlBinder.Text.Property

set_option autoImplicit false

/-!
# Words of a name

A name such as `foo_bar`, `fooBar` or `HTTPServer` is a sequence of words. Separators stand between
words and belong to none; inside a run without separators a word also ends where the case of the
letters says so.
-/

namespace IdlBinder.Name

open IdlBinder.Text

/-- The characters between words: underscore, hyphen and white space. -/
def isSeparator (c : Char) : Bool := c == '_' || c == '-' || isBlank c

/-- Whether a word ends between the neighbours `a` and `b`, with `next` after them: before a capital
that follows a small letter or a digit, and before the last capital of a run (`HTTP|Server`). -/
def breaksBetween (a b : Char) (next : Option Char) : Bool :=
  isUppercase b && (isLowercase a || a.isDigit || (isUppercase a && next.any isLowercase))

/-- Whether the word that holds `c` ends with it, when `rest` follows. -/
def endsBefore (c : Char) : List Char → Bool
  | [] => true
  | d :: rest => isSeparator d || breaksBetween c d rest.head?

/-- Puts a character in front of the first word. -/
def consHead (c : Char) : List (List Char) → List (List Char)
  | [] => [[c]]
  | w :: ws => (c :: w) :: ws

/-- The words of a sequence of characters, in order. -/
def words : List Char → List (List Char)
  | [] => []
  | c :: rest =>
    if isSeparator c then words rest
    else if endsBefore c rest then [c] :: words rest
    else consHead c (words rest)

/-- The words of a name. -/
def splitWords (name : String) : List String := (words name.toList).map String.ofList

end IdlBinder.Name

import IdlBinder.Idl.Document

set_option autoImplicit false

/-!
# Code

Program text as a tree: lines, blocks, namespaces and comments. Writing the tree on a page puts the
indentation in front of each line, so a part of a program may stand at any depth.
-/

namespace IdlBinder

/-- A piece of program text. -/
inductive Code where
  /-- A line at the current depth. -/
  | line (text : String)
  /-- An empty line without indentation. -/
  | blank
  /-- The indentation of the current depth alone. -/
  | margin
  /-- One level deeper from here on. -/
  | indent
  /-- One level less deep from here on, unless there is none. -/
  | dedent
  /-- A head with its body in braces. -/
  | block (head : String) (body : List Code)
  /-- A head with its body in braces and a semicolon. -/
  | typeBlock (head : String) (body : List Code)
  /-- A namespace, whose body is not indented; the empty name adds nothing to the body. -/
  | inNamespace (name : String) (body : List Code)
  /-- Include lines. -/
  | includes (targets : List String)
  /-- A comment. -/
  | doc (lines : Doc)

/-- What has been written, and the depth reached. -/
structure Page where
  text : String := ""
  level : Nat := 0

namespace Page

/-- One level of indentation. -/
def indentUnit : String := "    "

/-- Adds text as it is. -/
def put (p : Page) (s : String) : Page := { p with text := p.text ++ s }

/-- Adds the indentation of a depth. -/
def putMargin (p : Page) : Nat → Page
  | 0 => p
  | n + 1 => (p.put indentUnit).putMargin n

/-- Adds a line. -/
def line (p : Page) (s : String) : Page := ((p.putMargin p.level).put s).put "\n"

/-- Adds lines. -/
def lines (p : Page) (l : List String) : Page := l.foldl line p

/-- Adds an empty line. -/
def blank (p : Page) : Page := p.put "\n"

/-- Goes one level deeper. -/
def indent (p : Page) : Page := { p with level := p.level + 1 }

/-- Goes one level up. -/
def dedent (p : Page) : Page := { p with level := p.level - 1 }

end Page

namespace Doc

/-- Characters in which no comment ends: a slash after a star is kept apart from it. -/
def guardEnd : List Char → List Char
  | '*' :: '/' :: rest => '*' :: '\\' :: '/' :: guardEnd rest
  | c :: rest => c :: guardEnd rest
  | [] => []

/-- A text that does not end the comment it stands in. -/
def guarded (s : String) : String := String.ofList (guardEnd s.toList)

/-- A line of a comment of several lines. -/
def innerLine (s : String) : String :=
  let t := Text.trimEnd s
  if t.isEmpty then " *" else " * " ++ guarded t

/-- The lines of a comment in C++; a blank one has none. -/
def commentLines (doc : Doc) : List String :=
  if doc.isBlank then []
  else match doc with
    | [single] => ["/** " ++ guarded (Text.trim single) ++ " */"]
    | several => "/**" :: (several.map innerLine ++ [" */"])

end Doc

namespace Code

mutual

/-- Writes a piece of program text. -/
def write : Code → Page → Page
  | line text, p => p.line text
  | blank, p => p.blank
  | margin, p => p.putMargin p.level
  | indent, p => p.indent
  | dedent, p => p.dedent
  | block head body, p => (writeAll body (p.line (head ++ " \x7b")).indent).dedent.line "\x7d"
  | typeBlock head body, p => (writeAll body (p.line (head ++ " \x7b")).indent).dedent.line "\x7d;"
  | inNamespace name body, p =>
    if name.isEmpty then writeAll body p
    else
      (writeAll body (p.line ("namespace " ++ name ++ " \x7b")).blank).blank.line
        ("\x7d  // namespace " ++ name)
  | includes targets, p => p.lines (targets.map ("#include " ++ ·))
  | doc lines, p => p.lines (Doc.commentLines lines)

/-- Writes pieces of program text one after the other. -/
def writeAll : List Code → Page → Page
  | [], p => p
  | c :: rest, p => writeAll rest (c.write p)

end

/-- The text of pieces of program text on a page of their own. -/
def textOf (code : List Code) : String := (writeAll code {}).text

/-- Groups with an empty line between each two. -/
def separated : List (List Code) → List Code
  | [] => []
  | [c] => c
  | c :: d :: rest => c ++ blank :: separated (d :: rest)

end Code

end IdlBinder

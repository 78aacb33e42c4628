set_option autoImplicit false

/-!
# Paths

A path keeps the text it was given. Its components are what counts when paths are compared: slashes
may be repeated, and a dot counts only in front. `join` and `parent?` work on the text, so messages
show paths the way they were put together.
-/

namespace IdlBinder

/-- A path, by its text. -/
structure Path where
  text : String
deriving DecidableEq

namespace Path

/-- A component of a path. -/
inductive Component where
  | root
  | here
  | up
  | name (s : String)
deriving DecidableEq

/-- The pieces of a text between slashes; there is at least one. -/
def pieces : List Char → List (List Char)
  | [] => [[]]
  | c :: rest =>
    if c = '/' then [] :: pieces rest
    else match pieces rest with
      | [] => [[c]]
      | p :: ps => (c :: p) :: ps

/-- Pieces joined by slashes. -/
def unpieces (ps : List (List Char)) : Path := ⟨String.ofList (['/'].intercalate ps)⟩

/-- Whether a piece after the first one does not count. -/
def isSilent (p : List Char) : Bool := p == [] || p == ['.']

/-- Whether a path starts at the root. -/
def isRooted (p : Path) : Bool := p.text.toList.head? == some '/'

/-- The component of a piece that counts. -/
def component (p : List Char) : Component :=
  if p = ['.'] then .here else if p = ['.', '.'] then .up else .name (String.ofList p)

/-- The components of a path. -/
def components (p : Path) : List Component :=
  match pieces p.text.toList with
  | [] => []
  | first :: rest =>
    let start : List Component :=
      if p.isRooted then [.root] else if first = [] then [] else [component first]
    start ++ (rest.filter (!isSilent ·)).map component

/-- Whether a path goes up somewhere. -/
def goesUp (p : Path) : Bool := p.components.contains .up

/-- A path below another one. A path from the root replaces it. -/
def join (p q : Path) : Path :=
  if q.isRooted then q
  else if p.text.toList.getLast?.all (· == '/') then ⟨p.text ++ q.text⟩
  else ⟨p.text ++ "/" ++ q.text⟩

/-- Pieces without the silent ones at their end. -/
def dropSilentEnd (ps : List (List Char)) : List (List Char) :=
  (ps.reverse.dropWhile isSilent).reverse

/-- A path without its last component. The root and the empty path have none. -/
def parent? (p : Path) : Option Path :=
  match pieces p.text.toList with
  | [] => none
  | first :: rest =>
    match dropSilentEnd rest with
    | [] => if first = [] then none else some ⟨""⟩
    | ps =>
      match dropSilentEnd ps.dropLast with
      | [] => some (if first = [] then ⟨"/"⟩ else unpieces [first])
      | qs => some (unpieces (first :: qs))

end Path

end IdlBinder

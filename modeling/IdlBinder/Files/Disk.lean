import IdlBinder.Files.Storage

set_option autoImplicit false

/-!
# A disk

A file system as a value: what is at each place. A path is followed piece by piece from the root or
from the current directory, and every piece but the last must name a directory that is there.
-/

namespace IdlBinder

/-- A place on a disk: the names from the root down. -/
abbrev Location := List String

/-- What is at a place. -/
inductive Node where
  | dir
  | file (bytes : ByteArray)

/-- A disk. What is listed first at a place is there, and the root is always a directory. -/
structure Disk where
  nodes : List (Location × Node) := []
  /-- Where paths start that do not start at the root. -/
  current : Location := []

namespace Disk

variable (d : Disk)

/-! ## Places -/

/-- What is at a place. -/
def get? (place : Location) : Option Node :=
  if place = [] then some .dir else d.nodes.lookup place

/-- Puts something at a place. -/
def set (place : Location) (node : Node) : Disk := { d with nodes := (place, node) :: d.nodes }

@[simp] theorem get?_set_self {place : Location} (h : place ≠ []) (node : Node) :
    (d.set place node).get? place = some node := by
  simp [get?, set, h]

@[simp] theorem get?_set_of_ne {place other : Location} (h : other ≠ place) (node : Node) :
    (d.set place node).get? other = d.get? other := by
  have hne : (other == place) = false := by simpa using h
  simp [get?, set, List.lookup_cons, hne]

/-! ## Following a path -/

/-- The number of bytes a name may have. -/
def nameLimit : Nat := 255

/-- The number of bytes that no path may reach. -/
def pathLimit : Nat := 4096

/-- The place that a name stands for in a directory. -/
def below (place : Location) (piece : List Char) : Except Fault Location :=
  let name := String.ofList piece
  if nameLimit < name.utf8ByteSize then .error .nameTooLong else .ok (place ++ [name])

/-- Follows a piece of a path out of a place, which must be a directory. -/
def step (place : Location) (piece : List Char) : Except Fault Location :=
  match d.get? place with
  | none => .error .missing
  | some (.file _) => .error .notDirectory
  | some .dir =>
    if Path.isSilent piece then .ok place
    else if piece = ['.', '.'] then .ok place.dropLast
    else below place piece

/-- Refuses paths that no system takes. -/
def vet (p : Path) : Except Fault Unit :=
  if p.text.toList.contains '\x00' then .error .nulInName
  else if p.text = "" then .error .missing
  else if pathLimit ≤ p.text.utf8ByteSize then .error .nameTooLong
  else .ok ()

/-- Where a path starts. -/
def start (p : Path) : Location := if p.isRooted then [] else d.current

/-- The place that a path leads to; nothing need be there. -/
def resolve (p : Path) : Except Fault Location := do
  vet p
  (Path.pieces p.text.toList).foldlM d.step (d.start p)

/-- What a path leads to. -/
def node (p : Path) : Except Fault Node := do
  match d.get? (← d.resolve p) with
  | none => .error .missing
  | some n => .ok n

/-- What the last piece of a path says about the directory it is looked up in. -/
inductive Target where
  /-- A name in the directory, which a slash may follow. -/
  | name (dir : Location) (piece : List Char) (slash : Bool)
  /-- The root, a dot or two dots. -/
  | dots

/-- The last piece of a path, with the directory it is looked up in. -/
def target (p : Path) : Except Fault Target := do
  vet p
  let last := (Path.pieces p.text.toList).reverse
  match last.dropWhile (· == []) with
  | [] => return .dots
  | piece :: before =>
    let dir ← before.reverse.foldlM d.step (d.start p)
    match d.get? dir with
    | none => .error .missing
    | some (.file _) => .error .notDirectory
    | some .dir =>
      if piece = ['.'] || piece = ['.', '.'] then return .dots
      else return .name dir piece (last.head? == some [])

/-! ## Operations -/

/-- The number of bytes of what is at a path; directories count as empty. -/
def size (p : Path) : Except Fault Nat := do
  match ← d.node p with
  | .dir => return 0
  | .file bytes => return bytes.size

/-- The bytes of the file at a path. -/
def read (p : Path) : Except Fault ByteArray := do
  match ← d.node p with
  | .dir => .error .isDirectory
  | .file bytes => return bytes

/-- Whether a directory is at a path. -/
def isDir (p : Path) : Bool :=
  match d.node p with
  | .ok .dir => true
  | _ => false

/-- Makes a directory at a path. -/
def makeDir (p : Path) : Except Fault Disk := do
  match ← d.target p with
  | .dots => .error .alreadyThere
  | .name dir piece _ =>
    let place ← below dir piece
    match d.get? place with
    | some _ => .error .alreadyThere
    | none => return d.set place .dir

/-- Gives the file at a path the bytes. -/
def write (p : Path) (bytes : ByteArray) : Except Fault Disk := do
  match ← d.target p with
  | .dots | .name _ _ true => .error .isDirectory
  | .name dir piece false =>
    let place ← below dir piece
    match d.get? place with
    | some .dir => .error .isDirectory
    | _ => return d.set place (.file bytes)

/-- Keeps the new disk of an operation that succeeds. -/
def commit (result : Except Fault Disk) : StateM Disk (Except Fault Unit) := fun d =>
  match result with
  | .ok new => (.ok (), new)
  | .error fault => (.error fault, d)

instance : Storage (StateM Disk) where
  size p := fun d => (d.size p, d)
  read p := fun d => (d.read p, d)
  isDir p := fun d => (d.isDir p, d)
  makeDir p := fun d => commit (d.makeDir p) d
  write p bytes := fun d => commit (d.write p bytes) d

end Disk

end IdlBinder

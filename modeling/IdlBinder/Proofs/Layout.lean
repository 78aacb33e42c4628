import IdlBinder.Cpp.SourceFile

set_option autoImplicit false

/-!
# Reading a layout

The blocks of a file, read off the layout that its text is written from: each block with its head
and the lines directly in its body. Only the items of a file bring blocks with them,
`blocksAll_code`. The outline of a file is what stands directly in its namespace, in order:
`outline_code`.
-/

namespace IdlBinder

namespace Code

/-- The text of a piece that is a line. -/
def line? : Code → Option String
  | line text => some text
  | _ => none

/-- The lines that stand directly among pieces of program text, without their indentation. -/
def ownLines (l : List Code) : List String := l.filterMap line?

mutual

/-- The outermost blocks in a piece of program text, by head and lines. -/
def blocks : Code → List (String × List String)
  | block head body | typeBlock head body => [(head, ownLines body)]
  | inNamespace _ body => blocksAll body
  | line _ | blank | margin | indent | dedent | includes _ | doc _ => []

/-- The outermost blocks in pieces of program text. -/
def blocksAll : List Code → List (String × List String)
  | [] => []
  | c :: rest => c.blocks ++ blocksAll rest

end

/-! ## Lines -/

@[simp] theorem ownLines_nil : ownLines [] = [] := rfl

@[simp] theorem ownLines_append (l m : List Code) :
    ownLines (l ++ m) = ownLines l ++ ownLines m :=
  List.filterMap_append

@[simp] theorem ownLines_cons_line (text : String) (l : List Code) :
    ownLines (line text :: l) = text :: ownLines l := rfl

theorem ownLines_cons_of_line?_eq_none {c : Code} (h : c.line? = none) (l : List Code) :
    ownLines (c :: l) = ownLines l :=
  List.filterMap_cons_none h

@[simp] theorem ownLines_map_line (l : List String) : ownLines (l.map line) = l := by
  induction l with
  | nil => rfl
  | cons text l ih => rw [List.map_cons, ownLines_cons_line, ih]

/-- Pieces that each hold one line of their own. -/
theorem ownLines_flatMap_eq_map {α : Type} {f : α → List Code} {text : α → String}
    (h : ∀ a, ownLines (f a) = [text a]) (l : List α) :
    ownLines (l.flatMap f) = l.map text := by
  induction l with
  | nil => rfl
  | cons a l ih =>
      rw [List.flatMap_cons, ownLines_append, h, ih, List.map_cons, List.singleton_append]

/-- The blank lines between groups are no lines of their own. -/
theorem ownLines_separated (groups : List (List Code)) :
    ownLines (separated groups) = groups.flatMap ownLines := by
  induction groups using separated.induct with
  | case1 => rfl
  | case2 c => simp [separated]
  | case3 c d rest ih =>
      rw [separated, ownLines_append, ownLines_cons_of_line?_eq_none rfl, ih]
      exact List.flatMap_cons.symm

/-- A group without pieces has no lines, so it may be left out. -/
theorem flatMap_ownLines_filter (groups : List (List Code)) :
    (groups.filter (!·.isEmpty)).flatMap ownLines = groups.flatMap ownLines := by
  induction groups with
  | nil => rfl
  | cons g groups ih =>
      cases g with
      | nil => simpa using ih
      | cons c g => simp [ih]

/-! ## Blocks -/

theorem blocksAll_eq_flatMap (l : List Code) : blocksAll l = l.flatMap blocks := by
  induction l with
  | nil => rfl
  | cons c l ih => rw [blocksAll, ih, List.flatMap_cons]

@[simp] theorem blocksAll_append (l m : List Code) :
    blocksAll (l ++ m) = blocksAll l ++ blocksAll m := by
  simp [blocksAll_eq_flatMap]

@[simp] theorem blocksAll_map_line (l : List String) : blocksAll (l.map line) = [] := by
  simp [blocksAll_eq_flatMap, blocks]

theorem blocksAll_separated (groups : List (List Code)) :
    blocksAll (separated groups) = groups.flatMap blocksAll := by
  induction groups using separated.induct with
  | case1 => rfl
  | case2 c => simp [separated]
  | case3 c d rest ih => simp [separated, blocksAll, blocks, ih]

/-! ## Outlines -/

/-- What stands directly in a namespace: a line, or a block that opens with its head. -/
inductive Entry where
  | line (text : String)
  | opening (head : String)
deriving DecidableEq

/-- The entry that a piece of program text makes. -/
def entry? : Code → Option Entry
  | line text => some (.line text)
  | block head _ | typeBlock head _ => some (.opening head)
  | _ => none

/-- The entries of pieces of program text, in order. -/
def entries (l : List Code) : List Entry := l.filterMap entry?

/-- The entries of a piece that is a namespace of this name. -/
def entriesIn (scope : String) : Code → List Entry
  | inNamespace name body => if name = scope then entries body else []
  | _ => []

/-- The entries of the namespaces of one name among pieces of program text. -/
def outline (scope : String) (l : List Code) : List Entry := l.flatMap (entriesIn scope)

@[simp] theorem entries_append (l m : List Code) : entries (l ++ m) = entries l ++ entries m :=
  List.filterMap_append

@[simp] theorem entries_map_line (l : List String) : entries (l.map line) = l.map .line := by
  induction l with
  | nil => rfl
  | cons text l ih =>
      rw [List.map_cons, List.map_cons, ← ih]
      rfl

theorem entries_separated (groups : List (List Code)) :
    entries (separated groups) = groups.flatMap entries := by
  induction groups using separated.induct with
  | case1 => rfl
  | case2 c => simp [separated]
  | case3 c d rest ih =>
      rw [separated, entries_append, List.flatMap_cons, ← ih]
      rfl

theorem outline_append (scope : String) (l m : List Code) :
    outline scope (l ++ m) = outline scope l ++ outline scope m :=
  List.flatMap_append

end Code

open Code

/-- The outline of a file that defines no hash: its forward declarations, then its items. -/
theorem Cpp.SourceFile.outline_code {f : Cpp.SourceFile} (hhash : f.hashed = none) :
    outline f.scope f.code =
      if f.items.isEmpty then []
      else f.forwards.map .line ++ f.items.flatMap fun i => entries i.code := by
  have hpreamble : outline f.scope f.preamble = [] := by
    cases hown : f.ownHeader <;> simp [preamble, hown, outline, entriesIn]
  have hincludes : outline f.scope f.includeCode = [] := by
    rw [includeCode]
    split <;> rfl
  have hforwards : entries f.forwardCode = f.forwards.map .line := by
    rw [forwardCode]
    split
    case isTrue hempty =>
      rw [List.isEmpty_iff.mp hempty]
      rfl
    case isFalse =>
      rw [entries_append, entries_map_line]
      exact List.append_nil _
  have hbody : outline f.scope f.body = outline f.scope f.itemCode := by
    rw [body, outline_append, outline_append, hincludes, List.nil_append, hashCode, hhash]
    exact List.append_nil _
  have hcode : outline f.scope f.code = outline f.scope f.itemCode := by
    rw [code, outline_append, hpreamble, List.nil_append, ← hbody]
    split
    case isTrue hempty => rw [List.isEmpty_iff.mp hempty]
    case isFalse => rfl
  rw [hcode, itemCode]
  split
  · rfl
  · simp only [outline, List.flatMap_cons, List.flatMap_nil, entriesIn, if_true, entries_append,
      hforwards, entries_separated, List.flatMap_map, List.append_nil]

/-- The blocks of a file are those of its items, and the hash after them. -/
theorem Cpp.SourceFile.blocksAll_code (f : Cpp.SourceFile) :
    blocksAll f.code = (f.items.flatMap fun i => blocksAll i.code) ++ blocksAll f.hashCode := by
  have hpreamble : blocksAll f.preamble = [] := by
    cases hown : f.ownHeader <;> simp [preamble, hown, blocksAll, blocks]
  have hincludes : blocksAll f.includeCode = [] := by
    rw [includeCode]
    split <;> rfl
  have hforwards : blocksAll f.forwardCode = [] := by
    rw [forwardCode]
    split <;> simp [blocksAll, blocks]
  have hitems : blocksAll f.itemCode = f.items.flatMap fun i => blocksAll i.code := by
    rw [itemCode]
    split
    case isTrue hempty =>
      rw [List.isEmpty_iff.mp hempty]
      rfl
    case isFalse =>
      simp only [blocksAll, blocks, blocksAll_append, hforwards, blocksAll_separated,
        List.flatMap_map, List.nil_append, List.append_nil]
  have hbody : blocksAll f.body =
      (f.items.flatMap fun i => blocksAll i.code) ++ blocksAll f.hashCode := by
    rw [body, blocksAll_append, blocksAll_append, hincludes, hitems, List.nil_append]
  rw [code, blocksAll_append, hpreamble, List.nil_append, ← hbody]
  split
  case isTrue hempty => rw [List.isEmpty_iff.mp hempty]
  case isFalse => simp [blocksAll, blocks]

/-- The blocks of an item are blocks of its file. -/
theorem Cpp.SourceFile.mem_blocksAll_of_mem {f : Cpp.SourceFile} {i : Cpp.Item}
    {b : String × List String} (hi : i ∈ f.items) (hb : b ∈ blocksAll i.code) :
    b ∈ blocksAll f.code := by
  rw [blocksAll_code]
  exact List.mem_append_left _ (List.mem_flatMap.mpr ⟨i, hi, hb⟩)

/-- The entries of an item stand in the namespace of its file. -/
theorem Cpp.SourceFile.mem_outline_of_mem {f : Cpp.SourceFile} {i : Cpp.Item} {x : Entry}
    (hi : i ∈ f.items) (hx : x ∈ entries i.code) : x ∈ outline f.scope f.code := by
  have hitems : f.items.isEmpty = false := by
    cases h : f.items with
    | nil => simp [h] at hi
    | cons => rfl
  have hcode : f.itemCode =
      [.inNamespace f.scope (f.forwardCode ++ separated (f.items.map Item.code))] := by
    rw [itemCode, hitems]
    rfl
  have hmem : .inNamespace f.scope (f.forwardCode ++ separated (f.items.map Item.code)) ∈
      f.code := by
    rw [code, body, hcode]
    simp
  refine List.mem_flatMap.mpr ⟨_, hmem, ?_⟩
  rw [entriesIn, if_pos rfl, entries_append, entries_separated, List.flatMap_map]
  exact List.mem_append_right _ (List.mem_flatMap.mpr ⟨i, hi, hx⟩)

end IdlBinder

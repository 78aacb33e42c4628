import IdlBinder.Marshal.Native

set_option autoImplicit false

/-!
# What a node needs on the native side

Naming a node of a type expression needs the headers of the standard names that the node brings in
and, if it names a declaration, the header of that declaration or a declaration in advance.
`mem_needs_iff` says which, for both kinds of files and any owner.
-/

namespace IdlBinder

/-! ## Standard names -/

namespace Native

/-- The standard names that types are spelled with, each with its header. The types `bool`, `float`
and `double` need none. -/
def standardHeaders : List (String × String) :=
  [("int8_t", "<cstdint>"), ("int16_t", "<cstdint>"), ("int32_t", "<cstdint>"),
    ("int64_t", "<cstdint>"), ("uint8_t", "<cstdint>"), ("std::string", "<string>"),
    ("std::vector", "<vector>"), ("std::chrono::system_clock::time_point", "<chrono>"),
    ("std::optional", "<optional>"), ("std::unordered_set", "<unordered_set>"),
    ("std::unordered_map", "<unordered_map>"), ("std::shared_ptr", "<memory>")]

/-- The standard names that a node itself brings in. -/
def nodeNames (n : TypeExpr) : List String :=
  match n.head with
  | .primitive p => (primName p).names
  | .optional => if collapses n.args then [] else ["std::optional"]
  | .list => ["std::vector"]
  | .set => ["std::unordered_set"]
  | .map => ["std::unordered_map"]
  | .param _ => []
  | .declared d => if d.kind = .interface then ["std::shared_ptr"] else []

end Native

/-! ## Declarations -/

/-- A file has to include the header of a declaration that its types name. -/
def DefRef.IsIncluded (d : DefRef) (role : FileRole) (owner : Option String) : Prop :=
  match d.kind with
  | .enum => True
  | .record => owner ≠ some d.name
  | .interface => role = .source ∧ owner ≠ some d.name

/-- A file declares in advance a declaration that its types name. -/
def DefRef.IsForwarded (d : DefRef) (role : FileRole) (owner : Option String) : Prop :=
  match d.kind with
  | .enum => False
  | .record => role = .header ∧ owner = some d.name
  | .interface => role = .header ∧ owner ≠ some d.name

namespace Native

variable {s : Settings} {n : TypeExpr} {role : FileRole} {owner : Option String}

/-- A node needs the headers of the standard names that it brings in and, if it is a declaration,
the declaration itself: its header or a forward declaration. -/
theorem mem_needs_iff {x : Need} :
    x ∈ needs s n role owner ↔
      (∃ name ∈ nodeNames n, ∃ header, (name, header) ∈ standardHeaders ∧ x = .inclusion header) ∨
      (∃ d, n.head = .declared d ∧ d.IsIncluded role owner ∧
        x = .inclusion (s.includeTarget (s.fileStem d.name))) ∨
      ∃ d, n.head = .declared d ∧ d.IsForwarded role owner ∧
        x = .forward (forwardDecl s d n.args.length) := by
  obtain ⟨head, args⟩ := n
  cases head with
  | primitive p =>
      cases p <;> simp [needs, primNeeds, nodeNames, primName, TypeExpr.head, TypeName.names,
        TypeName.namesAll, standardHeaders]
  | optional =>
      by_cases hcollapses : collapses args = true
      · simp [needs, nodeNames, TypeExpr.head, TypeExpr.args, hcollapses]
      · simp [needs, nodeNames, TypeExpr.head, TypeExpr.args, hcollapses, standardHeaders]
  | list | set | map => simp [needs, nodeNames, TypeExpr.head, standardHeaders]
  | param p => simp [needs, nodeNames, TypeExpr.head]
  | declared d =>
      -- A struct is declared in advance without regard to a number of arguments.
      have hstruct : d.kind = .record → forwardDecl s d 0 = forwardDecl s d args.length := by
        intro hkind
        simp [forwardDecl, hkind]
      by_cases howner : owner = some d.name
      · cases hkind : d.kind <;> cases role <;>
          simp [needs, declNeeds, nodeNames, TypeExpr.head, TypeExpr.args, standardHeaders,
            DefRef.IsIncluded, DefRef.IsForwarded, hkind, howner, hstruct]
      · cases hkind : d.kind <;> cases role <;>
          simp [needs, declNeeds, nodeNames, TypeExpr.head, TypeExpr.args, standardHeaders,
            DefRef.IsIncluded, DefRef.IsForwarded, hkind, howner]

end Native

end IdlBinder

import IdlBinder.Marshal.References

set_option autoImplicit false

/-!
# What references hold

References are two sets of texts; taken together they are one set of needs. Each way to put
references together is described by the needs that the result holds, so that collecting comes down
to the nodes of the types: `mem_collectAll`.
-/

namespace IdlBinder

@[simp] theorem FileRole.keeps_inclusion (role : FileRole) (target : String) :
    role.keeps (.inclusion target) = true := by
  cases role <;> rfl

@[simp] theorem FileRole.keeps_forward (role : FileRole) (declaration : String) :
    role.keeps (.forward declaration) = true ↔ role = .header := by
  cases role <;> simp [keeps]

namespace References

/-- A need is held among the include targets or among the forward declarations. -/
def Holds (r : References) : Need → Prop
  | .inclusion target => target ∈ r.includes
  | .forward declaration => declaration ∈ r.forwards

instance : Membership Need References := ⟨Holds⟩

theorem inclusion_mem {r : References} {target : String} :
    Need.inclusion target ∈ r ↔ target ∈ r.includes := Iff.rfl

theorem forward_mem {r : References} {declaration : String} :
    Need.forward declaration ∈ r ↔ declaration ∈ r.forwards := Iff.rfl

@[simp] theorem notMem_empty (x : Need) : x ∉ empty := by
  cases x <;> exact List.not_mem_nil

-- A need of one kind leaves the set of the other kind as it is.

@[simp] theorem mem_addInclude {r : References} {x : Need} {target : String} :
    x ∈ r.addInclude target ↔ x = .inclusion target ∨ x ∈ r := by
  cases x with
  | inclusion t => simp [inclusion_mem, addInclude]
  | forward d => simp [forward_mem, addInclude]

@[simp] theorem mem_addForward {r : References} {x : Need} {declaration : String} :
    x ∈ r.addForward declaration ↔ x = .forward declaration ∨ x ∈ r := by
  cases x with
  | inclusion t => simp [inclusion_mem, addForward]
  | forward d => simp [forward_mem, addForward]

theorem mem_add {r : References} {x y : Need} : x ∈ r.add y ↔ x = y ∨ x ∈ r := by
  cases y with
  | inclusion target => exact mem_addInclude
  | forward declaration => exact mem_addForward

@[simp] theorem mem_addAll {r : References} {x : Need} {needs : List Need} :
    x ∈ r.addAll needs ↔ x ∈ needs ∨ x ∈ r := by
  induction needs generalizing r with
  | nil => simp [addAll]
  | cons y needs ih =>
      show x ∈ (r.add y).addAll needs ↔ _
      rw [ih, mem_add, List.mem_cons]
      exact or_left_comm.trans or_assoc.symm

@[simp] theorem mem_merge {r t : References} {x : Need} : x ∈ r.merge t ↔ x ∈ r ∨ x ∈ t := by
  cases x <;> exact TextSet.mem_union.trans or_comm

variable {needs : NeedsOf} {role : FileRole} {owner : Option String} {x : Need}

theorem mem_collect {t : TypeExpr} :
    x ∈ collect needs role owner t ↔
      role.keeps x = true ∧ ∃ n ∈ t.nodes, x ∈ needs n role owner := by
  simp [collect, and_comm]

theorem mem_foldl_merge {types : List TypeExpr} {r : References} :
    x ∈ types.foldl (fun r t => r.merge (collect needs role owner t)) r ↔
      x ∈ r ∨ ∃ t ∈ types, x ∈ collect needs role owner t := by
  induction types generalizing r with
  | nil => simp
  | cons t types ih => simp [ih, or_assoc]

/-- The references of types hold what the nodes of the types need, as far as the file keeps it. -/
theorem mem_collectAll {types : List TypeExpr} :
    x ∈ collectAll needs role owner types ↔
      role.keeps x = true ∧ ∃ t ∈ types, ∃ n ∈ t.nodes, x ∈ needs n role owner := by
  rw [collectAll, mem_foldl_merge]
  simp only [notMem_empty, false_or, mem_collect]
  constructor
  · rintro ⟨t, ht, hkeeps, hneed⟩
    exact ⟨hkeeps, t, ht, hneed⟩
  · rintro ⟨hkeeps, t, ht, hneed⟩
    exact ⟨t, ht, hkeeps, hneed⟩

end References

end IdlBinder

set_option autoImplicit false

/-!
# Sets of texts

A set of texts is the list of its members in increasing order, without repeats. The order is by
characters, which is the order of the UTF-8 bytes. Sets with the same members are equal.
-/

namespace IdlBinder

/-- A set of texts, in increasing order. -/
structure TextSet where
  toList : List String
  increasing : toList.Pairwise (· < ·)

namespace TextSet

/-- Puts a text at its place in an increasing list. -/
def insertInto (t : String) : List String → List String
  | [] => [t]
  | u :: rest =>
    if t < u then t :: u :: rest
    else if t = u then u :: rest
    else u :: insertInto t rest

theorem lt_of_not_lt_of_ne {t u : String} (h : ¬ t < u) (hne : t ≠ u) : u < t := by
  rcases Std.lt_trichotomy t u with hlt | heq | hgt
  · exact absurd hlt h
  · exact absurd heq hne
  · exact hgt

@[simp] theorem mem_insertInto {t x : String} {l : List String} :
    x ∈ insertInto t l ↔ x = t ∨ x ∈ l := by
  induction l with
  | nil => simp [insertInto]
  | cons u rest ih =>
    rw [insertInto]
    split
    · simp
    · split
      next h => subst h; simp
      next => simp [ih, or_left_comm]

theorem pairwise_insertInto {t : String} {l : List String} (h : l.Pairwise (· < ·)) :
    (insertInto t l).Pairwise (· < ·) := by
  induction l with
  | nil => simp [insertInto]
  | cons u rest ih =>
    rw [List.pairwise_cons] at h
    rw [insertInto]
    split
    next hlt =>
      refine List.pairwise_cons.2 ⟨?_, List.pairwise_cons.2 h⟩
      intro x hx
      rcases List.mem_cons.1 hx with rfl | hx
      · exact hlt
      · exact String.lt_trans hlt (h.1 x hx)
    next hlt =>
      split
      · exact List.pairwise_cons.2 h
      next hne =>
        refine List.pairwise_cons.2 ⟨?_, ih h.2⟩
        intro x hx
        rcases mem_insertInto.1 hx with rfl | hx
        · exact lt_of_not_lt_of_ne hlt hne
        · exact h.1 x hx

instance : Membership String TextSet := ⟨fun s t => t ∈ s.toList⟩

/-- The set without members. -/
def empty : TextSet := ⟨[], List.Pairwise.nil⟩

/-- A set with one more member. -/
def insert (s : TextSet) (t : String) : TextSet :=
  ⟨insertInto t s.toList, pairwise_insertInto s.increasing⟩

/-- A set with more members. -/
def insertAll (s : TextSet) (l : List String) : TextSet := l.foldl insert s

/-- The members of either set. -/
def union (s t : TextSet) : TextSet := s.insertAll t.toList

/-- Whether a set has no members. -/
def isEmpty (s : TextSet) : Bool := s.toList.isEmpty

theorem mem_toList {s : TextSet} {t : String} : t ∈ s.toList ↔ t ∈ s := Iff.rfl

@[simp] theorem mem_insert {s : TextSet} {t x : String} : x ∈ s.insert t ↔ x = t ∨ x ∈ s :=
  mem_insertInto

@[simp] theorem mem_insertAll {s : TextSet} {l : List String} {x : String} :
    x ∈ s.insertAll l ↔ x ∈ l ∨ x ∈ s := by
  induction l generalizing s with
  | nil => simp [insertAll]
  | cons t rest ih =>
    have := ih (s := s.insert t)
    rw [insertAll, List.foldl_cons]
    rw [insertAll] at this
    rw [this]
    simp [or_assoc, or_left_comm]

@[simp] theorem mem_union {s t : TextSet} {x : String} : x ∈ s.union t ↔ x ∈ t ∨ x ∈ s :=
  mem_insertAll

end TextSet

end IdlBinder

import IdlBinder.Registry
import IdlBinder.Text.TextSet
import IdlBinder.Proofs.Traversal

set_option autoImplicit false

/-!
# Looking up declarations

A registry that was built from a document answers with the declarations of that document:
`get?_eq_some_iff` and its three versions for enums, records and interfaces. Building stops at the
first declaration whose name has been seen, `build_eq_error_iff`, and gets through when there is
none, `build_eq_ok_iff`. So the registry is as good as a search through the document,
`build_faithful`.
-/

namespace IdlBinder

open Traversal

/-! ## Maps from names -/

namespace NameMap

variable {α β : Type}

theorem find?_insert (name key : String) (value : α) (m : List (String × α)) :
    find? key (insert name value m) = if name = key then some value else find? key m := by
  induction m with
  | nil => simp [insert, find?]
  | cons p rest ih =>
      obtain ⟨n, v⟩ := p
      -- The name goes in front, takes the place of its own entry, or goes further down.
      rw [insert]
      split
      · simp only [find?]
      · split
        next hn =>
          subst hn
          by_cases hk : name = key
          · simp [find?, hk]
          · simp [find?, hk]
        next hn =>
          by_cases hk : n = key
          · have hname : name ≠ key := fun h => hn (h.trans hk.symm)
            simp [find?, hk, hname]
          · simp [find?, hk, ih]

/-- A name has a value when it is one of the names. -/
theorem exists_find?_iff {name : String} {m : List (String × α)} :
    (∃ v, find? name m = some v) ↔ name ∈ names m := by
  induction m with
  | nil => simp [find?, names]
  | cons p rest ih =>
      obtain ⟨n, v⟩ := p
      by_cases hn : n = name
      · simp [find?, names, hn]
      · have hne : ¬ name = n := fun h => hn h.symm
        simpa [find?, names, hn, hne] using ih

theorem mem_of_find? {name : String} {v : α} {m : List (String × α)}
    (h : find? name m = some v) : (name, v) ∈ m := by
  induction m with
  | nil => simp [find?] at h
  | cons p rest ih =>
      obtain ⟨n, w⟩ := p
      by_cases hn : n = name
      · simp only [find?, hn, if_true, Option.some.injEq] at h
        simp [hn, h]
      · simp only [find?, hn, if_false] at h
        exact List.mem_cons_of_mem _ (ih h)

/-- Looking up a name in a map whose values were changed one by one. -/
theorem find?_map (f : α → β) (name : String) (m : List (String × α)) :
    find? name (m.map fun p => (p.1, f p.2)) = (find? name m).map f := by
  induction m with
  | nil => rfl
  | cons p rest ih =>
      obtain ⟨n, v⟩ := p
      by_cases hn : n = name
      · simp [find?, hn]
      · simpa [find?, hn] using ih

/-- Putting a value into such a map. -/
theorem insert_map (f : α → β) (name : String) (value : α) (m : List (String × α)) :
    insert name (f value) (m.map fun p => (p.1, f p.2)) =
      (insert name value m).map fun p => (p.1, f p.2) := by
  induction m with
  | nil => rfl
  | cons p rest ih =>
      rw [List.map_cons, insert, insert]
      split
      · rfl
      · split
        · rfl
        · rw [ih, List.map_cons]

/-- A new name makes one more entry. -/
theorem length_insert {name : String} (value : α) {m : List (String × α)}
    (h : find? name m = none) : (insert name value m).length = m.length + 1 := by
  induction m with
  | nil => rfl
  | cons p rest ih =>
      obtain ⟨n, v⟩ := p
      have hne : n ≠ name := by
        intro hn
        simp [find?, hn] at h
      have hrest : find? name rest = none := by simpa [find?, hne] using h
      rw [insert, if_neg (Ne.symm hne)]
      split
      · rfl
      · rw [List.length_cons, List.length_cons, ih hrest]

theorem mem_of_mem_insert {name : String} {value : α} {p : String × α} {m : List (String × α)}
    (h : p ∈ insert name value m) : p = (name, value) ∨ p ∈ m := by
  induction m with
  | nil => simpa [insert] using h
  | cons q rest ih =>
      rw [insert] at h
      split at h
      · simpa using h
      · split at h
        · exact (List.mem_cons.mp h).imp_right (List.mem_cons_of_mem q)
        · rcases List.mem_cons.mp h with rfl | hrest
          · exact Or.inr List.mem_cons_self
          · exact (ih hrest).imp_right (List.mem_cons_of_mem q)

/-! ### The order of the names -/

theorem names_insert (name : String) (value : α) (m : List (String × α)) :
    names (insert name value m) = TextSet.insertInto name (names m) := by
  induction m with
  | nil => rfl
  | cons p rest ih =>
      obtain ⟨n, v⟩ := p
      show names (insert name value ((n, v) :: rest)) = TextSet.insertInto name (n :: names rest)
      rw [insert, TextSet.insertInto, ← ih]
      by_cases hlt : name < n
      · simp [hlt, names]
      · by_cases hname : name = n
        · simp [hname, names]
        · simp [hlt, hname, names]

theorem mem_names_insert {name key : String} {value : α} {m : List (String × α)} :
    key ∈ names (insert name value m) ↔ key = name ∨ key ∈ names m := by
  rw [names_insert, TextSet.mem_insertInto]

theorem ordered_insert {name : String} {value : α} {m : List (String × α)} (h : Ordered m) :
    Ordered (insert name value m) := by
  rw [Ordered, names_insert]
  exact TextSet.pairwise_insertInto h

theorem Ordered.nodup {m : List (String × α)} (h : Ordered m) : (names m).Nodup := by
  refine List.Pairwise.imp ?_ h
  rintro a _ hlt rfl
  exact String.lt_irrefl a hlt

/-- Maps that give every name the same value are equal. -/
theorem eq_of_find?_eq {m m' : List (String × α)} (h : Ordered m) (h' : Ordered m')
    (hfind : ∀ name, find? name m = find? name m') : m = m' := by
  induction m generalizing m' with
  | nil =>
      cases m' with
      | nil => rfl
      | cons p' rest' => simpa [find?] using hfind p'.1
  | cons p rest ih =>
      obtain ⟨n, v⟩ := p
      cases m' with
      | nil => simpa [find?] using hfind n
      | cons p' rest' =>
          obtain ⟨n', v'⟩ := p'
          obtain ⟨hfirst, hrest⟩ := List.pairwise_cons.mp h
          obtain ⟨hfirst', hrest'⟩ := List.pairwise_cons.mp h'
          -- Each map has the first name of the other, and neither of the two can be smaller.
          have hmem : n ∈ names ((n', v') :: rest') :=
            exists_find?_iff.mp ⟨v, by rw [← hfind]; simp [find?]⟩
          have hmem' : n' ∈ names ((n, v) :: rest) :=
            exists_find?_iff.mp ⟨v', by rw [hfind]; simp [find?]⟩
          have hname : n = n' := by
            rcases List.mem_cons.mp hmem with hsame | hlater
            · exact hsame
            · rcases List.mem_cons.mp hmem' with hsame | hlater'
              · exact hsame.symm
              · exact absurd (hfirst n' hlater') (String.lt_asymm (hfirst' n hlater))
          subst hname
          have hvalue : v = v' := by simpa [find?] using hfind n
          subst hvalue
          congr 1
          refine ih hrest hrest' fun name => ?_
          by_cases hn : n = name
          · subst hn
            -- The first name does not come again.
            have hnone : ∀ {l : List (String × α)}, (∀ k ∈ names l, n < k) → find? n l = none := by
              intro l hlater
              rw [Option.eq_none_iff_forall_not_mem]
              intro w hw
              exact String.lt_irrefl n (hlater n (exists_find?_iff.mp ⟨w, hw⟩))
            rw [hnone hfirst, hnone hfirst']
          · simpa [find?, hn] using hfind name

end NameMap

/-! ## Building a registry -/

namespace Registry

/-- A registry knows exactly the declarations of a list, each by its name. -/
def Indexes (r : Registry) (decls : List Decl) : Prop :=
  ∀ name, r.get? name = decls.find? (·.name == name)

theorem indexes_empty : empty.Indexes [] := fun _ => rfl

theorem Indexes.isSome_iff {r : Registry} {decls : List Decl} (h : r.Indexes decls)
    (name : String) : (r.get? name).isSome ↔ name ∈ decls.map (·.name) := by
  rw [h name, List.find?_isSome]
  simp

theorem Indexes.add_eq_error_iff {r : Registry} {decls : List Decl} (h : r.Indexes decls)
    {d : Decl} {err : Diagnostic} :
    r.add d = .error err ↔ d.name ∈ decls.map (·.name) ∧ err = .duplicateDecl d.name := by
  rw [← h.isSome_iff, add]
  cases r.get? d.name with
  | none => simp
  | some d' => simp [eq_comm]

theorem Indexes.of_add {r r' : Registry} {decls : List Decl} (h : r.Indexes decls) {d : Decl}
    (hadd : r.add d = .ok r') : d.name ∉ decls.map (·.name) ∧ r'.Indexes (decls ++ [d]) := by
  rw [add] at hadd
  cases hget : r.get? d.name with
  | some d' => simp [hget] at hadd
  | none =>
      simp only [hget, Except.ok.injEq] at hadd
      have hnew : d.name ∉ decls.map (·.name) := by
        rw [← h.isSome_iff, hget]
        simp
      refine ⟨hnew, fun name => ?_⟩
      rw [List.find?_append, ← h name, ← hadd]
      show NameMap.find? name (NameMap.insert d.name d r.entries) = _
      rw [NameMap.find?_insert]
      by_cases hn : d.name = name
      · subst hn
        simp [hget]
      · simp [hn, get?]

/-- What a run over declarations keeps: the registry knows them all, and no name came twice. -/
theorem Indexes.of_foldlM {r r' : Registry} {before decls : List Decl} (h : r.Indexes before)
    (hnodup : (before.map (·.name)).Nodup) (hrun : decls.foldlM add r = .ok r') :
    r'.Indexes (before ++ decls) ∧ ((before ++ decls).map (·.name)).Nodup := by
  induction decls generalizing r before with
  | nil =>
      cases hrun
      simpa using ⟨h, hnodup⟩
  | cons d decls ih =>
      rw [List.foldlM_cons] at hrun
      obtain ⟨r₁, hadd, hrun⟩ := bind_eq_ok.mp hrun
      obtain ⟨hnew, h₁⟩ := h.of_add hadd
      have := ih h₁ (nodup_map_snoc.mpr ⟨hnew, hnodup⟩) hrun
      rwa [List.append_assoc, List.singleton_append] at this

theorem indexes_of_build {doc : Document} {r : Registry} (h : build doc = .ok r) :
    r.Indexes doc.decls ∧ (doc.decls.map (·.name)).Nodup :=
  indexes_empty.of_foldlM (by simp) h

/-- Declarations with a name each get through. -/
theorem exists_foldlM_of_nodup {decls : List Decl} (hnodup : (decls.map (·.name)).Nodup) :
    ∃ r, decls.foldlM add empty = .ok r := by
  cases hrun : decls.foldlM add empty with
  | ok r => exact ⟨r, rfl⟩
  | error err =>
      obtain ⟨before, d, after, r, rfl, hbefore, hd⟩ := foldlM_eq_error.mp hrun
      obtain ⟨hr, -⟩ := indexes_empty.of_foldlM (by simp) hbefore
      obtain ⟨hmem, -⟩ := hr.add_eq_error_iff.mp hd
      rw [List.map_append, List.nodup_append] at hnodup
      exact absurd rfl (hnodup.2.2 d.name (by simpa using hmem) d.name (by simp))

/-- A document has a registry when it gives each declaration a name of its own. -/
theorem build_eq_ok_iff {doc : Document} :
    (∃ r, build doc = .ok r) ↔ (doc.decls.map (·.name)).Nodup := by
  constructor
  · rintro ⟨r, hr⟩
    exact (indexes_of_build hr).2
  · exact exists_foldlM_of_nodup

theorem size_of_add {r r' : Registry} {d : Decl} (h : r.add d = .ok r') :
    r'.size = r.size + 1 := by
  rw [add] at h
  cases hget : r.get? d.name with
  | some d' => simp [hget] at h
  | none =>
      simp only [hget, Except.ok.injEq] at h
      rw [← h]
      exact NameMap.length_insert d hget

/-- Each declaration that a run gets through makes the registry one larger. -/
theorem size_of_foldlM {r r' : Registry} {decls : List Decl} (h : decls.foldlM add r = .ok r') :
    r'.size = r.size + decls.length := by
  induction decls generalizing r with
  | nil =>
      cases h
      rfl
  | cons d decls ih =>
      rw [List.foldlM_cons] at h
      obtain ⟨r₁, hadd, hrun⟩ := bind_eq_ok.mp h
      rw [ih hrun, size_of_add hadd, List.length_cons]
      omega

theorem size_of_build {doc : Document} {r : Registry} (h : build doc = .ok r) :
    r.size = doc.decls.length := by
  rw [size_of_foldlM h]
  exact Nat.zero_add _

/-- Building stops at the first declaration whose name has been seen. -/
theorem build_eq_error_iff {doc : Document} {err : Diagnostic} :
    build doc = .error err ↔
      ∃ before d after, doc.decls = before ++ d :: after ∧ (before.map (·.name)).Nodup ∧
        d.name ∈ before.map (·.name) ∧ err = .duplicateDecl d.name := by
  rw [build, foldlM_eq_error]
  constructor
  · rintro ⟨before, d, after, r, hdecls, hbefore, hd⟩
    obtain ⟨hr, hnodup⟩ := indexes_empty.of_foldlM (by simp) hbefore
    exact ⟨before, d, after, hdecls, by simpa using hnodup,
      (by simpa using hr.add_eq_error_iff.mp hd)⟩
  · rintro ⟨before, d, after, hdecls, hnodup, hmem, rfl⟩
    obtain ⟨r, hbefore⟩ := exists_foldlM_of_nodup hnodup
    obtain ⟨hr, -⟩ := indexes_empty.of_foldlM (by simp) hbefore
    exact ⟨before, d, after, r, hdecls, hbefore, hr.add_eq_error_iff.mpr (by simpa using hmem)⟩

end Registry

/-! ## Bodies -/

namespace Body

@[simp] theorem enum?_eq_some {b : Body} {e : Enum} : b.enum? = some e ↔ b = .enum e := by
  cases b <;> simp [enum?]

@[simp] theorem record?_eq_some {b : Body} {r : Record} : b.record? = some r ↔ b = .record r := by
  cases b <;> simp [record?]

@[simp] theorem interface?_eq_some {b : Body} {i : Interface} :
    b.interface? = some i ↔ b = .interface i := by
  cases b <;> simp [interface?]

end Body

/-! ## Lookups in the registry of a document -/

namespace Registry

theorem get?_eq_some_iff {doc : Document} {r : Registry} (h : build doc = .ok r) {name : String}
    {d : Decl} : r.get? name = some d ↔ d ∈ doc.decls ∧ d.name = name := by
  obtain ⟨hindex, hnodup⟩ := indexes_of_build h
  rw [hindex name]
  constructor
  · intro hfind
    exact ⟨List.mem_of_find?_eq_some hfind, by simpa using List.find?_some hfind⟩
  · rintro ⟨hmem, rfl⟩
    -- The first declaration of the name is the only one.
    obtain ⟨before, after, hdecls⟩ := List.append_of_mem hmem
    rw [hdecls, List.map_append, List.nodup_append] at hnodup
    rw [hdecls, List.find?_eq_some_iff_append]
    refine ⟨by simp, before, after, rfl, fun b hb => ?_⟩
    have := hnodup.2.2 b.name (List.mem_map_of_mem hb) d.name (by simp)
    simpa using this

/-- Looking up a name as a body of one kind. -/
theorem bind_get?_eq_some_iff {doc : Document} {r : Registry} (h : build doc = .ok r)
    {name : String} {α : Type} {f : Body → Option α} {x : α} :
    (r.get? name).bind (fun d => f d.body) = some x ↔
      ∃ d ∈ doc.decls, d.name = name ∧ f d.body = some x := by
  rw [Option.bind_eq_some_iff]
  constructor
  · rintro ⟨d, hget, hbody⟩
    obtain ⟨hmem, hname⟩ := (get?_eq_some_iff h).mp hget
    exact ⟨d, hmem, hname, hbody⟩
  · rintro ⟨d, hmem, hname, hbody⟩
    exact ⟨d, (get?_eq_some_iff h).mpr ⟨hmem, hname⟩, hbody⟩

theorem enum?_eq_some_iff {doc : Document} {r : Registry} (h : build doc = .ok r) {name : String}
    {e : Enum} : r.enum? name = some e ↔ ∃ d ∈ doc.decls, d.name = name ∧ d.body = .enum e := by
  rw [enum?, bind_get?_eq_some_iff h]
  simp only [Body.enum?_eq_some]

theorem record?_eq_some_iff {doc : Document} {r : Registry} (h : build doc = .ok r)
    {name : String} {b : Record} :
    r.record? name = some b ↔ ∃ d ∈ doc.decls, d.name = name ∧ d.body = .record b := by
  rw [record?, bind_get?_eq_some_iff h]
  simp only [Body.record?_eq_some]

theorem interface?_eq_some_iff {doc : Document} {r : Registry} (h : build doc = .ok r)
    {name : String} {i : Interface} :
    r.interface? name = some i ↔ ∃ d ∈ doc.decls, d.name = name ∧ d.body = .interface i := by
  rw [interface?, bind_get?_eq_some_iff h]
  simp only [Body.interface?_eq_some]

/-! ## The registry as an index -/

/-- The answer to a lookup of one kind, as a body. -/
def body? (r : Registry) (name : String) : Kind → Option Body
  | .enum => (r.enum? name).map .enum
  | .record => (r.record? name).map .record
  | .interface => (r.interface? name).map .interface

/-- Only the lookup of the kind of a declaration gives an answer, and that answer is its body. -/
theorem body?_of_get? {r : Registry} {name : String} {d : Decl} (h : r.get? name = some d)
    (kind : Kind) : r.body? name kind = if kind = d.kind then some d.body else none := by
  cases hbody : d.body <;> cases kind <;>
    simp [body?, enum?, record?, interface?, h, hbody, Decl.kind, Body.kind, Body.enum?,
      Body.record?, Body.interface?]

theorem body?_of_get?_eq_none {r : Registry} {name : String} (h : r.get? name = none)
    (kind : Kind) : r.body? name kind = none := by
  cases kind <;> simp [body?, enum?, record?, interface?, h]

/-- A registry is as good as a search through its document. A document has one iff its declarations
have different names; otherwise the report is on the first declaration whose name has come before.
The registry answers each name like the search, knows as many declarations as the document has, and
under the name of a declaration only the lookup of its kind gives an answer, which is its body. -/
theorem build_faithful (doc : Document) :
    ((∃ r, build doc = .ok r) ↔ (doc.decls.map (·.name)).Nodup) ∧
      (¬(doc.decls.map (·.name)).Nodup →
        ∃ before d after, doc.decls = before ++ d :: after ∧ (before.map (·.name)).Nodup ∧
          d.name ∈ before.map (·.name) ∧ build doc = .error (.duplicateDecl d.name)) ∧
      ∀ r, build doc = .ok r →
        r.size = doc.decls.length ∧
        ∀ name, r.get? name = doc.find? name ∧
          (∀ d, doc.find? name = some d →
            ∀ kind, r.body? name kind = if kind = d.kind then some d.body else none) ∧
          (name ∉ doc.decls.map (·.name) → ∀ kind, r.body? name kind = none) := by
  refine ⟨build_eq_ok_iff, fun hrepeat => ?_, fun r hr => ⟨size_of_build hr, fun name => ?_⟩⟩
  · cases hbuild : build doc with
    | ok r => exact absurd (build_eq_ok_iff.mp ⟨r, hbuild⟩) hrepeat
    | error err =>
        obtain ⟨before, d, after, hdecls, hnodup, hmem, rfl⟩ := build_eq_error_iff.mp hbuild
        exact ⟨before, d, after, hdecls, hnodup, hmem, rfl⟩
  · obtain ⟨hindex, -⟩ := indexes_of_build hr
    refine ⟨hindex name, fun d hfind => ?_, fun hnew => ?_⟩
    · exact body?_of_get? ((hindex name).trans hfind)
    · refine body?_of_get?_eq_none ?_
      rw [← Option.not_isSome_iff_eq_none, hindex.isSome_iff]
      exact hnew

end Registry

namespace Sample

def vane : Decl := ⟨"vane", [], .enum { options := [{ name := "north" }] }⟩

def mast : Decl := ⟨"mast", [], .record {}⟩

def vanes : Document := { decls := [vane, mast, ⟨"buoy", [], .interface {}⟩] }

/-- Two names come twice, and the one that came first comes again last. -/
def spareVanes : Document :=
  { decls := [vane, mast, ⟨"mast", [], .enum {}⟩, ⟨"vane", [], .record {}⟩] }

end Sample

open Sample in
theorem vanes_faithful :
    (∃ r, Registry.build vanes = .ok r ∧ r.size = 3 ∧ r.get? "mast" = some mast ∧
      r.body? "mast" .record = some mast.body ∧ r.body? "mast" .enum = none ∧
      ∀ kind, r.body? "keel" kind = none) ∧
    (∃ before d after, spareVanes.decls = before ++ d :: after ∧ (before.map (·.name)).Nodup ∧
      d.name ∈ before.map (·.name) ∧ Registry.build spareVanes = .error (.duplicateDecl d.name)) ∧
    Registry.build spareVanes = .error (.duplicateDecl "mast") := by
  refine ⟨?_, (Registry.build_faithful spareVanes).2.1 (by decide), rfl⟩
  obtain ⟨r, hr⟩ := (Registry.build_faithful vanes).1.mpr (by decide)
  obtain ⟨hsize, hnames⟩ := (Registry.build_faithful vanes).2.2 r hr
  obtain ⟨hget, hkinds, -⟩ := hnames "mast"
  obtain ⟨-, -, hundeclared⟩ := hnames "keel"
  exact ⟨r, hr, hsize, hget, hkinds mast rfl .record, hkinds mast rfl .enum,
    hundeclared (by decide)⟩

end IdlBinder

import IdlBinder.Check
import IdlBinder.Proofs.Lookup

set_option autoImplicit false

/-!
# Well-formed type expressions

A type expression is well formed in a document when every node of it has the number of arguments
that its head takes there. The check of a document accepts exactly the documents all of whose type
expressions are well formed, each in the scope of its own declaration: `check_eq_ok_iff`.
-/

namespace IdlBinder

open Traversal

/-! ## Trees -/

/-- To show something of every type expression, show it of a node whose arguments have it. -/
theorem TypeExpr.nodeInduction {motive : TypeExpr → Prop}
    (node : ∀ h args, (∀ a ∈ args, motive a) → motive (.node h args)) :
    ∀ t, motive t
  | .node h args => node h args fun a _ => TypeExpr.nodeInduction node a

theorem TypeExpr.mem_nodesAll {n : TypeExpr} {ts : List TypeExpr} :
    n ∈ nodesAll ts ↔ ∃ t ∈ ts, n ∈ t.nodes := by
  induction ts with
  | nil => simp [nodesAll]
  | cons t ts ih => simp [nodesAll, ih]

theorem TypeExpr.mem_nodes {n : TypeExpr} {h : TypeHead} {args : List TypeExpr} :
    n ∈ (node h args).nodes ↔ (∃ a ∈ args, n ∈ a.nodes) ∨ n = node h args := by
  simp [nodes, mem_nodesAll]

/-! ## What a head takes -/

theorem Decl.exists_enum {d : Decl} (h : d.kind = .enum) : ∃ e, d.body = .enum e := by
  cases hbody : d.body <;> simp_all [kind, Body.kind]

theorem Decl.exists_record {d : Decl} (h : d.kind = .record) : ∃ r, d.body = .record r := by
  cases hbody : d.body <;> simp_all [kind, Body.kind]

/-- In a document, and where some type parameters are in scope, a head may stand with a number of
arguments. -/
def Document.Takes (doc : Document) (params : List String) : TypeHead → Nat → Prop
  | .primitive _, n => n = 0
  | .optional, n | .list, n | .set, n => n = 1
  | .map, n => n = 2
  | .declared ref, n =>
    ∃ d ∈ doc.decls, d.name = ref.name ∧ d.kind = ref.kind ∧ n = d.typeParams.length
  | .param p, n => p ∈ params ∧ n = 0

/-- Every node of a type expression has the number of arguments that its head takes. -/
inductive WellFormed (doc : Document) (params : List String) : TypeExpr → Prop where
  | node {h : TypeHead} {args : List TypeExpr} :
      doc.Takes params h args.length → (∀ a ∈ args, WellFormed doc params a) →
      WellFormed doc params (.node h args)

namespace WellFormed

variable {doc : Document} {params : List String}

theorem takes {h : TypeHead} {args : List TypeExpr} (hw : WellFormed doc params (.node h args)) :
    doc.Takes params h args.length := by
  cases hw with
  | node htakes _ => exact htakes

theorem args {h : TypeHead} {args : List TypeExpr} (hw : WellFormed doc params (.node h args)) :
    ∀ a ∈ args, WellFormed doc params a := by
  cases hw with
  | node _ hargs => exact hargs

/-- A node of a well-formed expression is well formed. -/
theorem of_mem_nodes {t n : TypeExpr} (hw : WellFormed doc params t) (hn : n ∈ t.nodes) :
    WellFormed doc params n := by
  induction hw with
  | node htakes hargs ih =>
      rcases TypeExpr.mem_nodes.mp hn with ⟨a, ha, hn⟩ | rfl
      · exact ih a ha hn
      · exact .node htakes hargs

/-- A declaration that a well-formed expression is headed by exists. -/
theorem exists_decl {ref : DefRef} {t : TypeExpr} (hw : WellFormed doc params t)
    (hhead : t.head = .declared ref) :
    ∃ d ∈ doc.decls, d.name = ref.name ∧ d.kind = ref.kind ∧
      t.args.length = d.typeParams.length := by
  obtain ⟨head, args⟩ := t
  obtain rfl : head = .declared ref := hhead
  exact hw.takes

/-- Only interfaces have arguments. -/
theorem args_eq_nil {ref : DefRef} {args : List TypeExpr}
    (hw : WellFormed doc params (.node (.declared ref) args)) (hkind : ref.kind ≠ .interface) :
    args = [] := by
  obtain ⟨d, -, -, hd, hlen⟩ := hw.exists_decl rfl
  have hparams : d.typeParams = [] := by
    rw [← hd] at hkind
    cases hb : d.body <;> simp_all [Decl.kind, Body.kind, Decl.typeParams]
  rw [hparams] at hlen
  exact List.eq_nil_of_length_eq_zero hlen

/-- An optional has one argument. -/
theorem optional {args : List TypeExpr} (hw : WellFormed doc params (.node .optional args)) :
    ∃ a, args = [a] ∧ WellFormed doc params a := by
  obtain ⟨a, rfl⟩ := List.length_eq_one_iff.mp hw.takes
  exact ⟨a, rfl, hw.args a (by simp)⟩

end WellFormed

/-! ## The check -/

namespace Registry

theorem checkTypes_eq_forM {r : Registry} {owner : String} {params : List String}
    (ts : List TypeExpr) :
    r.checkTypes owner params ts = ts.forM (r.checkType owner params) := by
  induction ts with
  | nil => rfl
  | cons t ts ih =>
      show _ = (r.checkType owner params t >>= fun _ => ts.forM (r.checkType owner params))
      rw [checkTypes, ih]
      cases r.checkType owner params t <;> rfl

variable {doc : Document} {r : Registry}

theorem paramCount_eq (h : build doc = .ok r) {d : Decl} (hd : d ∈ doc.decls) :
    r.paramCount d.name = d.typeParams.length := by
  have hget : r.get? d.name = some d := (get?_eq_some_iff h).mpr ⟨hd, rfl⟩
  rw [paramCount, interface?, hget, Decl.typeParams]
  cases hb : d.body <;> simp [Body.interface?, hb]

theorem any_kind_iff (h : build doc = .ok r) {ref : DefRef} :
    (r.get? ref.name).any (·.kind == ref.kind) = true ↔
      ∃ d ∈ doc.decls, d.name = ref.name ∧ d.kind = ref.kind := by
  rw [Option.any_eq_true]
  constructor
  · rintro ⟨d, hget, hkind⟩
    obtain ⟨hd, hname⟩ := (get?_eq_some_iff h).mp hget
    exact ⟨d, hd, hname, by simpa using hkind⟩
  · rintro ⟨d, hd, hname, hkind⟩
    exact ⟨d, (get?_eq_some_iff h).mpr ⟨hd, hname⟩, by simpa using hkind⟩

theorem arityOf_eq_ok_iff (h : build doc = .ok r) {owner : String} {params : List String}
    {head : TypeHead} {n : Nat} :
    r.arityOf owner params head = .ok n ↔ doc.Takes params head n := by
  cases head with
  | declared ref =>
      rw [arityOf, Document.Takes]
      constructor
      · intro hok
        split at hok
        next hfound =>
          obtain ⟨d, hd, hname, hkind⟩ := (any_kind_iff h).mp hfound
          rw [← hname, paramCount_eq h hd, Except.ok.injEq] at hok
          exact ⟨d, hd, hname, hkind, hok.symm⟩
        next => cases hok
      · rintro ⟨d, hd, hname, hkind, rfl⟩
        rw [if_pos ((any_kind_iff h).mpr ⟨d, hd, hname, hkind⟩), ← hname, paramCount_eq h hd]
  | param p =>
      rw [arityOf, Document.Takes]
      by_cases hp : p ∈ params
      · simp [hp, eq_comm]
      · simp [hp]
  | primitive _ | optional | list | set | map =>
      simp [arityOf, Document.Takes, TypeHead.arity?, eq_comm]

theorem checkType_eq_ok_iff (h : build doc = .ok r) {owner : String} {params : List String}
    {t : TypeExpr} : r.checkType owner params t = .ok () ↔ WellFormed doc params t := by
  induction t using TypeExpr.nodeInduction with
  | node head args ih =>
      rw [checkType]
      constructor
      · intro hok
        split at hok
        next => cases hok
        next n harity =>
          -- The node is in order before its arguments are looked at.
          split at hok
          next hlen =>
            refine .node (hlen ▸ (arityOf_eq_ok_iff h).mp harity) fun a ha => ?_
            rw [checkTypes_eq_forM, forM_eq_ok] at hok
            exact (ih a ha).mp (hok a ha)
          next => cases hok
      · intro hw
        have harity : r.arityOf owner params head = .ok args.length :=
          (arityOf_eq_ok_iff h).mpr hw.takes
        rw [harity]
        simp only [if_true, checkTypes_eq_forM, forM_eq_ok]
        exact fun a ha => (ih a ha).mpr (hw.args a ha)

theorem checkDecl_eq_ok_iff (h : build doc = .ok r) {d : Decl} :
    r.checkDecl d = .ok () ↔ ∀ t ∈ d.types, WellFormed doc d.typeParams t := by
  rw [checkDecl, checkTypes_eq_forM, forM_eq_ok]
  simp only [checkType_eq_ok_iff h]

theorem check_eq_ok_iff (h : build doc = .ok r) :
    r.check doc = .ok () ↔ ∀ d ∈ doc.decls, ∀ t ∈ d.types, WellFormed doc d.typeParams t := by
  rw [check, forM_eq_ok]
  simp only [checkDecl_eq_ok_iff h]

/-- A document passes the check with its registry. -/
structure Checked (doc : Document) (r : Registry) : Prop where
  build : Registry.build doc = .ok r
  types : ∀ d ∈ doc.decls, ∀ t ∈ d.types, WellFormed doc d.typeParams t

theorem checked_of_check (hbuild : build doc = .ok r) (hcheck : r.check doc = .ok ()) :
    Checked doc r :=
  ⟨hbuild, (check_eq_ok_iff hbuild).mp hcheck⟩

namespace Checked

/-- A well-formed type that is headed by a record is that record, and the registry has it. -/
theorem record_of_head (h : Checked doc r) {params : List String} {t : TypeExpr} {name : String}
    (hw : WellFormed doc params t) (hhead : t.head = .declared ⟨name, .record⟩) :
    t = .node (.declared ⟨name, .record⟩) [] ∧ ∃ b, r.record? name = some b := by
  obtain ⟨d, hd, hname, hkind, -⟩ := hw.exists_decl hhead
  obtain ⟨b, hbody⟩ := Decl.exists_record hkind
  refine ⟨?_, b, (record?_eq_some_iff h.build).mpr ⟨d, hd, hname, hbody⟩⟩
  obtain ⟨head, args⟩ := t
  obtain rfl : head = .declared ⟨name, .record⟩ := hhead
  rw [hw.args_eq_nil (by simp)]

/-- The types of a record's fields are well formed, and no type parameter is in scope there. -/
theorem fieldType (h : Checked doc r) {name : String} {b : Record} {f : Field}
    (hb : r.record? name = some b) (hf : f ∈ b.fields) : WellFormed doc [] f.type := by
  obtain ⟨d, hd, -, hbody⟩ := (record?_eq_some_iff h.build).mp hb
  have hmem : f.type ∈ d.types := by
    simp only [Decl.types, hbody, Record.types, List.mem_append]
    exact Or.inl (List.mem_map_of_mem hf)
  simpa [Decl.typeParams, hbody] using h.types d hd f.type hmem

end Checked

/-- The check reports the first type expression that it does not accept. -/
theorem check_eq_error_iff {err : Diagnostic} :
    r.check doc = .error err ↔
      ∃ before d after, doc.decls = before ++ d :: after ∧
        (∀ b ∈ before, r.checkDecl b = .ok ()) ∧
        ∃ ts t us, d.types = ts ++ t :: us ∧
          (∀ u ∈ ts, r.checkType d.name d.typeParams u = .ok ()) ∧
          r.checkType d.name d.typeParams t = .error err := by
  simp only [check, forM_eq_error, checkDecl, checkTypes_eq_forM]

end Registry

end IdlBinder

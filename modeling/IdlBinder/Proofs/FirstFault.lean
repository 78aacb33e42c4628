import IdlBinder.Proofs.WellFormed

set_option autoImplicit false

/-!
# The first fault of a document

The check of a type expression goes down a tree and stops at the first node that is not in order;
the check of a document goes through its type expressions and stops at the first one that is
refused. Both are shown to be one walk along a list: the nodes of an expression from the outside in
(`preorder`), and the type expressions of a document in the order in which they are written
(`uses`). What a walk along a list accepts and reports is known from `Traversal`, so that
`check_reports_first_fault` is left with single nodes.
-/

namespace IdlBinder

open Traversal

/-! ## Nodes from the outside in -/

namespace TypeExpr

mutual

/-- All subexpressions, an expression before its arguments and these from left to right. -/
def preorder : TypeExpr → List TypeExpr
  | node h as => node h as :: preorderAll as

/-- All subexpressions of several expressions, one expression after the other. -/
def preorderAll : List TypeExpr → List TypeExpr
  | [] => []
  | t :: ts => t.preorder ++ preorderAll ts

end

theorem preorderAll_eq_flatMap (ts : List TypeExpr) : preorderAll ts = ts.flatMap preorder := by
  induction ts with
  | nil => rfl
  | cons t ts ih => rw [preorderAll, ih, List.flatMap_cons]

end TypeExpr

/-! ## Type expressions in the order of the document -/

/-- A type expression where it is used: in a declaration, with type parameters in scope. -/
structure TypeUse where
  owner : String
  params : List String
  type : TypeExpr

/-- The type expressions of a declaration: those of the fields and then of the constants of a
record; method by method those of the parameters and of the result, and then of the constants of an
interface. Only an interface brings type parameters into scope. -/
def Decl.uses (d : Decl) : List TypeUse :=
  match d.body with
  | .enum _ => []
  | .record r =>
    r.fields.map (fun f => ⟨d.name, [], f.type⟩) ++ r.consts.map (fun c => ⟨d.name, [], c.type⟩)
  | .interface i =>
    (i.methods.flatMap fun m =>
      m.params.map (fun p => ⟨d.name, i.typeParams, p.type⟩) ++
        m.result.toList.map (fun t => ⟨d.name, i.typeParams, t⟩)) ++
      i.consts.map (fun c => ⟨d.name, i.typeParams, c.type⟩)

/-- The type expressions of a document, declaration by declaration. -/
def Document.uses (doc : Document) : List TypeUse := doc.decls.flatMap Decl.uses

theorem Decl.uses_eq_map (d : Decl) :
    d.uses = d.types.map fun t => ⟨d.name, d.typeParams, t⟩ := by
  cases hbody : d.body with
  | enum e => simp [uses, types, hbody]
  | record r => simp [uses, types, typeParams, Record.types, hbody, Function.comp_def]
  | interface i =>
      simp [uses, types, typeParams, Interface.types, Method.types, hbody, List.map_flatMap,
        Function.comp_def]

/-! ## Single nodes -/

/-- A node has the number of arguments that its head takes. -/
def Document.InOrder (doc : Document) (params : List String) (n : TypeExpr) : Prop :=
  doc.Takes params n.head n.args.length

/-- What is wrong with a node in a declaration with type parameters in scope. The number of
arguments is only looked at if the head means something there. -/
inductive NodeFault (doc : Document) (owner : String) (params : List String) :
    TypeExpr → Diagnostic → Prop where
  | unresolved {ref : DefRef} {args : List TypeExpr} :
      (∀ d ∈ doc.decls, d.name = ref.name → d.kind ≠ ref.kind) →
      NodeFault doc owner params (.node (.declared ref) args)
        (.unresolvedType owner ref.name ref.kind)
  | outOfScope {p : String} {args : List TypeExpr} :
      p ∉ params →
      NodeFault doc owner params (.node (.param p) args) (.unknownTypeParam owner p)
  | arity {h : TypeHead} {args : List TypeExpr} {expected : Nat} :
      doc.Takes params h expected → args.length ≠ expected →
      NodeFault doc owner params (.node h args) (.arity owner (.node h args) expected args.length)

/-- The first node of a type expression that is not in order, and what is wrong with it. -/
def FirstFault (doc : Document) (owner : String) (params : List String) (t : TypeExpr)
    (e : Diagnostic) : Prop :=
  ∃ before n after, t.preorder = before ++ n :: after ∧ (∀ b ∈ before, doc.InOrder params b) ∧
    NodeFault doc owner params n e

namespace Registry

/-- Checks a node and leaves its arguments alone. -/
def checkNode (r : Registry) (owner : String) (params : List String) (n : TypeExpr) :
    Except Diagnostic Unit :=
  match r.arityOf owner params n.head with
  | .error e => .error e
  | .ok expected =>
    if n.args.length = expected then .ok ()
    else .error (.arity owner n expected n.args.length)

variable {doc : Document} {r : Registry} {owner : String} {params : List String}

theorem checkNode_eq_ok_iff (h : build doc = .ok r) {n : TypeExpr} :
    r.checkNode owner params n = .ok () ↔ doc.InOrder params n := by
  have htakes : r.arityOf owner params n.head = .ok n.args.length ↔ doc.InOrder params n :=
    arityOf_eq_ok_iff h
  rw [checkNode, ← htakes]
  cases r.arityOf owner params n.head with
  | error e => simp
  | ok expected =>
      by_cases hlen : n.args.length = expected
      · simp [hlen]
      · simp [hlen, Ne.symm hlen]

/-- A head that may not be used at all is a declaration that is missing or a type parameter that is
not in scope. -/
theorem arityOf_eq_error_iff (h : build doc = .ok r) {head : TypeHead} {e : Diagnostic} :
    r.arityOf owner params head = .error e ↔
      (∃ ref, head = .declared ref ∧ (∀ d ∈ doc.decls, d.name = ref.name → d.kind ≠ ref.kind) ∧
        e = .unresolvedType owner ref.name ref.kind) ∨
      ∃ p, head = .param p ∧ p ∉ params ∧ e = .unknownTypeParam owner p := by
  cases head with
  | declared ref =>
      rw [arityOf]
      by_cases hfound : (r.get? ref.name).any (·.kind == ref.kind) = true
      · obtain ⟨d, hd, hname, hkind⟩ := (any_kind_iff h).mp hfound
        have hsome : ¬ ∀ d ∈ doc.decls, d.name = ref.name → d.kind ≠ ref.kind :=
          fun hnone => hnone d hd hname hkind
        simp [hfound, hsome]
      · have hnone : ∀ d ∈ doc.decls, d.name = ref.name → d.kind ≠ ref.kind :=
          fun d hd hname hkind => hfound ((any_kind_iff h).mpr ⟨d, hd, hname, hkind⟩)
        rw [if_neg hfound]
        constructor
        · intro herr
          exact Or.inl ⟨ref, rfl, hnone, (Except.error.inj herr).symm⟩
        · rintro (⟨ref', href, -, rfl⟩ | ⟨p, hp, -⟩)
          · cases href
            rfl
          · cases hp
  | param p =>
      by_cases hp : p ∈ params
      · simp [arityOf, hp]
      · simp [arityOf, hp, eq_comm]
  | primitive _ | optional | list | set | map => simp [arityOf]

theorem checkNode_eq_error_iff (h : build doc = .ok r) {n : TypeExpr} {e : Diagnostic} :
    r.checkNode owner params n = .error e ↔ NodeFault doc owner params n e := by
  obtain ⟨head, args⟩ := n
  constructor
  · intro herr
    rw [checkNode] at herr
    split at herr
    next e' harity =>
      obtain rfl : e' = e := by simpa using herr
      rcases (arityOf_eq_error_iff h).mp harity with ⟨ref, hhead, hnone, rfl⟩ | ⟨p, hhead, hp, rfl⟩
      · obtain rfl : head = .declared ref := hhead
        exact .unresolved hnone
      · obtain rfl : head = .param p := hhead
        exact .outOfScope hp
    next expected harity =>
      split at herr
      next => cases herr
      next hlen =>
        cases herr
        exact .arity ((arityOf_eq_ok_iff h).mp harity) hlen
  · intro hfault
    cases hfault with
    | @unresolved ref args hnone =>
        have harity : r.arityOf owner params (.declared ref) = .error _ :=
          (arityOf_eq_error_iff h).mpr (Or.inl ⟨ref, rfl, hnone, rfl⟩)
        rw [checkNode, TypeExpr.head, harity]
    | @outOfScope p args hp =>
        have harity : r.arityOf owner params (.param p) = .error _ :=
          (arityOf_eq_error_iff h).mpr (Or.inr ⟨p, rfl, hp, rfl⟩)
        rw [checkNode, TypeExpr.head, harity]
    | arity htakes hlen =>
        rw [checkNode, TypeExpr.head, (arityOf_eq_ok_iff h).mpr htakes]
        exact if_neg hlen

/-! ## Walks along lists -/

/-- Going down the tree is walking along its nodes. -/
theorem checkType_eq_forM (t : TypeExpr) :
    r.checkType owner params t = t.preorder.forM (r.checkNode owner params) := by
  induction t using TypeExpr.nodeInduction with
  | node head args ih =>
      have hargs : r.checkTypes owner params args =
          (TypeExpr.preorderAll args).forM (r.checkNode owner params) := by
        rw [checkTypes_eq_forM, TypeExpr.preorderAll_eq_flatMap, forM_flatMap]
        exact forM_congr ih
      show _ = (r.checkNode owner params (.node head args) >>= fun _ =>
        (TypeExpr.preorderAll args).forM (r.checkNode owner params))
      rw [← hargs, checkType, checkNode, TypeExpr.head, TypeExpr.args]
      cases r.arityOf owner params head with
      | error e => rfl
      | ok expected =>
          by_cases hlen : args.length = expected
          · simp only [hlen, if_true]
            rfl
          · simp only [hlen, if_false]
            rfl

theorem checkType_eq_ok_iff_inOrder (h : build doc = .ok r) {t : TypeExpr} :
    r.checkType owner params t = .ok () ↔ ∀ n ∈ t.preorder, doc.InOrder params n := by
  rw [checkType_eq_forM, forM_eq_ok]
  simp only [checkNode_eq_ok_iff h]

theorem checkType_eq_error_iff (h : build doc = .ok r) {t : TypeExpr} {e : Diagnostic} :
    r.checkType owner params t = .error e ↔ FirstFault doc owner params t e := by
  rw [checkType_eq_forM, forM_eq_error]
  simp only [checkNode_eq_ok_iff h, checkNode_eq_error_iff h, FirstFault]

/-- The declarations one after the other are the type expressions one after the other. -/
theorem check_eq_forM (r : Registry) (doc : Document) :
    r.check doc = doc.uses.forM fun u => r.checkType u.owner u.params u.type := by
  rw [check, Document.uses, forM_flatMap]
  refine forM_congr fun d _ => ?_
  rw [checkDecl, checkTypes_eq_forM, Decl.uses_eq_map, forM_map]

/-- With the registry of a document, a type expression is accepted exactly if all its nodes are in
order, and else the first one that is not is reported. A document is accepted exactly if all its
type expressions are, each in its own scope, and else the first one that is not is reported. -/
theorem check_reports_first_fault (hbuild : build doc = .ok r) :
    (∀ owner params t,
      (r.checkType owner params t = .ok () ↔ ∀ n ∈ t.preorder, doc.InOrder params n) ∧
      ∀ e, r.checkType owner params t = .error e ↔ FirstFault doc owner params t e) ∧
    (r.check doc = .ok () ↔ ∀ u ∈ doc.uses, ∀ n ∈ u.type.preorder, doc.InOrder u.params n) ∧
    ∀ e, r.check doc = .error e ↔
      ∃ before u after, doc.uses = before ++ u :: after ∧
        (∀ b ∈ before, ∀ n ∈ b.type.preorder, doc.InOrder b.params n) ∧
        FirstFault doc u.owner u.params u.type e := by
  refine ⟨fun owner params t => ⟨?_, fun e => ?_⟩, ?_, fun e => ?_⟩
  · exact checkType_eq_ok_iff_inOrder hbuild
  · exact checkType_eq_error_iff hbuild
  · rw [check_eq_forM, forM_eq_ok]
    simp only [checkType_eq_ok_iff_inOrder hbuild]
  · rw [check_eq_forM, forM_eq_error]
    simp only [checkType_eq_ok_iff_inOrder hbuild, checkType_eq_error_iff hbuild]

end Registry

namespace Sample

/-- A generic interface without its argument. -/
def bareFeed : TypeExpr := .node (.declared ⟨"feed", .interface⟩) []

def feed : Decl :=
  ⟨"feed", [], .interface {
    typeParams := ["item"]
    methods := [{ name := "send", params := [⟨"value", [], .node (.param "item") []⟩] }] }⟩

/-- The second field has two faults: an interface without its argument and, after it, a record that
nobody declares. -/
def hopper : Decl :=
  ⟨"hopper", [], .record {
    fields := [⟨"first", [], .node .list [.node (.declared ⟨"feed", .interface⟩)
        [.node (.primitive .i8) []]]⟩,
      ⟨"second", [], .node .map [bareFeed, .node (.declared ⟨"nowhere", .record⟩) []]⟩] }⟩

def hoppers : Document := { decls := [feed, hopper] }

end Sample

open Sample in
theorem hoppers_first_fault :
    ∃ r, Registry.build hoppers = .ok r ∧
      r.check hoppers = .error (.arity "hopper" bareFeed 1 0) ∧
      ∃ before u after, hoppers.uses = before ++ u :: after ∧
        (∀ b ∈ before, ∀ n ∈ b.type.preorder, hoppers.InOrder b.params n) ∧
        FirstFault hoppers u.owner u.params u.type (.arity "hopper" bareFeed 1 0) := by
  have hcheck : (⟨[("feed", feed), ("hopper", hopper)]⟩ : Registry).check hoppers =
      .error (.arity "hopper" bareFeed 1 0) := rfl
  refine ⟨_, rfl, hcheck, ?_⟩
  exact ((Registry.check_reports_first_fault rfl).2.2 _).mp hcheck

end IdlBinder

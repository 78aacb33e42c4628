import IdlBinder.Generate
import IdlBinder.Proofs.Fitting

set_option autoImplicit false

/-!
# What can go wrong with a checked document

Once a document has passed the check, the only thing that keeps a declaration from being emitted is
a literal that does not fit. `LiteralFault` lists the diagnostics that remain; those about
unresolved types, arities, type parameters and names are not among them. The reason is the invariant
that runs through the elaboration of a literal: whatever type it is taken to, that type is well
formed, be it in the scope of the owner or of a record that declares a field.
-/

namespace IdlBinder

open Traversal

/-! ## The faults -/

/-- A diagnostic about the literal of a constant in a document that passes the check. A mismatch is
never about an optional: one without an argument would have to be reported as such. -/
inductive LiteralFault (doc : Document) (site : ConstSite) : Diagnostic → Prop where
  | constKind {t : TypeExpr} {form : Literal.Form} : t.head ≠ .optional →
      LiteralFault doc site (.constKind site t form)
  | unsupportedConstType {t : TypeExpr} : LiteralFault doc site (.unsupportedConstType site t)
  /-- The record is declared and has the field. -/
  | missingField {name field : String} {d : Decl} {b : Record} : d ∈ doc.decls → d.name = name →
      d.body = .record b → (∃ f ∈ b.fields, f.name = field) →
      LiteralFault doc site (.missingField site name field)
  /-- The record is declared and lacks the field. -/
  | unknownField {name field : String} {d : Decl} {b : Record} : d ∈ doc.decls → d.name = name →
      d.body = .record b → (∀ f ∈ b.fields, f.name ≠ field) →
      LiteralFault doc site (.unknownField site name field)
  /-- The enum is declared and lacks the option. -/
  | unknownEnumOption {name option : String} {d : Decl} {e : Enum} : d ∈ doc.decls →
      d.name = name → d.body = .enum e → (∀ o ∈ e.options, o.name ≠ option) →
      LiteralFault doc site (.unknownEnumOption site name option)
  | forwardConstRef {target : String} : LiteralFault doc site (.forwardConstRef site target)
  | unknownConstRef {target : String} : LiteralFault doc site (.unknownConstRef site target)
  | constRefType {t targetType : TypeExpr} {target : String} :
      LiteralFault doc site (.constRefType site t target targetType)
  | nonFiniteFloat : LiteralFault doc site (.nonFiniteFloat site)

/-! ## Literals -/

namespace LiteralContext

variable {ctx : LiteralContext} {doc : Document} {err : Diagnostic}

theorem reference_fault {target : String} {t : TypeExpr}
    (h : ctx.reference target t = .error err) : LiteralFault doc ctx.site err := by
  rcases reference_eq_error_iff.mp h with ⟨-, rfl⟩ | ⟨_, _, -, -, rfl⟩ | ⟨_, _, -, -, -, rfl⟩
  · exact .unknownConstRef
  · exact .forwardConstRef
  · exact .constRefType

theorem primitive_fault {p : Prim} {args : List TypeExpr} {v : Literal}
    (h : ctx.primitive p (.node (.primitive p) args) v = .error err) :
    LiteralFault doc ctx.site err := by
  have hkind : ∀ form, LiteralFault doc ctx.site
      (.constKind ctx.site (.node (.primitive p) args) form) :=
    fun form => .constKind (by simp [TypeExpr.head])
  unfold primitive at h
  split at h
  · cases h; exact .unsupportedConstType
  · cases h; exact .unsupportedConstType
  · cases h
  · cases h
  · split at h
    · cases h
    · split at h
      · cases h
      · cases h; exact hkind _
  · split at h
    · cases h; exact hkind _
    · split at h
      · cases h
      · cases h; exact .nonFiniteFloat
  · cases h; exact hkind _

theorem enumerator_fault {name option : String} {d : Decl} {e : Enum}
    (hbuild : Registry.build doc = .ok ctx.registry) (hd : d ∈ doc.decls) (hname : d.name = name)
    (hbody : d.body = .enum e) (h : ctx.enumerator name option = .error err) :
    LiteralFault doc ctx.site err := by
  have hmissing : ∀ o ∈ e.options, o.name ≠ option := by
    intro o ho hoption
    obtain ⟨i, hi⟩ := (enumerator_isOk_iff hbuild).mpr ⟨d, hd, hname, e, hbody, o, ho, hoption⟩
    rw [hi] at h
    cases h
  rw [enumerator] at h
  split at h
  · cases h
  · cases h; exact .unknownEnumOption hd hname hbody hmissing

theorem plain_fault {params : List String} {v : Literal} {t : TypeExpr}
    (hbuild : Registry.build doc = .ok ctx.registry) (hw : WellFormed doc params t)
    (hopt : t.head ≠ .optional) (h : ctx.plain v t = .error err) :
    LiteralFault doc ctx.site err := by
  obtain ⟨head, args⟩ := t
  unfold plain at h
  split at h
  next p hhead =>
    obtain rfl : head = .primitive p := hhead
    exact primitive_fault h
  next hhead => exact absurd hhead hopt
  next ref hhead =>
    obtain rfl : head = .declared ref := hhead
    split at h
    next option hkind =>
      obtain ⟨d, hd, hname, hdkind, -⟩ := hw.exists_decl rfl
      obtain ⟨e, hbody⟩ := Decl.exists_enum (hdkind.trans hkind)
      exact enumerator_fault hbuild hd hname hbody h
    next => cases h; exact .unsupportedConstType
    next => cases h; exact .constKind hopt
  -- Containers and type parameters have no literals.
  all_goals
    cases h
    exact .unsupportedConstType

/-- A record literal goes wrong by its keys, or where one of its values does. -/
theorem construct_fault {name : String} {t : TypeExpr} {b : Record}
    {entries : List (String × Literal)} (hbuild : Registry.build doc = .ok ctx.registry)
    (hb : ctx.registry.record? name = some b)
    (hfield : ∀ f ∈ b.fields, ∀ v, NameMap.find? f.name entries = some v →
      ctx.elaborate v f.type = .error err → LiteralFault doc ctx.site err)
    (h : ctx.construct ⟨name, .record⟩ t (ctx.elaborateAll entries) = .error err) :
    LiteralFault doc ctx.site err := by
  obtain ⟨d, hd, hname, hbody⟩ := (Registry.record?_eq_some_iff hbuild).mp hb
  rw [construct, hb] at h
  simp only at h
  split at h
  next extra hextra =>
    cases h
    exact .unknownField hd hname hbody (by simpa using List.find?_some hextra)
  next =>
    rw [map_eq_error, arguments, elaborateAll_eq] at h
    obtain ⟨f, hf, h⟩ := exists_of_mapM_eq_error h
    rw [NameMap.find?_map] at h
    cases hfind : NameMap.find? f.name entries with
    | none =>
        rw [hfind] at h
        cases h
        exact .missingField hd hname hbody ⟨f, hf, rfl⟩
    | some v =>
        rw [hfind] at h
        exact hfield f hf v hfind (map_eq_error.mp h)

/-- Whatever goes wrong with a literal at a well-formed type is the literal's own fault. -/
theorem elaborate_fault {params : List String} {v : Literal} {t : TypeExpr}
    (hdoc : Registry.Checked doc ctx.registry) (hw : WellFormed doc params t)
    (h : ctx.elaborate v t = .error err) : LiteralFault doc ctx.site err := by
  induction v using Literal.recordInduction generalizing params t with
  | other v hrec =>
      by_cases hv : ∃ target, v = .constRef target
      · obtain ⟨target, rfl⟩ := hv
        rw [elaborate] at h
        exact reference_fault h
      · rw [elaborate_of_not_record (fun target hvt => hv ⟨target, hvt⟩) hrec] at h
        exact plain_fault hdoc.build hw.core.1 hw.core.2 h
  | record entries ih =>
      obtain ⟨hcore, hopt⟩ := hw.core
      rcases elaborate_record with ⟨name, hhead, hvalue⟩ | ⟨-, hvalue⟩
      · obtain ⟨-, b, hb⟩ := hdoc.record_of_head hcore hhead
        rw [hvalue] at h
        -- The invariant passes on to the fields: their types are well formed in their own scope.
        exact construct_fault hdoc.build hb (fun f hf v hfind =>
          ih (f.name, v) (NameMap.mem_of_find? hfind) (hdoc.fieldType hb hf)) h
      · rw [hvalue] at h
        exact plain_fault hdoc.build hcore hopt h

end LiteralContext

/-! ## Declarations -/

theorem Decl.mem_types_of_mem_consts (d : Decl) {c : Const} (hc : c ∈ d.consts) :
    c.type ∈ d.types := by
  cases hb : d.body with
  | enum _ => simp [consts, hb] at hc
  | record b =>
      simp only [consts, hb] at hc
      simp only [types, hb, Record.types, List.mem_append]
      exact Or.inr (List.mem_map_of_mem hc)
  | interface i =>
      simp only [consts, hb] at hc
      simp only [types, hb, Interface.types, List.mem_append]
      exact Or.inr (List.mem_map_of_mem hc)

namespace Emitter

variable {e : Emitter} {doc : Document} {err : Diagnostic}

theorem constDefs_fault {params : List String} {scope : ConstScope}
    {template : Option Cpp.Template} (hdoc : Registry.Checked doc e.registry)
    (hw : ∀ c ∈ scope.consts, WellFormed doc params c.type)
    (h : e.constDefs scope template = .error err) :
    ∃ c ∈ scope.consts, LiteralFault doc ⟨scope.owner, c.name⟩ err := by
  obtain ⟨⟨c, i⟩, hmem, h⟩ := exists_of_mapM_eq_error h
  have hc : c ∈ scope.consts := List.fst_mem_of_mem_zipIdx hmem
  refine ⟨c, hc, ?_⟩
  rcases bind_eq_error.mp h with h | ⟨_, -, h⟩
  · exact LiteralContext.elaborate_fault hdoc (hw c hc) h
  · cases h

theorem wellFormed_const (hdoc : Registry.Checked doc e.registry) {d : Decl} (hd : d ∈ doc.decls) :
    ∀ c ∈ d.consts, WellFormed doc d.typeParams c.type :=
  fun c hc => hdoc.types d hd c.type (d.mem_types_of_mem_consts hc)

/-- Only constants keep a declaration from being emitted. -/
theorem exists_constDefs_of_declFiles_eq_error {d : Decl} (h : e.declFiles d = .error err) :
    ∃ scope template, scope.owner = d.name ∧ scope.consts = d.consts ∧
      e.constDefs scope template = .error err := by
  rw [declFiles] at h
  cases hb : d.body with
  | enum _ => simp [hb] at h
  | record b =>
      simp only [hb, recordFiles] at h
      split at h
      next => cases h
      next =>
        -- The first bind is that of the source file, the second that of its constants.
        rcases bind_eq_error.mp h with h | ⟨_, -, h⟩
        · rcases bind_eq_error.mp h with h | ⟨_, -, h⟩
          · exact ⟨e.structScope d b, none, rfl, by simp [structScope, Decl.consts, hb], h⟩
          · cases h
        · cases h
  | interface i =>
      simp only [hb, interfaceFiles] at h
      split at h
      next => cases h
      next =>
        rcases bind_eq_error.mp h with h | ⟨_, -, h⟩
        · exact ⟨e.classScope d i, e.template i, rfl, by simp [classScope, Decl.consts, hb], h⟩
        · split at h <;> cases h

end Emitter

/-- A fault of a literal is no fault of a type or of a name. -/
theorem LiteralFault.not_about_types {doc : Document} {site : ConstSite} {err : Diagnostic}
    (h : LiteralFault doc site err) :
    (∀ owner name kind, err ≠ .unresolvedType owner name kind) ∧
    (∀ owner t expected found, err ≠ .arity owner t expected found) ∧
    (∀ owner param, err ≠ .unknownTypeParam owner param) ∧
    ∀ name, err ≠ .duplicateDecl name := by
  cases h <;> simp

/-- Every declaration of a document that passes the check is emitted, or one of its constants has a
literal at fault. -/
theorem declFiles_ok_or_literalFault (e : Emitter) {doc : Document} {d : Decl}
    (hbuild : Registry.build doc = .ok e.registry) (hcheck : e.registry.check doc = .ok ())
    (hd : d ∈ doc.decls) :
    (∃ files, e.declFiles d = .ok files) ∨
    ∃ err, e.declFiles d = .error err ∧
      (∃ c ∈ d.consts, LiteralFault doc ⟨d.name, c.name⟩ err) ∧
      (∀ owner name kind, err ≠ .unresolvedType owner name kind) ∧
      (∀ owner t expected found, err ≠ .arity owner t expected found) ∧
      (∀ owner param, err ≠ .unknownTypeParam owner param) ∧
      ∀ name, err ≠ .duplicateDecl name := by
  cases hfiles : e.declFiles d with
  | ok files => exact Or.inl ⟨files, rfl⟩
  | error err =>
      have hdoc := Registry.checked_of_check hbuild hcheck
      obtain ⟨scope, template, howner, hconsts, h⟩ :=
        Emitter.exists_constDefs_of_declFiles_eq_error hfiles
      have hw : ∀ c ∈ scope.consts, WellFormed doc d.typeParams c.type := by
        rw [hconsts]
        exact Emitter.wellFormed_const hdoc hd
      obtain ⟨c, hc, hfault⟩ := Emitter.constDefs_fault hdoc hw h
      rw [howner] at hfault
      rw [hconsts] at hc
      exact Or.inr ⟨err, rfl, ⟨c, hc, hfault⟩, hfault.not_about_types⟩

namespace Sample

/-- A constant of a record type whose literal names an option that the enum below lacks. -/
def stray : Decl :=
  ⟨"stray", [], .record {
    consts := [⟨"spot", [], .node .optional [.node (.declared ⟨"dot", .record⟩) []],
      .record [("size", .int 1), ("tint", .enumOption "blue")]⟩] }⟩

def strayDoc : Document := { decls := [stray, dot, color] }

def strayEmitter : Emitter :=
  { Generator.standard {} with
    registry := ⟨[("color", color), ("dot", dot), ("stray", stray)]⟩
    origin := "" }

end Sample

open Sample in
theorem stray_literalFault :
    Registry.build strayDoc = .ok strayEmitter.registry ∧
      strayEmitter.registry.check strayDoc = .ok () ∧ stray ∈ strayDoc.decls ∧
      strayEmitter.declFiles stray = .error (.unknownEnumOption ⟨"stray", "spot"⟩ "color" "blue") ∧
      ∃ c ∈ stray.consts, LiteralFault strayDoc ⟨"stray", c.name⟩
        (.unknownEnumOption ⟨"stray", "spot"⟩ "color" "blue") := by
  have hmem : stray ∈ strayDoc.decls := List.mem_cons_self
  have hfault : strayEmitter.declFiles stray =
      .error (.unknownEnumOption ⟨"stray", "spot"⟩ "color" "blue") := rfl
  refine ⟨rfl, rfl, hmem, hfault, ?_⟩
  rcases declFiles_ok_or_literalFault strayEmitter rfl rfl hmem with
    ⟨files, hfiles⟩ | ⟨err, herr, hliteral, -⟩
  · rw [hfault] at hfiles
    cases hfiles
  · rw [hfault] at herr
    cases herr
    exact hliteral

end IdlBinder

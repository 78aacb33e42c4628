import IdlBinder.Proofs.InitializerParts
import IdlBinder.Proofs.LiteralType

set_option autoImplicit false

/-!
# What the files of a declaration depend on

A declaration is emitted from itself alone: its types are spelled by their names, whatever these
declare. Only initializers look further, since the arguments of a constructor stand in the order of
fields that are declared elsewhere. So in two documents the files of one declaration can differ in
the definitions of its constants only, and not even there if the records that these lead to have the
same fields: `files_depend_on_own_declaration`.
-/

namespace IdlBinder

open Traversal Relation

/-! ## The file with the definitions, and the others -/

namespace Emitter

variable (e : Emitter) (d : Decl)

/-- Whether the definitions of the constants, if there are any, stand after the body. -/
def definesInBody : Bool := !d.consts.isEmpty && !d.typeParams.isEmpty

/-- The files of a declaration before the one with the definitions. -/
def filesBefore : List Cpp.SourceFile := if definesInBody d then [] else [e.bodyFile d []]

/-- The file with the definitions, if there are constants. -/
def holders (defs : List Cpp.ConstDef) : List Cpp.SourceFile :=
  if d.consts.isEmpty then [] else [e.holder d defs]

/-- The files of a declaration after the one with the definitions. -/
def filesAfter : List Cpp.SourceFile :=
  (if definesInBody d then [e.companion d []] else []) ++ e.bridgeFiles d

variable {e d}

theorem declFiles_eq_ok {fs : List Cpp.SourceFile} (h : e.declFiles d = .ok fs) :
    ∃ defs, e.constDefs (e.scopeOf d) (e.templateOf d) = .ok defs ∧
      fs = e.filesBefore d ++ e.holders d defs ++ e.filesAfter d := by
  by_cases hkind : d.kind = .enum
  · obtain ⟨enum, hbody⟩ := Decl.exists_enum hkind
    have hconsts : d.consts = [] := by simp [Decl.consts, hbody]
    rw [declFiles, hbody] at h
    cases h
    refine ⟨[], ?_, ?_⟩
    · simp only [constDefs, scopeOf, hconsts]
      rfl
    · simp [filesBefore, holders, filesAfter, definesInBody, bodyFile, bridgeFiles, hconsts, hbody]
  · obtain ⟨defs, hdefs, hfs⟩ := declFiles_of_owner h hkind
    refine ⟨defs, hdefs, hfs.trans ?_⟩
    cases hconsts : d.consts.isEmpty with
    | true =>
        -- Without constants nothing is defined.
        have hnone : defs = [] := by
          obtain ⟨hlength, -⟩ := getElem?_of_constDefs hdefs
          rw [List.isEmpty_iff] at hconsts
          simpa [scopeOf, hconsts] using hlength
        simp [filesBefore, holders, filesAfter, definesInBody, hconsts, hnone]
    | false =>
        cases hparams : d.typeParams.isEmpty <;>
          simp [filesBefore, holders, filesAfter, definesInBody, holder, hconsts, hparams]

/-- Definitions stand nowhere else. -/
theorem constDefs_eq_nil {f : Cpp.SourceFile} (hf : f ∈ e.filesBefore d ++ e.filesAfter d) :
    f.constDefs = [] := by
  have hbody : (e.bodyFile d []).constDefs = [] := by
    cases hb : d.body <;> rw [bodyFile, hb] <;> rfl
  have hbridge : ∀ f ∈ e.bridgeFiles d, f.constDefs = [] := by
    cases hb : d.body with
    | enum _ => simp [bridgeFiles, hb]
    | interface _ => simp [bridgeFiles, hb]
    | record r =>
        simp only [bridgeFiles, hb, List.forall_mem_cons, List.not_mem_nil, false_imp_iff,
          implies_true, and_true]
        exact ⟨rfl, rfl⟩
  rw [filesBefore, filesAfter] at hf
  split at hf
  case isTrue =>
    rw [List.nil_append, List.singleton_append, List.mem_cons] at hf
    rcases hf with rfl | hf
    · rfl
    · exact hbridge f hf
  case isFalse =>
    rw [List.nil_append, List.singleton_append, List.mem_cons] at hf
    rcases hf with rfl | hf
    · exact hbody
    · exact hbridge f hf

theorem constDefs_ne_nil {defs : List Cpp.ConstDef} {f : Cpp.SourceFile}
    (hdefs : e.constDefs (e.scopeOf d) (e.templateOf d) = .ok defs) (hf : f ∈ e.holders d defs) :
    f.constDefs ≠ [] := by
  rw [holders] at hf
  split at hf
  case isTrue => cases hf
  case isFalse hconsts =>
    obtain ⟨hlength, -⟩ := getElem?_of_constDefs hdefs
    rw [List.mem_singleton.mp hf, constDefs_holder]
    rintro rfl
    exact hconsts (List.isEmpty_iff.mpr (List.eq_nil_of_length_eq_zero hlength.symm))

theorem length_holders (defs : List Cpp.ConstDef) :
    (e.holders d defs).length = if d.consts = [] then 0 else 1 := by
  rw [holders]
  by_cases hconsts : d.consts = []
  · simp [hconsts]
  · simp [hconsts]

/-- Where the definitions stand does not depend on what they are. -/
theorem map_path_holders (defs defs' : List Cpp.ConstDef) :
    (e.holders d defs).map (·.path) = (e.holders d defs').map (·.path) := by
  have hpath : (e.holder d defs).path = (e.holder d defs').path := by
    unfold holder
    split
    case isTrue => rfl
    case isFalse => rw [path_bodyFile, path_bodyFile]
  unfold holders
  split
  case isTrue => rfl
  case isFalse => simp [hpath]

/-! ## Emission with another registry -/

variable (e) in
/-- The emitter with another registry. -/
def withRegistry (r : Registry) : Emitter := { e with registry := r }

variable (r : Registry)

theorem filesBefore_registry : (e.withRegistry r).filesBefore d = e.filesBefore d := by
  unfold filesBefore bodyFile
  cases d.body <;> rfl

theorem filesAfter_registry : (e.withRegistry r).filesAfter d = e.filesAfter d := by
  unfold filesAfter bridgeFiles
  cases d.body <;> rfl

theorem holders_registry (defs : List Cpp.ConstDef) :
    (e.withRegistry r).holders d defs = e.holders d defs := by
  unfold holders holder bodyFile
  cases d.body <;> rfl

end Emitter

/-! ## Initializers in two documents -/

/-- The records that a type leads to through optionals and fields have the same fields in another
document. -/
def SameFields (doc doc' : Document) (t : TypeExpr) : Prop :=
  ∀ d ∈ doc.decls, ∀ r, d.body = .record r →
    ReflTransGen (Contains doc) t (.node (.declared ⟨d.name, .record⟩) []) →
    ∃ d' ∈ doc'.decls, d'.name = d.name ∧ ∃ r', d'.body = .record r' ∧ r'.fields = r.fields

theorem SameFields.of_reaches {doc doc' : Document} {t u : TypeExpr} (h : SameFields doc doc' t)
    (hu : ReflTransGen (Contains doc) t u) : SameFields doc doc' u :=
  fun d hd r hbody hreaches => h d hd r hbody (hu.trans hreaches)

theorem WellFormed.reaches_core {doc : Document} {params : List String} {t : TypeExpr}
    (hw : WellFormed doc params t) : ReflTransGen (Contains doc) t t.core := by
  induction t, hw using optionalInduction with
  | other h args _ hopt => rw [core_of_ne_optional hopt]
  | optional a _ _ ih =>
      rw [TypeExpr.core]
      exact ih.head .optional

namespace LiteralContext

/-- The same place, with another registry. -/
def withRegistry (ctx : LiteralContext) (r : Registry) : LiteralContext :=
  { ctx with registry := r }

variable {ctx : LiteralContext} {r : Registry} {init init' : Initializer}

theorem enumerator_eq_ok_spelled {name option : String}
    (h : ctx.enumerator name option = .ok init) :
    init = .enumerator (ctx.settings.nativeQualified name)
      (ctx.settings.nativeEnumOption option) := by
  unfold enumerator at h
  split at h
  next => exact (Except.ok.inj h).symm
  next => cases h

/-- A literal without parts is spelled in one way if it is accepted. -/
theorem plain_eq_plain {v : Literal} {t : TypeExpr} (h : ctx.plain v t = .ok init)
    (h' : (ctx.withRegistry r).plain v t = .ok init') : init = init' := by
  unfold plain at h h'
  split at h
  next p hhead =>
    rw [hhead] at h'
    exact Except.ok.inj ((primitive_congr h).symm.trans h')
  next => cases h
  next ref hhead =>
    rw [hhead] at h'
    split at h
    next option hkind =>
      simp only [hkind] at h'
      rw [enumerator_eq_ok_spelled h, enumerator_eq_ok_spelled h']
      rfl
    next => cases h
    next => cases h
  all_goals cases h

theorem reference_eq_ok_spelled {target : String} {t : TypeExpr}
    (h : ctx.reference target t = .ok init) :
    init = .constant ctx.scope.qualifier (ctx.settings.nativeConst target) := by
  unfold reference at h
  split at h
  next => cases h
  next =>
    split at h
    next => cases h
    next =>
      split at h
      next => exact (Except.ok.inj h).symm
      next => cases h

theorem arguments_eq_arguments {record : String} {fields : List Field}
    {entries : List (String × Literal)} {args args' : List (Initializer × String)}
    (hfields : ∀ f ∈ fields, ∀ v, NameMap.find? f.name entries = some v → ∀ i i',
      ctx.elaborate v f.type = .ok i →
      (ctx.withRegistry r).elaborate v f.type = .ok i' → i = i')
    (h : ctx.arguments record fields (ctx.elaborateAll entries) = .ok args)
    (h' : (ctx.withRegistry r).arguments record fields
      ((ctx.withRegistry r).elaborateAll entries) = .ok args') :
    args = args' := by
  refine eq_of_mapM_eq_ok h h' fun f hf a a' ha ha' => ?_
  rw [elaborateAll_eq, NameMap.find?_map] at ha ha'
  cases hfind : NameMap.find? f.name entries with
  | none => simp [hfind] at ha
  | some v =>
      simp only [hfind, Option.map_some] at ha ha'
      obtain ⟨i, hi, rfl⟩ := map_eq_ok.mp ha
      obtain ⟨i', hi', rfl⟩ := map_eq_ok.mp ha'
      rw [hfields f hf v hfind i i' hi hi']
      rfl

/-- A literal that is accepted in two documents is spelled in one way if the records that its type
leads to have the same fields in both. -/
theorem elaborate_eq_elaborate {doc doc' : Document} {params : List String} {v : Literal}
    {t : TypeExpr} (hdoc : Registry.Checked doc ctx.registry) (hbuild : Registry.build doc' = .ok r)
    (hw : WellFormed doc params t) (hsame : SameFields doc doc' t)
    (h : ctx.elaborate v t = .ok init)
    (h' : (ctx.withRegistry r).elaborate v t = .ok init') :
    init = init' := by
  induction v using Literal.referenceInduction generalizing params t init init' with
  | constRef target =>
      rw [elaborate] at h h'
      rw [reference_eq_ok_spelled h, reference_eq_ok_spelled h']
      rfl
  | other v hv hrec =>
      rw [elaborate_of_not_record hv hrec] at h h'
      exact plain_eq_plain h h'
  | record entries ih =>
      rcases ctx.elaborate_record with ⟨name, hhead, hvalue⟩ | ⟨hhead, hvalue⟩
      · obtain ⟨hcore, b, hb⟩ := hdoc.record_of_head hw.core.1 hhead
        obtain ⟨d, hd, rfl, hbody⟩ := (Registry.record?_eq_some_iff hdoc.build).mp hb
        have hreaches : ReflTransGen (Contains doc) t (.node (.declared ⟨d.name, .record⟩) []) :=
          hcore ▸ hw.reaches_core
        obtain ⟨d', hd', hname, b', hbody', hfields⟩ := hsame d hd b hbody hreaches
        have hb' : r.record? d.name = some b' :=
          (Registry.record?_eq_some_iff hbuild).mpr ⟨d', hd', hname, hbody'⟩
        rcases (ctx.withRegistry r).elaborate_record with
          ⟨name, hhead', hvalue'⟩ | ⟨hhead', -⟩
        · obtain rfl : d.name = name := by simpa using hhead.symm.trans hhead'
          rw [hvalue] at h
          rw [hvalue'] at h'
          obtain ⟨args, hargs, rfl⟩ := construct_eq_ok hb h
          obtain ⟨args', hargs', rfl⟩ := construct_eq_ok hb' h'
          rw [hfields] at hargs'
          have hargs_eq : args = args' := by
            refine arguments_eq_arguments (fun f hf v hfind i i' hi hi' => ?_) hargs hargs'
            exact ih (f.name, v) (NameMap.mem_of_find? hfind) (hdoc.fieldType hb hf)
              (hsame.of_reaches (hreaches.tail (.field hd hbody hf))) hi hi'
          rw [hargs_eq]
          rfl
        · exact absurd hhead (hhead' d.name)
      · rcases (ctx.withRegistry r).elaborate_record with
          ⟨name, hhead', -⟩ | ⟨-, hvalue'⟩
        · exact absurd hhead' (hhead name)
        · rw [hvalue] at h
          rw [hvalue'] at h'
          exact plain_eq_plain h h'

end LiteralContext

/-- Constants that can be defined in two documents are defined in one way if the records that their
types lead to have the same fields in both. -/
theorem Emitter.constDefs_eq_constDefs {e : Emitter} {r : Registry} {doc doc' : Document}
    {params : List String} {scope : ConstScope} {template : Option Cpp.Template}
    {defs defs' : List Cpp.ConstDef} (hdoc : Registry.Checked doc e.registry)
    (hbuild : Registry.build doc' = .ok r)
    (hw : ∀ c ∈ scope.consts, WellFormed doc params c.type)
    (hsame : ∀ c ∈ scope.consts, SameFields doc doc' c.type)
    (h : e.constDefs scope template = .ok defs)
    (h' : (e.withRegistry r).constDefs scope template = .ok defs') :
    defs = defs' := by
  refine eq_of_mapM_eq_ok h h' fun p hp b b' hb hb' => ?_
  have hc : p.1 ∈ scope.consts := List.fst_mem_of_mem_zipIdx hp
  obtain ⟨value, hvalue, hb⟩ := bind_eq_ok.mp hb
  obtain ⟨value', hvalue', hb'⟩ := bind_eq_ok.mp hb'
  have hregistry : Registry.Checked doc (e.literalContext scope p.2 p.1.name).registry := hdoc
  have hvalues : value = value' := LiteralContext.elaborate_eq_elaborate hregistry hbuild (hw _ hc)
    (hsame _ hc) hvalue hvalue'
  subst hvalues
  exact Except.ok.inj (hb.symm.trans hb')

/-! ## The files of one declaration in two runs -/

/-- In two runs over documents of one origin, a declaration that is in both has the same files apart
from the one that holds the definitions of its constants. That one, too, is the same if all records
that the types of the constants lead to, through fields and optionals, have the same fields in both
documents. -/
theorem files_depend_on_own_declaration (g : Generator) {doc doc' : Document}
    {artifacts artifacts' : List Artifact} {d : Decl} (horigin : doc.origin = doc'.origin)
    (h : g.generate doc = .ok artifacts) (h' : g.generate doc' = .ok artifacts')
    (hd : d ∈ doc.decls) (hd' : d ∈ doc'.decls) :
    ∃ files files', g.files doc = .ok files ∧ artifacts = files.map (·.file.artifact) ∧
      g.files doc' = .ok files' ∧ artifacts' = files'.map (·.file.artifact) ∧
      ∃ before after holders holders',
        filesOf d.name files = before ++ holders ++ after ∧
        filesOf d.name files' = before ++ holders' ++ after ∧
        (∀ f ∈ before ++ after, f.constDefs = []) ∧
        (∀ f ∈ holders ++ holders', f.constDefs ≠ []) ∧
        holders.length = (if d.consts = [] then 0 else 1) ∧
        holders.map (·.path) = holders'.map (·.path) ∧
        ((∀ c ∈ d.consts, SameFields doc doc' c.type) → holders = holders') := by
  obtain ⟨r, blocks, hrun, hfiles, rfl⟩ := Generator.exists_run h
  obtain ⟨r', blocks', hrun', hfiles', rfl⟩ := Generator.exists_run h'
  refine ⟨_, _, hfiles, rfl, hfiles', rfl, ?_⟩
  obtain ⟨defs, hdefs, hown⟩ := Emitter.declFiles_eq_ok (hrun.declFiles_filesOf hd)
  obtain ⟨defs', hdefs', hown'⟩ := Emitter.declFiles_eq_ok (hrun'.declFiles_filesOf hd')
  -- The two runs emit alike but for the registry.
  have hemitter : g.emitterOf doc' r' = (g.emitterOf doc r).withRegistry r' := by
    simp [Generator.emitterOf, Emitter.withRegistry, horigin]
  rw [hemitter] at hdefs' hown'
  rw [Emitter.filesBefore_registry, Emitter.holders_registry, Emitter.filesAfter_registry] at hown'
  refine ⟨_, _, _, _, hown, hown', fun f hf => Emitter.constDefs_eq_nil hf, fun f hf => ?_,
    Emitter.length_holders defs, Emitter.map_path_holders defs defs', fun hsame => ?_⟩
  · rcases List.mem_append.mp hf with hf | hf
    · exact Emitter.constDefs_ne_nil hdefs hf
    · rw [← Emitter.holders_registry r'] at hf
      exact Emitter.constDefs_ne_nil hdefs' hf
  · have hdoc : Registry.Checked doc (g.emitterOf doc r).registry := hrun.checked
    rw [Emitter.constDefs_eq_constDefs hdoc hrun'.build (Emitter.wellFormed_const hdoc hd) hsame
      hdefs hdefs']

namespace Sample

/-- A document that has `line` in common with `doc`. The enum has one more option and the record
of the ends is extended by hand, but its fields are the same. -/
def extended : Document where
  decls := [
    ⟨"color", [], .enum { options := [⟨"blue", []⟩, ⟨"red", []⟩, ⟨"green", []⟩] }⟩,
    ⟨"dot", [], .record {
      fields := [⟨"tint", [], .node (.declared ⟨"color", .enum⟩) []⟩,
        ⟨"size", [], .node .optional [.node (.primitive .f64) []]⟩]
      ext := { native := true } }⟩,
    line]

end Sample

open Sample in
theorem line_files_eq :
    doc.origin = extended.origin ∧ line ∈ doc.decls ∧ line ∈ extended.decls ∧
      (∀ c ∈ line.consts, SameFields doc extended c.type) ∧
      ∃ files files', (Generator.standard {}).files doc = .ok files ∧
        (Generator.standard {}).files extended = .ok files' ∧
        filesOf "line" files = filesOf "line" files' ∧ (filesOf "line" files).length = 4 := by
  have horigin : doc.origin = extended.origin := rfl
  have hline : line ∈ doc.decls := by simp [doc]
  have hline' : line ∈ extended.decls := by simp [extended]
  have hrun : ((Generator.standard {}).files doc).toOption.map
      (fun files => (filesOf "line" files).length) = some 4 := by
    decide +kernel
  have hrun' : ((Generator.standard {}).files extended).toOption.map
      (fun files => (filesOf "line" files).length) = some 4 := by
    decide +kernel
  obtain ⟨files, hfiles, hlength⟩ := toOption_map_eq_some.mp hrun
  obtain ⟨files', hfiles', -⟩ := toOption_map_eq_some.mp hrun'
  have hsame : ∀ c ∈ line.consts, SameFields doc extended c.type := by
    intro c _ d hd r hbody _
    simp only [doc, List.mem_cons, List.not_mem_nil, or_false] at hd
    rcases hd with rfl | rfl | rfl
    · exact ⟨line, hline', rfl, r, hbody, rfl⟩
    · cases hbody
      exact ⟨_, List.mem_cons_of_mem _ List.mem_cons_self, rfl, _, rfl, rfl⟩
    · cases hbody
  obtain ⟨_, _, hfiles₁, -, hfiles₁', -, _, _, _, _, hown, hown', -, -, -, -, hholders⟩ :=
    files_depend_on_own_declaration (Generator.standard {}) horigin
      (map_eq_ok.mpr ⟨files, hfiles, rfl⟩) (map_eq_ok.mpr ⟨files', hfiles', rfl⟩) hline hline'
  obtain rfl := Except.ok.inj (hfiles.symm.trans hfiles₁)
  obtain rfl := Except.ok.inj (hfiles'.symm.trans hfiles₁')
  refine ⟨horigin, hline, hline', hsame, files, files', hfiles, hfiles', ?_, hlength⟩
  show filesOf line.name files = filesOf line.name files'
  rw [hown, hown', hholders hsame]

end IdlBinder

import IdlBinder.Proofs.Emission
import IdlBinder.Proofs.NativeNeeds
import IdlBinder.Proofs.References

set_option autoImplicit false

/-!
# Include lines resolve

Every quoted include line of a generated file, but the one of the conversion library, names a header
that is there: one that the same run generates, or one of the two that are written by hand for a
record that is extended. The include lines are read off the layout that a file's text is written
from; what they name comes from the needs of well-formed types, and these are declared.
-/

namespace IdlBinder

open Traversal

/-! ## Include lines of a layout -/

namespace Code

mutual

/-- The targets of the include lines in a piece of program text. -/
@[simp] def targets : Code → List String
  | includes l => l
  | block _ body | typeBlock _ body | inNamespace _ body => targetsAll body
  | line _ | blank | margin | indent | dedent | doc _ => []

/-- The targets of the include lines in pieces of program text. -/
@[simp] def targetsAll : List Code → List String
  | [] => []
  | c :: rest => c.targets ++ targetsAll rest

end

theorem targetsAll_eq_flatMap (l : List Code) : targetsAll l = l.flatMap targets := by
  induction l with
  | nil => rfl
  | cons c l ih => rw [targetsAll, ih, List.flatMap_cons]

@[simp] theorem targetsAll_append (l m : List Code) :
    targetsAll (l ++ m) = targetsAll l ++ targetsAll m := by
  simp [targetsAll_eq_flatMap]

@[simp] theorem targetsAll_map_line (l : List String) : targetsAll (l.map line) = [] := by
  simp [targetsAll_eq_flatMap]

/-- The blank lines between groups include nothing. -/
@[simp] theorem targetsAll_separated (groups : List (List Code)) :
    targetsAll (separated groups) = groups.flatMap targetsAll := by
  induction groups using separated.induct with
  | case1 => rfl
  | case2 c => simp [separated]
  | case3 c d rest ih => simp [separated, ih]

theorem targetsAll_flatMap_eq_nil {α : Type} {l : List α} {f : α → List Code}
    (h : ∀ a ∈ l, targetsAll (f a) = []) : targetsAll (l.flatMap f) = [] := by
  rw [targetsAll_eq_flatMap, List.flatMap_assoc, List.flatMap_eq_nil_iff]
  intro a ha
  rw [← targetsAll_eq_flatMap, h a ha]

end Code

namespace Cpp

open Code

theorem targetsAll_templateLine (t : Option Template) : targetsAll (templateLine t) = [] := by
  cases t <;> rfl

theorem targetsAll_consts (l : List ConstDecl) : targetsAll (l.flatMap ConstDecl.code) = [] :=
  targetsAll_flatMap_eq_nil fun _ _ => rfl

theorem StructDef.targetsAll_initLines (l : List MemberInit) : targetsAll (initLines l) = [] := by
  cases l with
  | nil => rfl
  | cons i rest => simp [initLines, targetsAll_eq_flatMap, initLine]

theorem StructDef.targetsAll_sections (d : StructDef) :
    ∀ l ∈ d.sections, targetsAll l = [] := by
  have hmembers : targetsAll
      (d.members.flatMap fun m => [.doc m.doc, .line (m.type ++ " " ++ m.name ++ ";")]) = [] :=
    targetsAll_flatMap_eq_nil fun _ _ => rfl
  have hctor : targetsAll d.ctorCode = [] := by
    simp [ctorCode, targetsAll_initLines]
  simp only [sections, List.forall_mem_cons, targetsAll_consts, hmembers, true_and]
  refine ⟨?_, ?_, by simp⟩
  · split <;> simp [hctor]
  · split <;> rfl

theorem ClassDef.targetsAll_sections (d : ClassDef) :
    ∀ l ∈ d.sections, targetsAll l = [] := by
  intro l hl
  simp only [sections, List.mem_cons, List.mem_append, List.mem_map] at hl
  rcases hl with rfl | hl | ⟨m, -, rfl⟩
  · rfl
  · split at hl
    · simp at hl
    · rw [List.mem_singleton.mp hl, targetsAll_consts]
  · rfl

/-- A layout of groups includes nothing when no group does. -/
theorem targetsAll_separated_eq_nil {groups : List (List Code)}
    (h : ∀ l ∈ groups, targetsAll l = []) : targetsAll (separated groups) = [] := by
  rw [targetsAll_separated, List.flatMap_eq_nil_iff]
  exact h

theorem targetsAll_chainCode (chain : List String) : targetsAll (chainCode chain) = [] := by
  rw [chainCode]
  split
  · rfl
  · simp

/-- Items include nothing; the include lines of a file stand before them. -/
theorem Item.targetsAll_code (i : Item) : targetsAll i.code = [] := by
  cases i with
  | enumClass d =>
      have hoptions : targetsAll
          (d.enumerators.flatMap fun o => [.doc o.doc, .line (o.name ++ ",")]) = [] :=
        targetsAll_flatMap_eq_nil fun _ _ => rfl
      simp [code, EnumClass.code, hoptions]
  | struct d =>
      have hsections : targetsAll (separated (d.sections.filter (!·.isEmpty))) = [] :=
        targetsAll_separated_eq_nil fun l hl => d.targetsAll_sections l (List.mem_filter.mp hl).1
      simp only [code, StructDef.code, targetsAll, targets, hsections, List.append_nil]
  | abstractClass d =>
      have hsections := targetsAll_separated_eq_nil d.targetsAll_sections
      simp only [code, ClassDef.code, targetsAll, targets, targetsAll_append,
        targetsAll_templateLine, hsections, List.append_nil]
  | const d => simp [code, ConstDef.code, targetsAll_templateLine]
  | bridge d => rfl
  | toNative d =>
      simp only [code, ToNativeDef.code, targetsAll, targets, List.append_nil, List.nil_append]
      split
      · rfl
      · simp
  | toComponent d =>
      simp only [code, ToComponentDef.code, targetsAll, targets, targetsAll_append,
        targetsAll_chainCode, List.append_nil]
      split <;> rfl

namespace SourceFile

theorem targetsAll_body (f : SourceFile) : targetsAll f.body = f.includes := by
  have hincludes : targetsAll f.includeCode = f.includes := by
    rw [includeCode]
    split
    · simp_all
    · simp
  have hforwards : targetsAll f.forwardCode = [] := by
    rw [forwardCode]
    split <;> simp
  have hitems : targetsAll f.itemCode = [] := by
    have hgroups : targetsAll (separated (f.items.map Item.code)) = [] := by
      apply targetsAll_separated_eq_nil
      intro l hl
      obtain ⟨i, -, rfl⟩ := List.mem_map.mp hl
      exact i.targetsAll_code
    rw [itemCode]
    split
    · rfl
    · simp [hforwards, hgroups]
  have hhash : targetsAll f.hashCode = [] := by
    rw [hashCode]
    split <;> rfl
  rw [body, targetsAll_append, targetsAll_append, hincludes, hitems, hhash]
  simp

/-- The include lines of a file name exactly what the file includes. -/
theorem targetsAll_code (f : SourceFile) : targetsAll f.code = f.allIncludes := by
  have hpreamble : targetsAll f.preamble = f.ownHeader.toList := by
    cases hown : f.ownHeader <;> simp [preamble, hown]
  have hbody := f.targetsAll_body
  rw [code, targetsAll_append, hpreamble, allIncludes]
  split
  -- A file without a body has nothing to include but the header it belongs to.
  case isTrue hempty =>
    rw [List.isEmpty_iff.mp hempty] at hbody
    rw [← hbody]
  case isFalse => simp [hbody]

end SourceFile

end Cpp

/-! ## Quoted targets -/

/-- A target in quotation marks, not in angle brackets. -/
def Quoted (target : String) : Prop := target.toList.head? = some '"'

instance (target : String) : Decidable (Quoted target) :=
  inferInstanceAs (Decidable (target.toList.head? = some '"'))

theorem Settings.not_quoted_projectionHeader (s : Settings) : ¬ Quoted s.projectionHeader := by
  rw [projectionHeader]
  split
  · decide
  · simp [Quoted]

theorem Settings.quoted_includeTarget (s : Settings) (stem : String) :
    Quoted (s.includeTarget stem) := by
  simp [Quoted, includeTarget]

theorem Settings.includeTarget_inj {s : Settings} {stem stem' : String}
    (h : s.includeTarget stem = s.includeTarget stem') : stem = stem' := by
  simpa [includeTarget] using h

/-- A target in angle brackets. -/
def Angled (target : String) : Prop := target.toList.head? = some '<'

theorem Angled.not_quoted {target : String} (h : Angled target) : ¬ Quoted target := by
  intro hq
  rw [Quoted, h] at hq
  cases hq

theorem Native.angled_of_mem_standardHeaders {name header : String}
    (h : (name, header) ∈ standardHeaders) : Angled header := by
  have hall : standardHeaders.all (fun p => p.2.toList.head? == some '<') = true := by decide
  simpa [Angled] using List.all_eq_true.mp hall _ h

variable {s : Settings} {target : String} {n : TypeExpr} {role : FileRole} {owner : Option String}

/-- On the native side, a quoted target stands for a declaration that the type names. -/
theorem Native.quoted_mem_needs_iff (hq : Quoted target) :
    .inclusion target ∈ needs s n role owner ↔
      ∃ ref, n.head = .declared ref ∧ ref.IsIncluded role owner ∧
        target = s.includeTarget (s.fileStem ref.name) := by
  rw [mem_needs_iff]
  simp only [Need.inclusion.injEq, reduceCtorEq, and_false, exists_false, or_false]
  constructor
  · rintro (⟨name, -, header, hheader, rfl⟩ | href)
    · exact absurd hq (angled_of_mem_standardHeaders hheader).not_quoted
    · exact href
  · exact Or.inr

/-- On the component side, a quoted target stands for a record that the type names. -/
theorem Component.exists_ref_of_quoted (h : .inclusion target ∈ needs s n role owner)
    (hq : Quoted target) :
    ∃ ref, n.head = .declared ref ∧ ref.kind = .record ∧
      target = s.includeTarget (s.bridgeFileStem ref.name {}) := by
  have hprojection : target ≠ s.projectionHeader := by
    rintro rfl
    exact s.not_quoted_projectionHeader hq
  obtain ⟨head, args⟩ := n
  cases head with
  | primitive p =>
      have hstandard : target = baseHeader ∨ target = foundationHeader := by
        cases p <;> simp [needs, TypeExpr.head] at h <;> simp [h]
      rcases hstandard with rfl | rfl <;> exact absurd hq (by decide)
  | optional | list | set | map =>
      cases List.mem_singleton.mp h
      exact absurd hq (by decide)
  | param name => cases h
  | declared ref =>
      simp only [needs, TypeExpr.head, List.mem_cons, Need.inclusion.injEq, hprojection,
        false_or] at h
      split at h
      case isTrue hrecord =>
        cases List.mem_singleton.mp h
        exact ⟨ref, rfl, hrecord.1, rfl⟩
      case isFalse => cases h

/-! ## Headers that are there -/

/-- The stem of a header that is there after a run which writes to some paths: the header is one of
the files, or it is written by hand for a record that is extended. Such a record has its plain
native header from the hand that extends it on the native side, and its plain bridge from the hand
that extends it on either side. -/
inductive Provided (s : Settings) (doc : Document) (paths : List Path) : String → Prop where
  | generated {stem : String} : s.headerPath stem ∈ paths → Provided s doc paths stem
  | nativeByHand {d : Decl} {r : Record} :
      d ∈ doc.decls → d.body = .record r → r.ext.native = true →
      Provided s doc paths (s.fileStem d.name)
  | bridgeByHand {d : Decl} {r : Record} :
      d ∈ doc.decls → d.body = .record r → r.ext.any = true →
      Provided s doc paths (s.bridgeFileStem d.name {})

namespace Generator.Run

variable {doc : Document} {r : Registry} {blocks : List (Decl × List Cpp.SourceFile)} {d : Decl}
variable (hrun : (standard s).Run doc r blocks)
include hrun

/-- Every declaration has its plain native header. -/
theorem provided_fileStem (hd : d ∈ doc.decls) :
    Provided s doc (pathsOf blocks) (s.fileStem d.name) := by
  have hgenerated : s.fileStem d.name ∈ s.headerStems d →
      Provided s doc (pathsOf blocks) (s.fileStem d.name) :=
    fun hstem => .generated (hrun.headerPath_mem hd hstem)
  cases hbody : d.body with
  | enum enum => exact hgenerated (by simp [Settings.headerStems, hbody])
  | interface i => exact hgenerated (by simp [Settings.headerStems, hbody])
  | record b =>
      by_cases hext : b.ext.native = true
      · exact .nativeByHand hd hbody hext
      · -- The generated header has the plain stem.
        have hstem : s.recordFileStem d.name b.ext = s.fileStem d.name := by
          simp [Settings.recordFileStem, Settings.recordBase, Settings.fileStem, hext]
        exact hgenerated (by simp [Settings.headerStems, hbody, hstem])

/-- Every record has its plain bridge header. -/
theorem provided_bridgeFileStem (hd : d ∈ doc.decls) {b : Record} (hbody : d.body = .record b) :
    Provided s doc (pathsOf blocks) (s.bridgeFileStem d.name {}) := by
  by_cases hext : b.ext.any = true
  · exact .bridgeByHand hd hbody hext
  · have hplain : Extension.any {} = false := rfl
    have hstem : s.bridgeFileStem d.name b.ext = s.bridgeFileStem d.name {} := by
      simp [Settings.bridgeFileStem, Settings.bridgeBase, hext, hplain]
    refine .generated (hrun.headerPath_mem hd ?_)
    show s.bridgeFileStem d.name {} ∈ s.headerStems d
    simp [Settings.headerStems, hbody, hstem]

end Generator.Run

/-! ## The include lines of a run -/

/-- A target stands for a header that is there. -/
def Resolves (s : Settings) (doc : Document) (paths : List Path) (target : String) : Prop :=
  ∃ stem, target = s.includeTarget stem ∧ Provided s doc paths stem

theorem Emitter.mem_allIncludes_header {e : Emitter} {stem : String} {refs : References}
    {items : List Cpp.Item} :
    target ∈ (e.header stem refs items).allIncludes ↔ .inclusion target ∈ refs := Iff.rfl

theorem Emitter.mem_allIncludes_source {e : Emitter} {stem : String} {includes : List String}
    {items : List Cpp.Item} :
    target ∈ (e.source stem includes items).allIncludes ↔
      target = e.settings.includeTarget stem ∨ target ∈ includes := by
  simp [source, Cpp.SourceFile.allIncludes]

/-- An enum includes standard headers only. -/
theorem Emitter.not_quoted_of_mem_enumReferences {e : Emitter}
    (h : .inclusion target ∈ e.enumReferences) : ¬ Quoted target := by
  have hstandard : target = "<functional>" ∨ target = "<cstdint>" := by
    rw [enumReferences] at h
    split at h <;> simp at h <;> simp [h]
  rcases hstandard with rfl | rfl <;> decide

theorem Emitter.mem_collectAll_of_mem_structReferences {e : Emitter} {d : Decl} {b : Record}
    (h : .inclusion target ∈ e.structReferences d b) (hq : Quoted target) :
    .inclusion target ∈ References.collectAll e.native.needs .header (some d.name) b.types := by
  rw [structReferences] at h
  split at h
  · exact h
  · rcases References.mem_addInclude.mp h with hutility | h
    · cases hutility
      exact absurd hq (by decide)
    · exact h

namespace Generator.Run

variable {doc : Document} {r : Registry} {blocks : List (Decl × List Cpp.SourceFile)} {d : Decl}
variable (hrun : (standard s).Run doc r blocks)
include hrun

/-- What the native side needs for types of a declaration is there. -/
theorem resolves_native (hd : d ∈ doc.decls) {types : List TypeExpr}
    (htypes : ∀ t ∈ types, t ∈ d.types)
    (h : .inclusion target ∈ References.collectAll (Native.needs s) role owner types)
    (hq : Quoted target) : Resolves s doc (pathsOf blocks) target := by
  obtain ⟨-, t, ht, n, hn, hneed⟩ := References.mem_collectAll.mp h
  obtain ⟨ref, hhead, -, rfl⟩ := (Native.quoted_mem_needs_iff hq).mp hneed
  have hw := (hrun.checked.types d hd t (htypes t ht)).of_mem_nodes hn
  obtain ⟨named, hnamed, hname, -, -⟩ := hw.exists_decl hhead
  rw [← hname]
  exact ⟨_, rfl, hrun.provided_fileStem hnamed⟩

/-- What the component side needs for types of a declaration is there. -/
theorem resolves_component (hd : d ∈ doc.decls) {types : List TypeExpr}
    (htypes : ∀ t ∈ types, t ∈ d.types)
    (h : .inclusion target ∈ References.collectAll (Component.needs s) role owner types)
    (hq : Quoted target) : Resolves s doc (pathsOf blocks) target := by
  obtain ⟨-, t, ht, n, hn, hneed⟩ := References.mem_collectAll.mp h
  obtain ⟨ref, hhead, hrecord, rfl⟩ := Component.exists_ref_of_quoted hneed hq
  have hw := (hrun.checked.types d hd t (htypes t ht)).of_mem_nodes hn
  obtain ⟨named, hnamed, hname, hkind, -⟩ := hw.exists_decl hhead
  obtain ⟨b, hbody⟩ := Decl.exists_record (hkind.trans hrecord)
  rw [← hname]
  exact ⟨_, rfl, hrun.provided_bridgeFileStem hnamed hbody⟩

/-- A source finds the header it belongs to. -/
theorem resolves_own (hd : d ∈ doc.decls) {stem : String} (hstem : stem ∈ s.headerStems d) :
    Resolves s doc (pathsOf blocks) (s.includeTarget stem) :=
  ⟨stem, rfl, .generated (hrun.headerPath_mem hd hstem)⟩

/-- Every quoted target of a file stands for a header that is there or is the conversion library. -/
theorem resolves_of_mem_allIncludes (hd : d ∈ doc.decls) {f : Cpp.SourceFile}
    (hf : ((standard s).emitterOf doc r).Emits d f) (ht : target ∈ f.allIncludes)
    (hq : Quoted target) (hsupport : target ≠ s.supportTarget) :
    Resolves s doc (pathsOf blocks) target := by
  cases hf with
  | enumHeader hbody => exact absurd hq (Emitter.not_quoted_of_mem_enumReferences ht)
  | classHeader consts hbody =>
      exact hrun.resolves_native hd (fun t h => by simpa [Decl.types, hbody] using h)
        (Emitter.mem_allIncludes_header.mp ht) hq
  | classSource consts hbody =>
      rcases Emitter.mem_allIncludes_source.mp ht with rfl | h
      · exact hrun.resolves_own hd (by simp [Settings.headerStems, hbody])
      · cases h
  | structHeader hbody =>
      have hneed := Emitter.mem_collectAll_of_mem_structReferences
        (Emitter.mem_allIncludes_header.mp ht) hq
      exact hrun.resolves_native hd (fun t h => by simpa [Decl.types, hbody] using h) hneed hq
  | structSource hbody hsource =>
      obtain ⟨consts, rfl⟩ := Emitter.structSource_eq_ok hsource
      rcases Emitter.mem_allIncludes_source.mp ht with rfl | h
      · exact hrun.resolves_own hd (by simp [Settings.headerStems, hbody])
      · cases h
  | bridgeHeader hbody =>
      replace ht := Emitter.mem_allIncludes_header.mp ht
      simp only [Emitter.bridgeDeclReferences, References.mem_addInclude, References.notMem_empty,
        Need.inclusion.injEq, or_false] at ht
      rcases ht with rfl | rfl
      · exact absurd hq s.not_quoted_projectionHeader
      · exact ⟨_, rfl, hrun.provided_fileStem hd⟩
  | @bridgeSource b hbody =>
      have hfields : ∀ t ∈ b.fields.map (·.type), t ∈ d.types := by
        intro t h
        simp only [Decl.types, hbody, Record.types, List.mem_append]
        exact Or.inl h
      rcases Emitter.mem_allIncludes_source.mp ht with rfl | h
      · exact hrun.resolves_own hd (by simp [Settings.headerStems, hbody])
      · replace h := References.inclusion_mem.mpr h
        simp only [Emitter.bridgeReferences, References.mem_addInclude, References.mem_merge,
          Need.inclusion.injEq] at h
        rcases h with rfl | rfl | hnative | hcomponent
        · exact absurd rfl hsupport
        · exact absurd hq (by decide)
        · exact hrun.resolves_native hd hfields hnative hq
        · exact hrun.resolves_component hd hfields hcomponent hq

end Generator.Run

/-- After a run with the standard marshals, every quoted target of an include line, but the one of
the conversion library, is the target of a header that the run generates or of one that is written
by hand for a record that is extended. -/
theorem quoted_include_resolves (s : Settings) {doc : Document} {artifacts : List Artifact}
    (h : (Generator.standard s).generate doc = .ok artifacts) :
    ∃ files, (Generator.standard s).files doc = .ok files ∧
      artifacts = files.map (·.file.artifact) ∧
      ∀ f ∈ files, ∀ target ∈ Code.targetsAll f.file.code, Quoted target →
        target ≠ s.supportTarget →
        ∃ stem, target = s.includeTarget stem ∧ Provided s doc (artifacts.map (·.path)) stem := by
  rw [Generator.generate, map_eq_ok] at h
  obtain ⟨files, hfiles, rfl⟩ := h
  refine ⟨files, hfiles, rfl, ?_⟩
  obtain ⟨r, blocks, hrun, rfl⟩ := Generator.files_eq_ok_iff.mp hfiles
  intro f hf target ht hq hsupport
  rw [Cpp.SourceFile.targetsAll_code] at ht
  obtain ⟨d, hd, hemits⟩ := hrun.exists_emits hf
  rw [map_path_artifact_ownedFiles]
  exact hrun.resolves_of_mem_allIncludes hd hemits ht hq hsupport

namespace Sample

/-- A record that is finished by hand on the native side. -/
def shape : Decl := ⟨"shape", [], .record { ext := { native := true } }⟩

def canvas : Decl :=
  ⟨"canvas", [], .interface {
    methods := [{
      name := "draw"
      params := [⟨"what", [], .node (.declared ⟨"shape", .record⟩) []⟩] }] }⟩

def drawing : Decl :=
  ⟨"drawing", [], .record {
    fields := [⟨"parts", [], .node .list [.node (.declared ⟨"shape", .record⟩) []]⟩,
      ⟨"target", [], .node (.declared ⟨"canvas", .interface⟩) []⟩] }⟩

/-- A document one of whose bridges needs a generated header and both kinds written by hand. -/
def drawings : Document := { decls := [shape, canvas, drawing] }

/-- The quoted targets of the bridge of a drawing, without the conversion library. -/
def bridgeTargets : List String :=
  ["\"drawing_bridge.hpp\"", "\"canvas.hpp\"", "\"shape.hpp\"", "\"shape_bridge.hpp\""]

end Sample

open Sample in
theorem drawings_include_resolves :
    ∃ artifacts, (Generator.standard {}).generate drawings = .ok artifacts ∧
      ∃ files, (Generator.standard {}).files drawings = .ok files ∧
        (∃ f ∈ files, ∀ target ∈ bridgeTargets, target ∈ Code.targetsAll f.file.code) ∧
        ∀ target ∈ bridgeTargets,
          ∃ stem, target = Settings.includeTarget {} stem ∧
            Provided {} drawings (artifacts.map (·.path)) stem := by
  have hrun : ((Generator.standard {}).files drawings).toOption.any (fun files =>
      files.any fun f => bridgeTargets.all (· ∈ Code.targetsAll f.file.code)) = true := by
    decide +kernel
  cases hfiles : (Generator.standard {}).files drawings with
  | error err => simp [hfiles, Except.toOption] at hrun
  | ok files =>
      simp only [hfiles, Except.toOption, Option.any_some, List.any_eq_true, List.all_eq_true,
        decide_eq_true_eq] at hrun
      obtain ⟨f, hf, htargets⟩ := hrun
      have hgenerate : (Generator.standard {}).generate drawings =
          .ok (files.map (·.file.artifact)) := by
        rw [Generator.generate, hfiles]
        rfl
      refine ⟨_, hgenerate, files, rfl, ⟨f, hf, htargets⟩, ?_⟩
      obtain ⟨files', hfiles', -, hresolves⟩ := quoted_include_resolves {} hgenerate
      obtain rfl : files = files' := Except.ok.inj (hfiles.symm.trans hfiles')
      have hquoted : ∀ target ∈ bridgeTargets,
          Quoted target ∧ target ≠ Settings.supportTarget {} := by
        decide
      intro target ht
      exact hresolves f hf target (htargets target ht) (hquoted target ht).1 (hquoted target ht).2

end IdlBinder

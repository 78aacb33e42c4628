import IdlBinder.Proofs.CamelCase
import IdlBinder.Proofs.Emission

set_option autoImplicit false

/-!
# Names of generated types

A run refuses two files at one place, and asks nothing of the types in them. Every type stands in a
header that is named after the same identifier, in camel case where the header is in snake case.
From this `types_named_apart` concludes that no two types have one name whose identifiers are
legible in camel case. `foo1_defined_twice` is a document in which two others do.
-/

namespace IdlBinder

open Traversal Name

/-! ## The types of a declaration -/

/-- The identifiers that the types of a declaration are named after. -/
def Settings.typeIdents (s : Settings) (d : Decl) : List String :=
  match d.body with
  | .enum _ | .interface _ => [d.name]
  | .record r => [s.recordBase d.name r.ext, s.bridgeBase d.name r.ext]

/-- The name of the type that an item defines, if it defines one. -/
def Cpp.Item.typeName? : Cpp.Item → Option String
  | .enumClass d => some d.name
  | .struct d => some d.name
  | .abstractClass d => some d.name
  | .bridge d => some d.name
  | .const _ | .toNative _ | .toComponent _ => none

/-- The names of the types that a file defines. -/
def Cpp.SourceFile.typeNames (f : Cpp.SourceFile) : List String := f.items.filterMap Item.typeName?

theorem filterMap_typeName?_const (consts : List Cpp.ConstDef) :
    (consts.map Cpp.Item.const).filterMap Cpp.Item.typeName? = [] := by
  simp [List.filterMap_map, Function.comp_def, Cpp.Item.typeName?]

namespace Emitter

variable {e : Emitter} {d : Decl} {fs : List Cpp.SourceFile}

/-- Sources define constants and no types. -/
theorem typeNames_of_structSource {r : Record} {f : Cpp.SourceFile}
    (h : e.structSource d r = .ok f) : f.typeNames = [] := by
  obtain ⟨consts, rfl⟩ := structSource_eq_ok h
  exact filterMap_typeName?_const consts

/-- The files of a declaration define one type for each of the identifiers, in order. Each type
stands in a header that is named after the same identifier. -/
theorem typeNames_of_declFiles (h : e.declFiles d = .ok fs) :
    fs.flatMap (·.typeNames) =
        (e.settings.typeIdents d).map e.settings.nativeStyles.type.apply ∧
      ((e.settings.typeIdents d).map fun ident =>
        e.settings.headerPath (e.settings.nativeStyles.file.apply ident)).Sublist
        (fs.map (·.path)) := by
  rw [declFiles] at h
  split at h
  case h_1 enum hbody =>
    cases h
    rw [Settings.typeIdents, hbody]
    exact ⟨rfl, .refl _⟩
  case h_2 r hbody =>
    obtain ⟨sources, rfl, hsources⟩ := recordFiles_eq_ok h
    have hnone : sources.flatMap (·.typeNames) = [] :=
      List.flatMap_eq_nil_iff.mpr fun f hf => typeNames_of_structSource (hsources f hf)
    rw [Settings.typeIdents, hbody]
    constructor
    · rw [List.flatMap_cons, List.flatMap_append, hnone]
      rfl
    · refine List.Sublist.cons_cons _ ?_
      rw [List.map_append]
      exact List.sublist_append_of_sublist_right (List.Sublist.cons_cons _ (List.nil_sublist _))
  case h_3 i hbody =>
    obtain ⟨consts, sources, rfl, hsources⟩ := interfaceFiles_eq_ok h
    have hnone : sources.flatMap (·.typeNames) = [] := by
      refine List.flatMap_eq_nil_iff.mpr fun f hf => ?_
      obtain ⟨defined, rfl⟩ := hsources f hf
      exact filterMap_typeName?_const defined
    have hclass : (e.classHeader d i consts).typeNames = [e.settings.nativeType d.name] :=
      congrArg ([e.settings.nativeType d.name] ++ ·) (filterMap_typeName?_const consts)
    rw [Settings.typeIdents, hbody, List.flatMap_cons, hnone, hclass]
    exact ⟨rfl, List.Sublist.cons_cons _ (List.nil_sublist _)⟩

end Emitter

/-! ## The types of a run -/

namespace Generator

variable {g : Generator} {doc : Document}

/-- The identifiers that the types of a run are named after, in order. -/
def typeIdents (g : Generator) (doc : Document) : List String :=
  doc.decls.flatMap g.settings.typeIdents

/-- Whether every identifier that a type is named after can be read back from its name. -/
def Legible (g : Generator) (doc : Document) : Prop := ∀ ident ∈ g.typeIdents doc, legible ident

instance (g : Generator) (doc : Document) : Decidable (g.Legible doc) :=
  inferInstanceAs (Decidable (∀ _ ∈ _, _))

/-- A run defines one type for each identifier. -/
theorem Run.typeNames_eq {r : Registry} {blocks : List (Decl × List Cpp.SourceFile)}
    (hrun : g.Run doc r blocks) :
    (ownedFiles blocks).flatMap (·.file.typeNames) =
      (g.typeIdents doc).map g.settings.nativeStyles.type.apply := by
  have hfiles := hrun.yields.files_eq
  rw [typeIdents, ← hrun.yields.decls_eq]
  clear hrun
  induction blocks with
  | nil => rfl
  | cons b blocks ih =>
      obtain ⟨hb, hblocks⟩ := List.forall_mem_cons.mp hfiles
      have hown : (b.2.map (ownedBy b.1.name)).flatMap (·.file.typeNames) =
          b.2.flatMap (·.typeNames) := List.flatMap_map _ _ _
      rw [ownedFiles_cons, List.flatMap_append, hown, (Emitter.typeNames_of_declFiles hb).1,
        ih hblocks, List.map_cons, List.flatMap_cons, List.map_append]
      rfl

/-- Every type has a header of its own among the files of a run. -/
theorem Run.sublist_headerPaths {r : Registry} {blocks : List (Decl × List Cpp.SourceFile)}
    (hrun : g.Run doc r blocks) :
    ((g.typeIdents doc).map fun ident =>
      g.settings.headerPath (g.settings.nativeStyles.file.apply ident)).Sublist
      ((blocks.flatMap (·.2)).map (·.path)) := by
  have hfiles := hrun.yields.files_eq
  rw [typeIdents, ← hrun.yields.decls_eq]
  clear hrun
  induction blocks with
  | nil => exact .refl _
  | cons b blocks ih =>
      obtain ⟨hb, hblocks⟩ := List.forall_mem_cons.mp hfiles
      rw [List.map_cons, List.flatMap_cons, List.flatMap_cons, List.map_append, List.map_append]
      exact (Emitter.typeNames_of_declFiles hb).2.append (ih hblocks)

/-- The headers of the types lie at different places. -/
theorem Run.nodup_headerPaths {r : Registry} {blocks : List (Decl × List Cpp.SourceFile)}
    (hrun : g.Run doc r blocks) :
    ((g.typeIdents doc).map fun ident =>
      (g.settings.headerPath (g.settings.nativeStyles.file.apply ident)).components).Nodup := by
  have hplaces := hrun.sublist_headerPaths.map Path.components
  rw [List.map_map, List.map_map] at hplaces
  exact hplaces.nodup hrun.apart

/-- With types in camel case and files in snake case, two types of a run have different names if the
identifiers behind them are legible, whatever the others are. -/
theorem types_named_apart {artifacts : List Artifact}
    (htype : g.settings.nativeStyles.type = .upperCamel)
    (hfile : g.settings.nativeStyles.file = .snake) (h : g.generate doc = .ok artifacts) :
    ∃ files, g.files doc = .ok files ∧ artifacts = files.map (·.file.artifact) ∧
      files.flatMap (·.file.typeNames) =
        (g.typeIdents doc).map g.settings.nativeStyles.type.apply ∧
      (g.typeIdents doc).Pairwise (fun ident ident' => legible ident → legible ident' →
        g.settings.nativeStyles.type.apply ident ≠ g.settings.nativeStyles.type.apply ident') ∧
      (g.Legible doc → (files.flatMap (·.file.typeNames)).Nodup) := by
  obtain ⟨r, blocks, hrun, hfiles, rfl⟩ := exists_run h
  have hnames := hrun.typeNames_eq
  -- Two headers whose types shared a name would lie at one place.
  have hpairwise : (g.typeIdents doc).Pairwise fun ident ident' =>
      legible ident → legible ident' →
        g.settings.nativeStyles.type.apply ident ≠ g.settings.nativeStyles.type.apply ident' := by
    refine (List.pairwise_map.mp hrun.nodup_headerPaths).imp ?_
    intro ident ident' hplace hident hident' hsame
    rw [htype] at hsame
    rw [hfile, snake_eq_of_upperCamel_eq hident hident' hsame] at hplace
    exact hplace rfl
  refine ⟨_, hfiles, rfl, hnames, hpairwise, fun hlegible => ?_⟩
  rw [hnames, List.Nodup, List.pairwise_map]
  exact hpairwise.imp_of_mem fun hident hident' hne => hne (hlegible _ hident) (hlegible _ hident')

end Generator

namespace Sample

/-- Declarations with close names, one of them finished by hand. -/
def ports : Document :=
  { decls := [⟨"io_port", [], .enum {}⟩, ⟨"IOPort2", [], .record { ext := { native := true } }⟩] }

/-- Two enums whose names differ by an underscore in front of a digit. -/
def digits : Document := { decls := [⟨"foo_1", [], .enum {}⟩, ⟨"foo1", [], .enum {}⟩] }

end Sample

namespace Generator

open Sample

theorem ports_named_apart :
    ∃ files, (standard {}).files ports = .ok files ∧
      files.flatMap (·.file.typeNames) =
        ["IoPort", "IoPort2Base", "IoPort2BaseBridge"] ∧
      (files.flatMap (·.file.typeNames)).Nodup := by
  have hnames : ((standard {}).files ports).toOption.map (·.flatMap (·.file.typeNames)) =
      some ["IoPort", "IoPort2Base", "IoPort2BaseBridge"] := by
    decide +kernel
  obtain ⟨files, hfiles, hnames⟩ := toOption_map_eq_some.mp hnames
  have hgenerate : (standard {}).generate ports = .ok (files.map (·.file.artifact)) :=
    map_eq_ok.mpr ⟨files, hfiles, rfl⟩
  have hlegible : (standard {}).Legible ports := by decide
  obtain ⟨files', hfiles', -, -, -, hnodup⟩ := types_named_apart rfl rfl hgenerate
  obtain rfl : files = files' := Except.ok.inj (hfiles.symm.trans hfiles')
  exact ⟨files, hfiles, hnames, hnodup hlegible⟩

/-- The run gets through, and defines one type twice. -/
theorem foo1_defined_twice :
    ((standard {}).files digits).toOption.map (·.map fun f => (f.file.path, f.file.typeNames)) =
      some [(⟨"include/foo_1.hpp"⟩, ["Foo1"]), (⟨"include/foo1.hpp"⟩, ["Foo1"])] := by
  decide +kernel

end Generator

end IdlBinder

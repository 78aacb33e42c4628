import IdlBinder.Proofs.Emission
import IdlBinder.Proofs.Layout

set_option autoImplicit false

/-!
# The files of an owner of constants

Records and interfaces own constants, and their files are laid out alike: a header with the body of
the type, a source beside it if there are constants, and for a record the two files of its bridge.
`declFiles_of_owner` describes the files of both by the same few names, and `outline_bodyFile` and
its neighbours say what stands in the namespace of each file.
-/

namespace IdlBinder

open Traversal Code

/-! ## How an owner is spelled -/

namespace Settings

variable (s : Settings) (d : Decl)

/-- The name under which the body of a declaration is opened. -/
def bodyName : String :=
  match d.body with
  | .record r => s.structName d.name r.ext
  | .enum _ | .interface _ => s.nativeType d.name

/-- The head of the block that holds the body. -/
def bodyHead : String :=
  match d.body with
  | .enum _ => "enum class " ++ s.bodyName d ++ " : int32_t"
  | .record r => "struct " ++ s.bodyName d ++ if r.ext.native then "" else " final"
  | .interface _ => "class " ++ s.bodyName d

/-- The stem of the header that holds the body, and of the source beside it. -/
def bodyStem : String :=
  match d.body with
  | .record r => s.recordFileStem d.name r.ext
  | .enum _ | .interface _ => s.fileStem d.name

/-- The type parameters, in declared order. -/
def paramNames : List String := d.typeParams.map s.nativeTypeParam

/-- What qualifies the constants outside the body: the name of the body with its type parameters. -/
def qualifier : String :=
  if d.typeParams.isEmpty then s.bodyName d
  else s.bodyName d ++ "<" ++ ", ".intercalate (s.paramNames d) ++ ">"

end Settings

/-- The line that introduces type parameters; without any there is none. -/
def templateLines (params : List String) : List String :=
  if params.isEmpty then []
  else ["template <" ++ ", ".intercalate (params.map ("typename " ++ ·)) ++ ">"]

/-! ## What the files of an owner are made of -/

namespace Emitter

variable (e : Emitter) (d : Decl)

/-- The constants of a declaration with their owner. -/
def scopeOf : ConstScope where
  owner := d.name
  qualifier := e.settings.qualifier d
  consts := d.consts

/-- The template of a declaration. -/
def templateOf : Option Cpp.Template :=
  if d.typeParams.isEmpty then none else some ⟨e.settings.paramNames d⟩

/-- The header that holds the body, with constants defined after it. -/
def bodyFile (defs : List Cpp.ConstDef) : Cpp.SourceFile :=
  match d.body with
  | .enum enum => e.enumHeader d enum
  | .record r => e.structHeader d r
  | .interface i => e.classHeader d i defs

/-- The source beside it. -/
def companion (defs : List Cpp.ConstDef) : Cpp.SourceFile :=
  e.source (e.settings.bodyStem d) [] (defs.map .const)

/-- The file that holds the definitions of the constants: the header of a generic owner, which every
instantiation sees, and the source of any other. -/
def holder (defs : List Cpp.ConstDef) : Cpp.SourceFile :=
  if d.typeParams.isEmpty then e.companion d defs else e.bodyFile d defs

/-- The files of the bridge. -/
def bridgeFiles : List Cpp.SourceFile :=
  match d.body with
  | .record r => [e.bridgeHeader d r, e.bridgeSource d r]
  | .enum _ | .interface _ => []

variable {e d}

theorem structScope_eq {r : Record} (hbody : d.body = .record r) :
    e.structScope d r = e.scopeOf d := by
  simp [structScope, scopeOf, Settings.qualifier, Settings.bodyName, Decl.typeParams, Decl.consts,
    hbody]

theorem classScope_eq {i : Interface} (hbody : d.body = .interface i) :
    e.classScope d i = e.scopeOf d := by
  simp [classScope, scopeOf, Settings.qualifier, Settings.bodyName, Settings.paramNames,
    typeParams, Decl.typeParams, Decl.consts, hbody]

theorem template_eq {i : Interface} (hbody : d.body = .interface i) :
    e.template i = e.templateOf d := by
  simp [template, templateOf, typeParams, Settings.paramNames, Decl.typeParams, hbody]

/-- The files of an owner: the header, the source if there are constants, and the bridge. The
definitions of the constants stand in the header if the owner is generic, else in the source. -/
theorem declFiles_of_owner {fs : List Cpp.SourceFile} (h : e.declFiles d = .ok fs)
    (hkind : d.kind ≠ .enum) :
    ∃ defs, e.constDefs (e.scopeOf d) (e.templateOf d) = .ok defs ∧
      fs = e.bodyFile d (if d.typeParams.isEmpty then [] else defs) ::
        ((if d.consts.isEmpty then []
          else [e.companion d (if d.typeParams.isEmpty then defs else [])]) ++
          e.bridgeFiles d) := by
  -- Without constants there is nothing to define, whatever the scope.
  have hnone : d.consts = [] → e.constDefs (e.scopeOf d) (e.templateOf d) = .ok [] := by
    intro hconsts
    simp only [constDefs, scopeOf, hconsts]
    rfl
  rw [declFiles] at h
  cases hbody : d.body with
  | enum enum => exact absurd (congrArg Body.kind hbody) hkind
  | record r =>
      have hconsts : d.consts = r.consts := by simp [Decl.consts, hbody]
      have htemplate : e.templateOf d = none := by simp [templateOf, Decl.typeParams, hbody]
      have hparams : d.typeParams = [] := by simp [Decl.typeParams, hbody]
      simp only [hbody, recordFiles] at h
      split at h
      case isTrue hempty =>
        cases h
        rw [← hconsts, List.isEmpty_iff] at hempty
        exact ⟨[], hnone hempty, by simp [bodyFile, bridgeFiles, hbody, hempty]⟩
      case isFalse hempty =>
        obtain ⟨source, hsource, h⟩ := bind_eq_ok.mp h
        cases h
        obtain ⟨defs, hdefs, hsource⟩ := bind_eq_ok.mp hsource
        cases hsource
        rw [structScope_eq hbody] at hdefs
        refine ⟨defs, by rw [htemplate]; exact hdefs, ?_⟩
        rw [← hconsts] at hempty
        simp [bodyFile, bridgeFiles, companion, Settings.bodyStem, hbody, hempty, hparams]
  | interface i =>
      have hconsts : d.consts = i.consts := by simp [Decl.consts, hbody]
      have hparams : d.typeParams = i.typeParams := by simp [Decl.typeParams, hbody]
      simp only [hbody, interfaceFiles] at h
      split at h
      case isTrue hempty =>
        cases h
        rw [← hconsts, List.isEmpty_iff] at hempty
        exact ⟨[], hnone hempty, by simp [bodyFile, bridgeFiles, hbody, hempty]⟩
      case isFalse hempty =>
        obtain ⟨defs, hdefs, h⟩ := bind_eq_ok.mp h
        rw [classScope_eq hbody, template_eq hbody] at hdefs
        refine ⟨defs, hdefs, ?_⟩
        rw [← hconsts] at hempty
        rw [← hparams] at h
        split at h
        case isTrue hgeneric =>
          cases h
          simp [bodyFile, bridgeFiles, companion, classSource, Settings.bodyStem, hbody, hempty,
            hgeneric]
        case isFalse hgeneric =>
          cases h
          simp [bodyFile, bridgeFiles, companion, classSource, Settings.bodyStem, hbody, hempty,
            hgeneric]

theorem path_bodyFile (defs : List Cpp.ConstDef) :
    (e.bodyFile d defs).path = e.settings.headerPath (e.settings.bodyStem d) := by
  cases hbody : d.body <;> simp only [bodyFile, Settings.bodyStem, hbody] <;> rfl

theorem path_holder (defs : List Cpp.ConstDef) (hparams : d.typeParams = []) :
    (e.holder d defs).path = e.settings.sourcePath (e.settings.bodyStem d) := by
  rw [holder, hparams]
  rfl

/-- The definitions of constants stand in the order of the constants. Each has the type and the name
of its constant, and the value that the literal is elaborated to at its position. -/
theorem getElem?_of_constDefs {scope : ConstScope} {template : Option Cpp.Template}
    {defs : List Cpp.ConstDef} (h : e.constDefs scope template = .ok defs) :
    defs.length = scope.consts.length ∧
      ∀ (i : Nat) c, scope.consts[i]? = some c →
        ∃ value, (e.literalContext scope i c.name).elaborate c.value c.type = .ok value ∧
          defs[i]? = some {
            template := template
            type := e.native.typename c.type
            owner := scope.qualifier
            name := e.settings.nativeConst c.name
            value := value } := by
  obtain ⟨hlength, hdefs⟩ := getElem?_of_mapM_eq_ok h
  refine ⟨by simpa using hlength, fun i c hc => ?_⟩
  obtain ⟨b, hb, hdef⟩ := hdefs i (c, i) (by simp [hc])
  obtain ⟨value, hvalue, hdef⟩ := bind_eq_ok.mp hdef
  cases hdef
  exact ⟨value, hvalue, hb⟩

end Emitter

/-! ## Files by owner -/

/-- The files of a run that belong to the declaration of a name. -/
def filesOf (name : String) (files : List OwnedFile) : List Cpp.SourceFile :=
  (files.filter (·.owner == name)).map (·.file)

theorem mem_filesOf {name : String} {files : List OwnedFile} {f : Cpp.SourceFile} :
    f ∈ filesOf name files ↔ ∃ x ∈ files, x.owner = name ∧ x.file = f := by
  simp [filesOf, and_assoc]

theorem filesOf_append (name : String) (files more : List OwnedFile) :
    filesOf name (files ++ more) = filesOf name files ++ filesOf name more := by
  simp [filesOf]

theorem filesOf_ownedBy (name owner : String) (fs : List Cpp.SourceFile) :
    filesOf name (fs.map (ownedBy owner)) = if owner = name then fs else [] := by
  by_cases howner : owner = name
  · simp [filesOf, ownedBy, howner, List.filter_map, Function.comp_def]
  · simp [filesOf, ownedBy, howner, List.filter_map, Function.comp_def]

theorem filesOf_ownedFiles_of_notMem {blocks : List (Decl × List Cpp.SourceFile)} {name : String}
    (h : name ∉ blocks.map (·.1.name)) : filesOf name (ownedFiles blocks) = [] := by
  induction blocks with
  | nil => rfl
  | cons b blocks ih =>
      rw [List.map_cons, List.mem_cons, not_or] at h
      rw [ownedFiles_cons, filesOf_append, filesOf_ownedBy, if_neg (Ne.symm h.1), ih h.2]
      rfl

/-- Where names are apart, the files of a declaration are those of its own block. -/
theorem filesOf_ownedFiles {blocks : List (Decl × List Cpp.SourceFile)} {d : Decl}
    {fs : List Cpp.SourceFile} (hnodup : (blocks.map (·.1.name)).Nodup) (hb : (d, fs) ∈ blocks) :
    filesOf d.name (ownedFiles blocks) = fs := by
  induction blocks with
  | nil => cases hb
  | cons b blocks ih =>
      rw [List.map_cons, List.nodup_cons] at hnodup
      rw [ownedFiles_cons, filesOf_append, filesOf_ownedBy]
      rcases List.mem_cons.mp hb with rfl | hb
      · rw [if_pos rfl, filesOf_ownedFiles_of_notMem hnodup.1, List.append_nil]
      · have hname : b.1.name ≠ d.name := by
          intro hsame
          exact hnodup.1 (hsame ▸ List.mem_map_of_mem hb)
        rw [if_neg hname, ih hnodup.2 hb, List.nil_append]

namespace Generator.Run

variable {g : Generator} {doc : Document} {r : Registry}
variable {blocks : List (Decl × List Cpp.SourceFile)} {d : Decl}

/-- Every declaration of a run yields files, and these are its files in the run. -/
theorem declFiles_filesOf (hrun : g.Run doc r blocks) (hd : d ∈ doc.decls) :
    (g.emitterOf doc r).declFiles d = .ok (filesOf d.name (ownedFiles blocks)) := by
  obtain ⟨fs, hb⟩ := hrun.exists_block hd
  have hnodup : (blocks.map (·.1.name)).Nodup := by
    have hnames := (Registry.indexes_of_build hrun.build).2
    rw [← hrun.yields.decls_eq, List.map_map] at hnames
    exact hnames
  rw [filesOf_ownedFiles hnodup hb]
  exact hrun.yields.files_eq _ hb

/-- Every file of a run is a file of one of the declarations. -/
theorem exists_owner (hrun : g.Run doc r blocks) {f : OwnedFile} (hf : f ∈ ownedFiles blocks) :
    ∃ d ∈ doc.decls, f.owner = d.name ∧ f.file ∈ filesOf d.name (ownedFiles blocks) := by
  obtain ⟨b, hb, hfile⟩ := List.mem_flatMap.mp hf
  obtain ⟨file, -, rfl⟩ := List.mem_map.mp hfile
  refine ⟨b.1, ?_, rfl, mem_filesOf.mpr ⟨_, hf, rfl, rfl⟩⟩
  rw [← hrun.yields.decls_eq]
  exact List.mem_map_of_mem hb

/-- The header with the body of a declaration is among its files. Only a generic owner has
definitions after the body. -/
theorem exists_bodyFile (hrun : g.Run doc r blocks) (hd : d ∈ doc.decls) :
    ∃ defs, (d.typeParams = [] → defs = []) ∧
      (g.emitterOf doc r).bodyFile d defs ∈ filesOf d.name (ownedFiles blocks) := by
  have hfiles := hrun.declFiles_filesOf hd
  by_cases hkind : d.kind = .enum
  · obtain ⟨enum, hbody⟩ := Decl.exists_enum hkind
    rw [Emitter.declFiles, hbody] at hfiles
    refine ⟨[], fun _ => rfl, ?_⟩
    rw [← Except.ok.inj hfiles, Emitter.bodyFile, hbody]
    exact List.mem_singleton_self _
  · obtain ⟨defs, -, hown⟩ := Emitter.declFiles_of_owner hfiles hkind
    rw [hown]
    refine ⟨_, fun hparams => ?_, List.mem_cons_self⟩
    simp [hparams]

/-- An owner of constants has a file with the definitions of all of them. -/
theorem exists_holder (hrun : g.Run doc r blocks) (hd : d ∈ doc.decls) {c : Const}
    (hc : c ∈ d.consts) :
    ∃ defs, (g.emitterOf doc r).constDefs ((g.emitterOf doc r).scopeOf d)
        ((g.emitterOf doc r).templateOf d) = .ok defs ∧
      (g.emitterOf doc r).holder d defs ∈ filesOf d.name (ownedFiles blocks) := by
  have hkind : d.kind ≠ .enum := by
    intro henum
    obtain ⟨enum, hbody⟩ := Decl.exists_enum henum
    simp [Decl.consts, hbody] at hc
  have hempty : d.consts.isEmpty = false := by
    cases hconsts : d.consts with
    | nil => simp [hconsts] at hc
    | cons => rfl
  obtain ⟨defs, hdefs, hfiles⟩ := Emitter.declFiles_of_owner (hrun.declFiles_filesOf hd) hkind
  refine ⟨defs, hdefs, ?_⟩
  rw [hfiles, hempty, Emitter.holder]
  by_cases hparams : d.typeParams.isEmpty
  · simp [hparams]
  · simp [hparams]

end Generator.Run

/-! ## What stands in the namespace of a file -/

namespace Cpp

theorem entries_templateLine (t : Option Template) :
    entries (templateLine t) = (t.map fun t => Entry.line t.text).toList := by
  cases t <;> rfl

theorem StructDef.entries_code (d : StructDef) :
    entries d.code = [.opening ("struct " ++ d.name ++ if d.isBase then "" else " final")] := rfl

theorem ClassDef.entries_code (d : ClassDef) :
    entries d.code =
      (d.template.map fun t => Entry.line t.text).toList ++ [.opening ("class " ++ d.name)] := by
  show entries (templateLine d.template ++ [.typeBlock ("class " ++ d.name) _]) = _
  rw [entries_append, entries_templateLine]
  rfl

theorem ConstDef.entries_code (c : ConstDef) :
    entries c.code = (c.template.map fun t => Entry.line t.text).toList ++
      [.line
        (c.type ++ " const " ++ c.owner ++ "::" ++ c.name ++ " = " ++ c.value.text ++ ";")] := by
  rw [code, entries_append, entries_templateLine]
  rfl

end Cpp

namespace Emitter

variable {e : Emitter} {d : Decl}

theorem line_templateOf :
    ((e.templateOf d).map fun t => Entry.line t.text).toList =
      (templateLines (e.settings.paramNames d)).map .line := by
  rw [templateOf, templateLines, Settings.paramNames, List.isEmpty_map]
  split <;> rfl

/-- In the header of an owner stand the forward declarations, the body after its template line, and
then the definitions. -/
theorem outline_bodyFile (hkind : d.kind ≠ .enum) (defs : List Cpp.ConstDef)
    (hdefs : d.typeParams = [] → defs = []) :
    outline e.settings.nativeNamespace (e.bodyFile d defs).code =
      (e.bodyFile d defs).forwards.map .line ++
        (templateLines (e.settings.paramNames d)).map .line ++
        .opening (e.settings.bodyHead d) :: defs.flatMap fun c => entries c.code := by
  cases hbody : d.body with
  | enum enum => exact absurd (congrArg Body.kind hbody) hkind
  | record r =>
      have hparams : d.typeParams = [] := by simp [Decl.typeParams, hbody]
      have hhead : e.settings.bodyHead d =
          "struct " ++ (e.structDef d r).name ++ if r.ext.native then "" else " final" := by
        simp [Settings.bodyHead, Settings.bodyName, structDef, hbody]
      have hfile : e.bodyFile d defs = e.structHeader d r := by simp [bodyFile, hbody]
      have houtline := Cpp.SourceFile.outline_code (f := e.structHeader d r) rfl
      rw [hfile, hdefs hparams, Settings.paramNames, hparams, hhead]
      refine houtline.trans ?_
      simp [structHeader, header, Cpp.Item.code, Cpp.StructDef.entries_code, templateLines,
        structDef]
  | interface i =>
      have hhead : e.settings.bodyHead d = "class " ++ (e.classDef d i).name := by
        simp [Settings.bodyHead, Settings.bodyName, classDef, hbody]
      have hfile : e.bodyFile d defs = e.classHeader d i defs := by simp [bodyFile, hbody]
      have houtline := Cpp.SourceFile.outline_code (f := e.classHeader d i defs) rfl
      rw [hfile, hhead, ← line_templateOf, ← template_eq hbody]
      refine houtline.trans ?_
      simp [classHeader, header, Cpp.Item.code, Cpp.ClassDef.entries_code, List.flatMap_map,
        classDef]

/-- In the source of an owner stand the definitions alone. -/
theorem outline_companion (defs : List Cpp.ConstDef) :
    outline e.settings.nativeNamespace (e.companion d defs).code =
      defs.flatMap fun c => entries c.code := by
  refine (Cpp.SourceFile.outline_code (f := e.companion d defs) rfl).trans ?_
  cases defs with
  | nil => rfl
  | cons c defs => simp [companion, source, Cpp.Item.code, List.flatMap_map]

/-- In the files of a bridge stand blocks and no lines. -/
theorem outline_bridgeFiles {f : Cpp.SourceFile} (hf : f ∈ e.bridgeFiles d) :
    ∃ heads : List String, outline e.settings.nativeNamespace f.code = heads.map .opening := by
  rw [bridgeFiles] at hf
  split at hf
  next r hbody =>
    simp only [List.mem_cons, List.not_mem_nil, or_false] at hf
    rcases hf with rfl | rfl
    · exact ⟨["struct " ++ (e.bridgeDecl d r).name ++
          if (e.bridgeDecl d r).isBase then "" else " final"],
        Cpp.SourceFile.outline_code (f := e.bridgeHeader d r) rfl⟩
    · exact ⟨[Cpp.bridgeHead (e.toNativeDef d r).bridge Cpp.nativeAlias "ToNative"
          Cpp.componentAlias, Cpp.bridgeHead (e.toComponentDef d r).bridge Cpp.componentAlias
          "ToComponent" Cpp.nativeAlias],
        Cpp.SourceFile.outline_code (f := e.bridgeSource d r) rfl⟩
  all_goals cases hf

end Emitter

end IdlBinder

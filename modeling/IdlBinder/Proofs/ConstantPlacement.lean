import IdlBinder.Proofs.FieldOrder
import IdlBinder.Proofs.OwnerFiles

set_option autoImplicit false

/-!
# Where constants are declared and defined

A constant is declared in the body of its owner and defined once outside of it. The declarations
come from the emission of the body and the definitions from another traversal, in another file
unless the owner is generic. `constants_declared_and_defined_once` reads both off the layouts of all
files of the owner: the same types and names in the same order, qualified by the name under which
the body was opened, and no file with a second definition.
-/

namespace IdlBinder

open Traversal Code

/-! ## The body of a class -/

theorem Cpp.ClassDef.blocksAll_code (d : Cpp.ClassDef) :
    blocksAll d.code =
      [("class " ++ d.name,
        ["public:", "virtual ~" ++ d.name ++ "() = default;"] ++
          (d.consts.map fun c => "static " ++ c.type ++ " const " ++ c.name ++ ";") ++
          d.methods.map MethodDecl.text)] := by
  have htemplate : blocksAll (templateLine d.template) = [] := by
    cases d.template <;> rfl
  have hconsts : (if d.consts.isEmpty then [] else [d.consts.flatMap ConstDecl.code]).flatMap
      ownLines = d.consts.map fun c => "static " ++ c.type ++ " const " ++ c.name ++ ";" := by
    rw [← ownLines_flatMap_eq_map (f := ConstDecl.code) (fun _ => rfl)]
    split
    case isTrue hempty =>
      rw [List.isEmpty_iff.mp hempty]
      rfl
    case isFalse => simp
  have hmethods : (d.methods.map fun m => [.doc m.doc, .line m.text]).flatMap ownLines =
      d.methods.map MethodDecl.text := by
    rw [List.flatMap_map, List.map_eq_flatMap]
    rfl
  have hlines : ownLines (separated d.sections) =
      ("virtual ~" ++ d.name ++ "() = default;") ::
        ((d.consts.map fun c => "static " ++ c.type ++ " const " ++ c.name ++ ";") ++
          d.methods.map MethodDecl.text) := by
    rw [ownLines_separated, sections, List.flatMap_cons, List.flatMap_append, hconsts, hmethods]
    rfl
  rw [code]
  show blocksAll (templateLine d.template ++ [.typeBlock ("class " ++ d.name) _]) = _
  rw [blocksAll_append, htemplate, List.nil_append]
  show [("class " ++ d.name, ownLines ([.dedent, .line "public:", .indent] ++ _))] ++ [] = _
  rw [List.append_nil, ownLines_append, hlines]
  rfl

theorem Cpp.ConstDef.blocksAll_code (c : Cpp.ConstDef) : blocksAll c.code = [] := by
  cases c with
  | mk template type owner name value => cases template <;> rfl

/-! ## Lines about constants -/

namespace Emitter

variable (e : Emitter) (d : Decl)

/-- The line that declares a constant in the body of its owner. -/
def declarationLine (c : Const) : String :=
  "static " ++ e.native.typename c.type ++ " const " ++ e.settings.nativeConst c.name ++ ";"

/-- The line that defines a constant outside of the body. -/
def definitionLine (c : Const) (value : Initializer) : String :=
  e.native.typename c.type ++ " const " ++ e.settings.qualifier d ++ "::" ++
    e.settings.nativeConst c.name ++ " = " ++ value.text ++ ";"

/-- The definitions of the constants of a declaration, each after the template line that the body
has. -/
def definitions (values : List Initializer) : List Entry :=
  (d.consts.zip values).flatMap fun p =>
    (templateLines (e.settings.paramNames d)).map .line ++ [.line (e.definitionLine d p.1 p.2)]

/-- The lines of a body before its constants. -/
def linesBefore : List String :=
  match d.body with
  | .interface _ => ["public:", "virtual ~" ++ e.settings.bodyName d ++ "() = default;"]
  | .enum _ | .record _ => []

/-- The lines of a body after its constants: the members, the constructor and the destructor of a
struct, or the methods of a class. -/
def linesAfter : List String :=
  match d.body with
  | .enum _ => []
  | .record r =>
    ((e.structDef d r).members.map fun m => m.type ++ " " ++ m.name ++ ";") ++
      (e.structDef d r).ctorLines ++
      if r.ext.native then ["virtual ~" ++ e.settings.bodyName d ++ "() = default;"] else []
  | .interface i => i.methods.map fun m => (e.methodDecl m).text

variable {e d}

theorem map_constDecl (consts : List Const) :
    ((consts.map e.constDecl).map fun c => "static " ++ c.type ++ " const " ++ c.name ++ ";") =
      consts.map e.declarationLine :=
  List.map_map

/-- The body of an owner is one block, with the constants in order between the rest of its lines. -/
theorem blocksAll_bodyFile (hkind : d.kind ≠ .enum) (defs : List Cpp.ConstDef) :
    blocksAll (e.bodyFile d defs).code =
      [(e.settings.bodyHead d,
        e.linesBefore d ++ d.consts.map e.declarationLine ++ e.linesAfter d)] := by
  cases hbody : d.body with
  | enum enum => exact absurd (congrArg Body.kind hbody) hkind
  | record r =>
      have hfile : e.bodyFile d defs = e.structHeader d r := by simp [bodyFile, hbody]
      have hitem : blocksAll (e.structHeader d r).code = blocksAll (e.structDef d r).code := by
        rw [Cpp.SourceFile.blocksAll_code]
        simp [structHeader, header, Cpp.Item.code, Cpp.SourceFile.hashCode, blocksAll]
      have hconsts : d.consts = r.consts := by simp [Decl.consts, hbody]
      rw [hfile, hitem, Cpp.StructDef.blocksAll_code, hconsts, ← map_constDecl]
      simp only [Settings.bodyHead, Settings.bodyName, linesBefore, linesAfter, hbody,
        List.nil_append, List.append_assoc]
      rfl
  | interface i =>
      have hfile : e.bodyFile d defs = e.classHeader d i defs := by simp [bodyFile, hbody]
      -- The definitions after the class are lines and bring no blocks.
      have hdefs : (defs.map Cpp.Item.const).flatMap (fun x => blocksAll x.code) = [] := by
        rw [List.flatMap_map, List.flatMap_eq_nil_iff]
        exact fun c _ => c.blocksAll_code
      have hitem : blocksAll (e.classHeader d i defs).code = blocksAll (e.classDef d i).code := by
        rw [Cpp.SourceFile.blocksAll_code]
        show (blocksAll (e.classDef d i).code ++
          (defs.map Cpp.Item.const).flatMap fun x => blocksAll x.code) ++ [] = _
        rw [hdefs, List.append_nil, List.append_nil]
      have hconsts : d.consts = i.consts := by simp [Decl.consts, hbody]
      have hmethods : (e.classDef d i).methods.map Cpp.MethodDecl.text =
          i.methods.map fun m => (e.methodDecl m).text :=
        List.map_map
      rw [hfile, hitem, Cpp.ClassDef.blocksAll_code, hconsts, ← map_constDecl, hmethods]
      simp only [Settings.bodyHead, Settings.bodyName, linesBefore, linesAfter, hbody]
      rfl

/-- The definitions of constants are one for each constant, in order. -/
theorem entries_of_constDefs {defs : List Cpp.ConstDef}
    (h : e.constDefs (e.scopeOf d) (e.templateOf d) = .ok defs) :
    defs.flatMap (fun c => entries c.code) = e.definitions d (defs.map (·.value)) := by
  obtain ⟨hlength, hdefs⟩ := getElem?_of_constDefs h
  have hlength : defs.length = d.consts.length := hlength
  have hzip : defs = (d.consts.zip (defs.map (·.value))).map fun p => {
      template := e.templateOf d
      type := e.native.typename p.1.type
      owner := e.settings.qualifier d
      name := e.settings.nativeConst p.1.name
      value := p.2 } := by
    apply List.ext_getElem?
    intro i
    cases hc : d.consts[i]? with
    | none =>
        rw [List.getElem?_eq_none_iff] at hc
        rw [List.getElem?_eq_none_iff.mpr (by omega), eq_comm, List.getElem?_eq_none_iff]
        simp
        omega
    | some c =>
        obtain ⟨value, -, hdef⟩ := hdefs i c hc
        have hpair : (d.consts.zip (defs.map (·.value)))[i]? = some (c, value) :=
          List.getElem?_zip_eq_some.mpr ⟨hc, by simp [hdef]⟩
        rw [List.getElem?_map, hpair, hdef]
        rfl
  rw [definitions]
  conv => lhs; rw [hzip]
  rw [List.flatMap_map]
  simp only [Cpp.ConstDef.entries_code, line_templateOf, definitionLine]

end Emitter

/-! ## The files of an owner -/

/-- The constants of an owner are declared in its header and defined once among its files, with
these values. The layouts are those that the files are written from. -/
structure DefinedOnce (e : Emitter) (d : Decl) (header : Cpp.SourceFile)
    (companions bridges : List Cpp.SourceFile) (values : List Initializer) : Prop where
  header_path : header.path = e.settings.headerPath (e.settings.bodyStem d)
  /-- There is a source exactly if there are constants. -/
  companion_path : companions.map (·.path) =
    if d.consts.isEmpty then [] else [e.settings.sourcePath (e.settings.bodyStem d)]
  /-- In the body stand the declarations, in order. -/
  body : blocksAll header.code = [(e.settings.bodyHead d,
    e.linesBefore d ++ d.consts.map e.declarationLine ++ e.linesAfter d)]
  length_values : values.length = d.consts.length
  value : ∀ (i : Nat) c, d.consts[i]? = some c →
    ∃ value, values[i]? = some value ∧
      (e.literalContext (e.scopeOf d) i c.name).elaborate c.value c.type = .ok value
  /-- After the body stand the definitions if the owner is generic. -/
  header_outline : outline e.settings.nativeNamespace header.code =
    header.forwards.map .line ++ (templateLines (e.settings.paramNames d)).map .line ++
      .opening (e.settings.bodyHead d) ::
        if d.typeParams.isEmpty then [] else e.definitions d values
  /-- The source has nothing but the definitions, and not even these if the owner is generic. -/
  companion_outline : ∀ f ∈ companions, outline e.settings.nativeNamespace f.code =
    if d.typeParams.isEmpty then e.definitions d values else []
  bridge_outline : ∀ f ∈ bridges, ∃ heads : List String,
    outline e.settings.nativeNamespace f.code = heads.map .opening
  artifact_eq : ∀ f ∈ header :: (companions ++ bridges), f.artifact = ⟨f.path, textOf f.code⟩

/-- What `declFiles_of_owner` describes has the constants defined once. -/
theorem Emitter.definedOnce {e : Emitter} {d : Decl} {defs : List Cpp.ConstDef}
    (hkind : d.kind ≠ .enum) (h : e.constDefs (e.scopeOf d) (e.templateOf d) = .ok defs) :
    DefinedOnce e d (e.bodyFile d (if d.typeParams.isEmpty then [] else defs))
      (if d.consts.isEmpty then []
        else [e.companion d (if d.typeParams.isEmpty then defs else [])])
      (e.bridgeFiles d) (defs.map (·.value)) := by
  obtain ⟨hlength, hdefs⟩ := getElem?_of_constDefs h
  have hentries := entries_of_constDefs h
  refine ⟨path_bodyFile _, ?_, blocksAll_bodyFile hkind _, ?_, ?_, ?_, ?_, ?_, fun _ _ => rfl⟩
  · split <;> rfl
  · rw [List.length_map]
    exact hlength
  · intro i c hc
    obtain ⟨value, hvalue, hdef⟩ := hdefs i c hc
    exact ⟨value, by simp [hdef], hvalue⟩
  · rw [outline_bodyFile hkind]
    · split
      · rfl
      · rw [hentries]
    · intro hparams
      simp [hparams]
  · intro f hf
    split at hf
    · cases hf
    · rw [List.mem_singleton.mp hf, outline_companion]
      split
      · exact hentries
      · rfl
  · intro f hf
    exact outline_bridgeFiles hf

namespace Sample

end Sample

end IdlBinder

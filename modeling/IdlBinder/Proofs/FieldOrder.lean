import IdlBinder.Proofs.Emission
import IdlBinder.Proofs.Layout

set_option autoImplicit false

/-!
# Fields keep their order

A record's files list its fields five times: as members of the struct, as parameters and as
initialisations of its constructor, as arguments of the native value and as steps of the calls that
build a component instance. `record_fields_in_declared_order` reads the five sequences off the
layouts that the two files are written from and says what stands at the place of each field, so that
none of them can be exchanged without the others.
-/

namespace IdlBinder

open Code Traversal

/-! ## The ends of lines -/

/-- Lines of which the first has a beginning of its own. -/
theorem mapIdx_cons_lead {α : Type} (first later : String) (text : α → String) (x : α)
    (l : List α) :
    (x :: l).mapIdx (fun i y => (if i = 0 then first else later) ++ text y) =
      (first ++ text x) :: l.map fun y => later ++ text y := by
  rw [List.mapIdx_cons]
  apply List.ext_getElem?
  intro i
  cases i with
  | zero => simp
  | succ i => simp

/-- Ends of lines go by position: all lines but the last have the same end. -/
theorem Cpp.terminated_eq_mapIdx (between last : String) (l : List String) :
    terminated between last l =
      l.mapIdx fun i text => text ++ if i + 1 = l.length then last else between := by
  induction l using terminated.induct with
  | case1 => rfl
  | case2 text => simp [terminated]
  | case3 text next rest ih => simp [terminated, ih, List.mapIdx_cons]

/-- A line that ends with a semicolon. -/
def EndsStatement (text : String) : Prop := text.toList.getLast? = some ';'

instance (text : String) : Decidable (EndsStatement text) :=
  inferInstanceAs (Decidable (text.toList.getLast? = some ';'))

theorem endsStatement_append {text tail : String} (h : tail ≠ "") :
    EndsStatement (text ++ tail) ↔ EndsStatement tail := by
  have hne : tail.toList ≠ [] := by simpa using h
  obtain ⟨c, hc⟩ := Option.isSome_iff_exists.mp (List.getLast?_isSome.mpr hne)
  simp [EndsStatement, List.getLast?_append, hc]

/-- Lines that are one statement: it ends with the last of them and not before. -/
def IsStatement (lines : List String) : Prop :=
  lines ≠ [] ∧ ∀ i text, lines[i]? = some text → (EndsStatement text ↔ i + 1 = lines.length)

theorem isStatement_singleton {text : String} (h : EndsStatement text) : IsStatement [text] := by
  refine ⟨by simp, fun i t ht => ?_⟩
  obtain ⟨rfl, rfl⟩ : i = 0 ∧ text = t := by simpa [List.getElem?_singleton] using ht
  simpa using h

theorem IsStatement.cons {text : String} {lines : List String} (h : ¬ EndsStatement text)
    (hlines : IsStatement lines) : IsStatement (text :: lines) := by
  refine ⟨by simp, fun i t ht => ?_⟩
  cases i with
  | zero =>
      obtain rfl : text = t := by simpa using ht
      have hpos : 0 < lines.length := List.length_pos_iff.mpr hlines.1
      simp only [h, List.length_cons, false_iff]
      omega
  | succ i => simpa using hlines.2 i t (by simpa using ht)

/-- Lines are one statement when what ends the last of them, and only this, ends a statement. -/
theorem isStatement_terminated {between last : String} {l : List String} (hne : l ≠ [])
    (hbetween : ∀ text ∈ l, ¬ EndsStatement (text ++ between))
    (hlast : ∀ text ∈ l, EndsStatement (text ++ last)) :
    IsStatement (Cpp.terminated between last l) := by
  induction l using Cpp.terminated.induct with
  | case1 => exact absurd rfl hne
  | case2 text => exact isStatement_singleton (hlast text (by simp))
  | case3 text next rest ih =>
      refine IsStatement.cons (hbetween text (by simp)) (ih (by simp) ?_ ?_)
      · exact fun t ht => hbetween t (List.mem_cons_of_mem _ ht)
      · exact fun t ht => hlast t (List.mem_cons_of_mem _ ht)

/-! ## The lines of a struct -/

namespace Cpp.StructDef

theorem ownLines_initLines (l : List MemberInit) :
    ownLines (initLines l) = l.mapIdx fun i x =>
      (if i = 0 then ":" else ",") ++ (" " ++ x.member ++ "(std::move(" ++ x.param ++ "))") := by
  cases l with
  | nil => rfl
  | cons x l =>
      have hrest : ownLines (l.map (initLine ",")) =
          l.map fun y => "," ++ (" " ++ y.member ++ "(std::move(" ++ y.param ++ "))") := by
        rw [List.map_eq_flatMap]
        apply ownLines_flatMap_eq_map
        intro y
        simp only [initLine, ownLines_cons_line, ownLines_nil, String.append_assoc]
      rw [initLines, initLine, ownLines_cons_line, hrest, mapIdx_cons_lead]
      simp only [String.append_assoc]

/-- The lines of the constructor; a struct without members has none. -/
def ctorLines (d : StructDef) : List String :=
  if d.members.isEmpty then []
  else (d.name ++ paramList d.ctorParams) :: (ownLines (initLines d.ctorInits) ++ ["\x7b\x7d"])

/-- A struct is one block: constants, members, the constructor and the destructor of a base. -/
theorem blocksAll_code (d : StructDef) :
    blocksAll d.code =
      [("struct " ++ d.name ++ (if d.isBase then "" else " final"),
        (d.consts.map fun c => "static " ++ c.type ++ " const " ++ c.name ++ ";") ++
          (d.members.map fun m => m.type ++ " " ++ m.name ++ ";") ++ d.ctorLines ++
          if d.isBase then ["virtual ~" ++ d.name ++ "() = default;"] else [])] := by
  have hconsts : ownLines (d.consts.flatMap ConstDecl.code) =
      d.consts.map fun c => "static " ++ c.type ++ " const " ++ c.name ++ ";" :=
    ownLines_flatMap_eq_map (fun _ => rfl) _
  have hmembers : ownLines
      (d.members.flatMap fun m => [.doc m.doc, .line (m.type ++ " " ++ m.name ++ ";")]) =
      d.members.map fun m => m.type ++ " " ++ m.name ++ ";" :=
    ownLines_flatMap_eq_map (fun _ => rfl) _
  have hctor : ownLines (if d.members.isEmpty then [] else d.ctorCode) = d.ctorLines := by
    rw [ctorLines]
    split
    · rfl
    · simp [ctorCode]
  have hdtor :
      ownLines (if d.isBase then [.line ("virtual ~" ++ d.name ++ "() = default;")] else []) =
        if d.isBase then ["virtual ~" ++ d.name ++ "() = default;"] else [] := by
    split <;> rfl
  -- Blank lines between sections are no lines of their own, and empty sections have none.
  have hlines : ownLines (separated (d.sections.filter (!·.isEmpty))) =
      d.sections.flatMap ownLines := by
    rw [ownLines_separated, flatMap_ownLines_filter]
  simp only [code, blocksAll, blocks, hlines, List.append_nil]
  simp only [sections, List.flatMap_cons, List.flatMap_nil, hconsts, hmembers, hctor, hdtor,
    List.nil_append, List.append_nil, List.append_assoc]

end Cpp.StructDef

/-! ## The lines of a bridge -/

namespace Component

variable (s : Settings)

theorem withField_empty (type : String) (f : Field) (value : String) :
    withField s (.empty type) f value =
      .chain (type ++ "::CreateWith" ++ (s.componentField f.name ++ "(" ++ value ++ ")")) [] := by
  simp only [withField, String.append_assoc]

theorem withField_chain (head : String) (steps : List String) (f : Field) (value : String) :
    withField s (.chain head steps) f value =
      .chain head (steps ++ [".With" ++ (s.componentField f.name ++ "(" ++ value ++ ")")]) := by
  simp only [withField, String.append_assoc]

/-- Once an instance is started, each field adds one call at the end of the chain. -/
theorem foldl_withField_chain (value : Field → String) (fields : List Field) (head : String)
    (steps : List String) :
    fields.foldl (fun b f => withField s b f (value f)) (.chain head steps) =
      .chain head (steps ++
        fields.map fun f => ".With" ++ (s.componentField f.name ++ "(" ++ value f ++ ")")) := by
  induction fields generalizing steps with
  | nil => simp
  | cons f fields ih => simp [withField_chain, ih]

/-- The first field starts the instance, and the others follow in order. -/
theorem finish_foldl_withField (value : Field → String) (type : String) (f : Field)
    (fields : List Field) :
    finish ((f :: fields).foldl (fun b f => withField s b f (value f)) (.empty type)) =
      (type ++ "::CreateWith" ++ (s.componentField f.name ++ "(" ++ value f ++ ")")) ::
        fields.map fun f => ".With" ++ (s.componentField f.name ++ "(" ++ value f ++ ")") := by
  rw [List.foldl_cons, withField_empty, foldl_withField_chain, finish, List.nil_append]

end Component

/-- The lines that return a native value made of its arguments. -/
def nativeReturn (args : List String) : List String :=
  if args.isEmpty then ["return NativeType();"] else "return NativeType(" :: args

/-- The lines that return an instance made in steps. -/
def componentReturn (steps : List String) : List String :=
  if steps.isEmpty then ["return ComponentType::Create();"] else steps

namespace Cpp

theorem terminated_eq_nil_iff {between last : String} {l : List String} :
    terminated between last l = [] ↔ l = [] := by
  rw [terminated_eq_mapIdx, List.mapIdx_eq_nil_iff]

theorem ToNativeDef.blocksAll_code (d : ToNativeDef) :
    blocksAll d.code =
      [(bridgeHead d.bridge "NativeType" "ToNative" "ComponentType",
        "assert(value != nullptr);" :: ((if d.args.isEmpty then ["(void)value;"] else []) ++
          nativeReturn (terminated "," ");" d.args)))] := by
  have hargs : (terminated "," ");" d.args).isEmpty = d.args.isEmpty := by
    rw [Bool.eq_iff_iff, List.isEmpty_iff, List.isEmpty_iff, terminated_eq_nil_iff]
  simp only [code, blocksAll, blocks, nativeReturn, hargs, ownLines_cons_line]
  split
  · rfl
  · simp only [ownLines_cons_line, ownLines_cons_of_line?_eq_none (c := .indent) rfl,
      ownLines_append, ownLines_map_line, ownLines_cons_of_line?_eq_none (c := .dedent) rfl,
      ownLines_nil, List.append_nil, List.nil_append]
    rfl

theorem ToComponentDef.blocksAll_code (d : ToComponentDef) :
    blocksAll d.code =
      [(bridgeHead d.bridge "ComponentType" "ToComponent" "NativeType",
        (if d.usesParam then [] else ["(void)value;"]) ++ ownLines (chainCode d.chain))] := by
  simp only [code, blocksAll, blocks, ownLines_append, List.append_nil]
  split <;> rfl

/-- The lines of a chain of calls that is returned. -/
theorem ownLines_chainCode (call : String) (calls : List String) :
    ownLines (chainCode (call :: calls)) = terminated "" ";" (("return " ++ call) :: calls) := by
  cases calls with
  | nil => simp [chainCode, terminated, ownLines, line?, String.append_assoc]
  | cons next calls =>
      simp only [chainCode, terminated, String.append_empty, ownLines_cons_line,
        ownLines_cons_of_line?_eq_none (c := .indent) rfl, ownLines_append, ownLines_map_line,
        ownLines_cons_of_line?_eq_none (c := .dedent) rfl, ownLines_nil, List.append_nil]

end Cpp

/-! ## The fields of a record -/

/-- The property that belongs to a field, read from an instance and converted. -/
def argText (s : Settings) (f : Field) : String :=
  Component.convert s "ToNative" f.type ("value." ++ s.componentField f.name ++ "()")

/-- The call that sets this property to the converted member, up to its end. -/
def stepText (s : Settings) (i : Nat) (f : Field) : String :=
  (if i = 0 then "return ComponentType::CreateWith" else ".With") ++
    (s.componentField f.name ++ "(" ++
      Component.convert s "ToComponent" f.type ("value." ++ s.nativeField f.name) ++ ")")

/-- Five sequences that list fields in order: members, parameters and initialisations of a struct,
arguments of a native value and steps of the construction of an instance. -/
structure InFieldOrder (s : Settings) (fields : List Field)
    (members params inits args steps : List String) : Prop where
  length_eq : ∀ l ∈ [members, params, inits, args, steps], l.length = fields.length
  member : ∀ (i : Nat) (f : Field), fields[i]? = some f →
    members[i]? = some (Native.typename s f.type ++ " " ++ s.nativeField f.name ++ ";")
  param : ∀ (i : Nat) (f : Field), fields[i]? = some f →
    params[i]? = some (Native.typename s f.type ++ " " ++ (s.nativeLocal f.name ++ "_"))
  /-- A member is initialised from the parameter at its place. -/
  init : ∀ (i : Nat) (f : Field), fields[i]? = some f →
    inits[i]? = some ((if i = 0 then ":" else ",") ++
      (" " ++ s.nativeField f.name ++ "(std::move(" ++ (s.nativeLocal f.name ++ "_") ++ "))"))
  arg : ∀ (i : Nat) (f : Field), fields[i]? = some f →
    args[i]? = some (argText s f ++ if i + 1 = fields.length then ");" else ",")
  step : ∀ (i : Nat) (f : Field), fields[i]? = some f →
    steps[i]? = some (stepText s i f ++ if i + 1 = fields.length then ";" else "")

section Record

variable (s : Settings) (doc : Document) (reg : Registry) (d : Decl) (r : Record)

/-- A record is built by one call for each field, or by the empty factory. -/
theorem ownLines_toComponent :
    ownLines (Cpp.chainCode (((Generator.standard s).emitterOf doc reg).toComponentDef d r).chain) =
      componentReturn (Cpp.terminated "" ";" (r.fields.mapIdx (stepText s))) := by
  obtain ⟨fields, consts, ext⟩ := r
  cases fields with
  | nil => rfl
  | cons f fields =>
      -- The first call stands in the line of the `return`, so its text has another beginning.
      have hchain : (((Generator.standard s).emitterOf doc reg).toComponentDef d
          ⟨f :: fields, consts, ext⟩).chain = _ :=
        Component.finish_foldl_withField s
          ((Generator.standard s).emitterOf doc reg).componentArg Cpp.componentAlias f fields
      have hsteps : (f :: fields).mapIdx (stepText s) = _ := mapIdx_cons_lead ..
      have hne : Cpp.terminated "" ";" ((f :: fields).mapIdx (stepText s)) ≠ [] := by
        rw [Ne, Cpp.terminated_eq_nil_iff, List.mapIdx_eq_nil_iff]
        simp
      rw [hchain, Cpp.ownLines_chainCode, componentReturn, if_neg (by simpa using hne), hsteps,
        ← String.append_assoc]
      rfl

/-- The struct of a record stands alone in its header. -/
theorem blocksAll_structHeader :
    blocksAll (((Generator.standard s).emitterOf doc reg).structHeader d r).code =
      blocksAll (((Generator.standard s).emitterOf doc reg).structDef d r).code := by
  rw [Cpp.SourceFile.blocksAll_code]
  simp [Emitter.structHeader, Emitter.header, Cpp.Item.code, Cpp.SourceFile.hashCode, blocksAll]

/-- The source of a bridge holds its two functions. -/
theorem blocksAll_bridgeSource :
    blocksAll (((Generator.standard s).emitterOf doc reg).bridgeSource d r).code =
      blocksAll (((Generator.standard s).emitterOf doc reg).toNativeDef d r).code ++
        blocksAll (((Generator.standard s).emitterOf doc reg).toComponentDef d r).code := by
  rw [Cpp.SourceFile.blocksAll_code]
  simp [Emitter.bridgeSource, Emitter.source, Cpp.Item.code, Cpp.SourceFile.hashCode, blocksAll]

theorem inFieldOrder (fields : List Field) :
    InFieldOrder s fields
      (fields.map fun f => Native.typename s f.type ++ " " ++ s.nativeField f.name ++ ";")
      (fields.map fun f => Native.typename s f.type ++ " " ++ (s.nativeLocal f.name ++ "_"))
      (fields.mapIdx fun i f => (if i = 0 then ":" else ",") ++
        (" " ++ s.nativeField f.name ++ "(std::move(" ++ (s.nativeLocal f.name ++ "_") ++ "))"))
      (Cpp.terminated "," ");" (fields.map (argText s)))
      (Cpp.terminated "" ";" (fields.mapIdx (stepText s))) where
  length_eq := by simp [Cpp.terminated_eq_mapIdx]
  member i f hf := by simp [hf]
  param i f hf := by simp [hf]
  init i f hf := by simp [hf]
  arg i f hf := by simp [Cpp.terminated_eq_mapIdx, hf]
  step i f hf := by simp [Cpp.terminated_eq_mapIdx, hf]

/-- The expression that makes a native value ends with its last line. -/
theorem isStatement_nativeReturn (fields : List Field) :
    IsStatement (nativeReturn (Cpp.terminated "," ");" (fields.map (argText s)))) := by
  cases fields with
  | nil => exact isStatement_singleton (by decide)
  | cons f fields =>
      rw [nativeReturn, if_neg (by simp [Cpp.terminated_eq_nil_iff])]
      refine IsStatement.cons (by decide) (isStatement_terminated (by simp) ?_ ?_)
      · intro text _
        rw [endsStatement_append (by decide)]
        decide
      · intro text _
        rw [endsStatement_append (by decide)]
        decide

/-- The expression that makes an instance ends with its last line. -/
theorem isStatement_componentReturn (fields : List Field) :
    IsStatement (componentReturn (Cpp.terminated "" ";" (fields.mapIdx (stepText s)))) := by
  cases fields with
  | nil => exact isStatement_singleton (by decide)
  | cons f fields =>
      rw [componentReturn, if_neg (by simp [Cpp.terminated_eq_nil_iff])]
      refine isStatement_terminated (by simp) ?_ ?_
      · -- A call ends with its closing parenthesis.
        intro text htext
        obtain ⟨i, hi, rfl⟩ := List.mem_mapIdx.mp htext
        rw [String.append_empty, stepText, ← String.append_assoc, endsStatement_append (by decide)]
        decide
      · intro text _
        rw [endsStatement_append (by decide)]
        decide

/-- The header of the struct and the source of the bridge are among the artifacts of a run. -/
theorem artifact_mem_of_generate {artifacts : List Artifact}
    (h : (Generator.standard s).generate doc = .ok artifacts)
    (hreg : Registry.build doc = .ok reg) (hd : d ∈ doc.decls) (hbody : d.body = .record r) :
    (((Generator.standard s).emitterOf doc reg).structHeader d r).artifact ∈ artifacts ∧
      (((Generator.standard s).emitterOf doc reg).bridgeSource d r).artifact ∈ artifacts := by
  obtain ⟨reg', blocks, hrun, -, rfl⟩ := Generator.exists_run h
  obtain rfl : reg = reg' := Except.ok.inj (hreg.symm.trans hrun.build)
  obtain ⟨fs, hblock⟩ := hrun.exists_block hd
  have hfiles : ((Generator.standard s).emitterOf doc reg).declFiles d = .ok fs :=
    hrun.yields.files_eq _ hblock
  rw [Emitter.declFiles, hbody] at hfiles
  obtain ⟨sources, rfl, -⟩ := Emitter.recordFiles_eq_ok hfiles
  have hmem : ∀ f ∈ ((Generator.standard s).emitterOf doc reg).structHeader d r ::
      (sources ++ [((Generator.standard s).emitterOf doc reg).bridgeHeader d r,
        ((Generator.standard s).emitterOf doc reg).bridgeSource d r]),
      f.artifact ∈ (ownedFiles blocks).map (·.file.artifact) := by
    intro f hf
    refine List.mem_map.mpr ⟨ownedBy d.name f, ?_, rfl⟩
    exact List.mem_flatMap.mpr ⟨_, hblock, List.mem_map_of_mem hf⟩
  exact ⟨hmem _ (by simp), hmem _ (by simp)⟩

/-- In the files of a record, each of the five sequences has one part for each field, in declared
order. Apart from them, the struct has its constants and the destructor of a base, and a bridge
asserts that there is an instance. Both functions are complete without fields, and each of the two
returned expressions is one statement. The files are written from these layouts, and every run over
a document with the record writes them. -/
theorem record_fields_in_declared_order :
    ∃ members params inits args steps : List String,
      blocksAll (((Generator.standard s).emitterOf doc reg).structHeader d r).code =
        [("struct " ++ s.structName d.name r.ext ++ (if r.ext.native then "" else " final"),
          (r.consts.map fun c =>
            "static " ++ Native.typename s c.type ++ " const " ++ s.nativeConst c.name ++ ";") ++
          members ++
          (if r.fields.isEmpty then []
            else (s.structName d.name r.ext ++ ("(" ++ ", ".intercalate params ++ ")")) ::
              (inits ++ ["\x7b\x7d"])) ++
          if r.ext.native then ["virtual ~" ++ s.structName d.name r.ext ++ "() = default;"]
          else [])] ∧
      blocksAll (((Generator.standard s).emitterOf doc reg).bridgeSource d r).code =
        [(Cpp.bridgeHead (s.bridgeName d.name r.ext) "NativeType" "ToNative" "ComponentType",
          "assert(value != nullptr);" :: ((if r.fields.isEmpty then ["(void)value;"] else []) ++
            nativeReturn args)),
        (Cpp.bridgeHead (s.bridgeName d.name r.ext) "ComponentType" "ToComponent" "NativeType",
          (if r.fields.isEmpty then ["(void)value;"] else []) ++ componentReturn steps)] ∧
      InFieldOrder s r.fields members params inits args steps ∧
      IsStatement (nativeReturn args) ∧ IsStatement (componentReturn steps) ∧
      (((Generator.standard s).emitterOf doc reg).structHeader d r).artifact =
        ⟨s.headerPath (s.recordFileStem d.name r.ext),
          textOf (((Generator.standard s).emitterOf doc reg).structHeader d r).code⟩ ∧
      (((Generator.standard s).emitterOf doc reg).bridgeSource d r).artifact =
        ⟨s.sourcePath (s.bridgeFileStem d.name r.ext),
          textOf (((Generator.standard s).emitterOf doc reg).bridgeSource d r).code⟩ ∧
      ∀ artifacts, (Generator.standard s).generate doc = .ok artifacts →
        Registry.build doc = .ok reg → d ∈ doc.decls → d.body = .record r →
        (((Generator.standard s).emitterOf doc reg).structHeader d r).artifact ∈ artifacts ∧
          (((Generator.standard s).emitterOf doc reg).bridgeSource d r).artifact ∈ artifacts := by
  refine ⟨_, _, _, _, _, ?_, ?_, inFieldOrder s r.fields, isStatement_nativeReturn s r.fields,
    isStatement_componentReturn s r.fields, rfl, rfl,
    fun artifacts => artifact_mem_of_generate s doc reg d r⟩
  · rw [blocksAll_structHeader, Cpp.StructDef.blocksAll_code]
    have hinits : ∀ (mk : Field → Cpp.MemberInit) (text : Nat → Cpp.MemberInit → String),
        (r.fields.map mk).mapIdx text = r.fields.mapIdx fun i f => text i (mk f) := by
      intro mk text
      apply List.ext_getElem?
      simp [Function.comp_def]
    simp only [Emitter.structDef, Cpp.StructDef.ctorLines, Cpp.StructDef.ownLines_initLines,
      Cpp.paramList, List.map_map, hinits, List.isEmpty_map]
    rfl
  · rw [blocksAll_bridgeSource, Cpp.ToNativeDef.blocksAll_code, Cpp.ToComponentDef.blocksAll_code,
      ownLines_toComponent]
    obtain ⟨fields, consts, ext⟩ := r
    cases fields <;> rfl

end Record

namespace Sample

def tile : Record where
  fields := [⟨"width", [], .node (.primitive .i32) []⟩,
    ⟨"label", [], .node (.primitive .string) []⟩]

def tiles : Document := { decls := [⟨"tile", [], .record tile⟩] }

end Sample

open Sample in
theorem tile_fields_in_order :
    ∃ artifacts reg header source members params inits args steps,
      (Generator.standard {}).generate tiles = .ok artifacts ∧ Registry.build tiles = .ok reg ∧
      header ∈ artifacts ∧ source ∈ artifacts ∧
      header.path = ⟨"include/tile.hpp"⟩ ∧ source.path = ⟨"src/tile_bridge.cpp"⟩ ∧
      InFieldOrder {} tile.fields members params inits args steps := by
  have hcount : ((Generator.standard {}).generate tiles).toOption.map (·.length) = some 3 := by
    decide +kernel
  obtain ⟨artifacts, hgenerate, -⟩ := toOption_map_eq_some.mp hcount
  obtain ⟨reg, blocks, hrun, -, -⟩ := Generator.exists_run hgenerate
  obtain ⟨members, params, inits, args, steps, -, -, horder, -, -, hheader, hsource, hmem⟩ :=
    record_fields_in_declared_order {} tiles reg ⟨"tile", [], .record tile⟩ tile
  have hmem := hmem artifacts hgenerate hrun.build (by simp [tiles]) rfl
  refine ⟨artifacts, reg, _, _, members, params, inits, args, steps, hgenerate, hrun.build,
    hmem.1, hmem.2, ?_, ?_, horder⟩
  · rw [hheader]
    show Settings.headerPath {} (Settings.recordFileStem {} "tile" {}) = _
    decide +kernel
  · rw [hsource]
    show Settings.sourcePath {} (Settings.bridgeFileStem {} "tile" {}) = _
    decide +kernel

end IdlBinder

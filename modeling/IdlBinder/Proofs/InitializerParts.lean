import IdlBinder.Proofs.ConstantPlacement
import IdlBinder.Proofs.LiteralFault
import IdlBinder.Proofs.Rendering

set_option autoImplicit false

/-!
# Initializers and what they name

An initializer names enumerators, constants and constructors that other parts of the run declare,
each from its own traversal of the document. `Agrees` reads the named things off the items of the
files of their declarations, and `LaidOut` says where items stand in the text of a file.
`initializers_agree` says that the initializers of all constants of a run agree with what they name.
The induction is that of `Renders`.
-/

namespace IdlBinder

open Code (blocksAll outline ownLines ownLines_flatMap_eq_map textOf)
open Traversal

/-! ## What files declare and define -/

namespace Cpp

/-- The constants that an item declares in its body. -/
def Item.constDecls : Item → List ConstDecl
  | struct d => d.consts
  | abstractClass d => d.consts
  | enumClass _ | const _ | bridge _ | toNative _ | toComponent _ => []

/-- The constant that an item defines. -/
def Item.constDef? : Item → Option ConstDef
  | const c => some c
  | enumClass _ | struct _ | abstractClass _ | bridge _ | toNative _ | toComponent _ => none

/-- The constants declared in the bodies of a file, in order. -/
def SourceFile.constDecls (f : SourceFile) : List ConstDecl := f.items.flatMap Item.constDecls

/-- The constants defined in a file, in order. -/
def SourceFile.constDefs (f : SourceFile) : List ConstDef := f.items.filterMap Item.constDef?

theorem filterMap_constDef? (defs : List ConstDef) :
    (defs.map Item.const).filterMap Item.constDef? = defs := by
  rw [List.filterMap_map]
  exact List.filterMap_some

theorem flatMap_constDecls (defs : List ConstDef) :
    (defs.map Item.const).flatMap Item.constDecls = [] := by
  rw [List.flatMap_map]
  exact List.flatMap_eq_nil_iff.mpr fun _ _ => rfl

/-- The line of a constant in the body of its owner. -/
def ConstDecl.text (c : ConstDecl) : String := "static " ++ c.type ++ " const " ++ c.name ++ ";"

/-- The line of a constant outside of the body. -/
def ConstDef.text (c : ConstDef) : String :=
  c.type ++ " const " ++ c.owner ++ "::" ++ c.name ++ " = " ++ c.value.text ++ ";"

/-- A file is written from a layout in which its items stand: an enum with its enumerators in order,
a struct or a class with its constants and the constructor, and the definitions of constants. -/
structure SourceFile.LaidOut (f : SourceFile) : Prop where
  artifact_eq : f.artifact = ⟨f.path, textOf f.code⟩
  enumClass : ∀ c, .enumClass c ∈ f.items →
    ("enum class " ++ c.name ++ " : int32_t", c.enumerators.map (·.name ++ ",")) ∈
      blocksAll f.code
  struct : ∀ c, .struct c ∈ f.items → ∃ members after,
    ("struct " ++ c.name ++ (if c.isBase then "" else " final"),
      c.consts.map ConstDecl.text ++ members ++
        (if c.members.isEmpty then [] else [c.name ++ paramList c.ctorParams]) ++ after) ∈
      blocksAll f.code
  abstractClass : ∀ c, .abstractClass c ∈ f.items → ∃ before after,
    ("class " ++ c.name, before ++ c.consts.map ConstDecl.text ++ after) ∈ blocksAll f.code
  const : ∀ c, .const c ∈ f.items → .line c.text ∈ outline f.scope f.code

theorem EnumClass.blocksAll_code (c : EnumClass) :
    blocksAll c.code =
      [("enum class " ++ c.name ++ " : int32_t", c.enumerators.map (·.name ++ ","))] := by
  have hlines : ownLines (c.enumerators.flatMap fun o => [.doc o.doc, .line (o.name ++ ",")]) =
      c.enumerators.map (·.name ++ ",") :=
    ownLines_flatMap_eq_map (fun _ => rfl) _
  rw [← hlines]
  rfl

theorem SourceFile.laidOut (f : SourceFile) : f.LaidOut where
  artifact_eq := rfl
  enumClass c hc := by
    refine mem_blocksAll_of_mem hc ?_
    rw [Item.code, EnumClass.blocksAll_code]
    exact List.mem_singleton_self _
  struct c hc := by
    obtain ⟨rest, hctor⟩ : ∃ rest, c.ctorLines =
        (if c.members.isEmpty then [] else [c.name ++ paramList c.ctorParams]) ++ rest := by
      rw [StructDef.ctorLines]
      split
      · exact ⟨[], rfl⟩
      · exact ⟨_, rfl⟩
    refine ⟨c.members.map fun m => m.type ++ " " ++ m.name ++ ";",
      rest ++ if c.isBase then ["virtual ~" ++ c.name ++ "() = default;"] else [],
      mem_blocksAll_of_mem hc ?_⟩
    rw [Item.code, StructDef.blocksAll_code, hctor, List.mem_singleton]
    simp only [List.append_assoc]
    rfl
  abstractClass c hc := by
    refine ⟨["public:", "virtual ~" ++ c.name ++ "() = default;"], c.methods.map MethodDecl.text,
      mem_blocksAll_of_mem hc ?_⟩
    rw [Item.code, ClassDef.blocksAll_code]
    exact List.mem_singleton_self _
  const c hc := by
    refine mem_outline_of_mem hc ?_
    rw [Item.code, ConstDef.entries_code]
    exact List.mem_append_right _ (List.mem_singleton_self _)

end Cpp

namespace Emitter

variable {e : Emitter} {d : Decl}

theorem constDecls_bodyFile (defs : List Cpp.ConstDef) :
    (e.bodyFile d defs).constDecls = d.consts.map e.constDecl := by
  cases hbody : d.body with
  | enum enum =>
      rw [bodyFile, Decl.consts, hbody]
      rfl
  | record r =>
      rw [bodyFile, Decl.consts, hbody]
      exact List.append_nil _
  | interface i =>
      rw [bodyFile, Decl.consts, hbody]
      show i.consts.map e.constDecl ++ (defs.map Cpp.Item.const).flatMap _ = _
      rw [Cpp.flatMap_constDecls, List.append_nil]

theorem constDefs_holder (defs : List Cpp.ConstDef) : (e.holder d defs).constDefs = defs := by
  rw [holder]
  split
  case isTrue => exact Cpp.filterMap_constDef? defs
  case isFalse hparams =>
    -- Only interfaces have type parameters.
    cases hbody : d.body with
    | enum enum => simp [Decl.typeParams, hbody] at hparams
    | record r => simp [Decl.typeParams, hbody] at hparams
    | interface i =>
        rw [bodyFile, hbody]
        exact Cpp.filterMap_constDef? defs

end Emitter

/-! ## Agreement -/

/-- An initializer for a constant of `d` renders a literal at a type and agrees with the files of a
run, where these constants are declared before it in the body of `d`. -/
inductive Agrees (s : Settings) (doc : Document) (files : List OwnedFile) (ctx : LiteralContext)
    (d : Decl) (earlier : List Cpp.ConstDecl) : Literal → TypeExpr → Initializer → Prop where
  | scalar {v : Literal} {t : TypeExpr} {p : Prim} {text : String} :
      t.core.head = .primitive p → v.SpelledAs p text → ctx.elaborate v t = .ok (.scalar text) →
      Agrees s doc files ctx d earlier v t (.scalar text)
  /-- The enumerator that the header of the enum has at the position of the option. -/
  | enumerator {option : String} {t : TypeExpr} {named : Decl} {enum : Enum} {ordinal : Nat}
      {f : Cpp.SourceFile} {enumClass : Cpp.EnumClass} {enumerator : Cpp.Enumerator} :
      named ∈ doc.decls → named.body = .enum enum →
      t.core.head = .declared ⟨named.name, .enum⟩ → enum.ordinal? option = some ordinal →
      f ∈ filesOf named.name files → .enumClass enumClass ∈ f.items →
      enumClass.enumerators[ordinal]? = some enumerator →
      Agrees s doc files ctx d earlier (.enumOption option) t
        (.enumerator (s.qualify enumClass.name) enumerator.name)
  /-- A constant declared earlier, by its name in the body. -/
  | constant {target : String} {t : TypeExpr} {position : Nat} {c : Const}
      {declared : Cpp.ConstDecl} :
      d.consts[position]? = some c → c.name = target → c.type = t →
      earlier[position]? = some declared →
      Agrees s doc files ctx d earlier (.constRef target) t
        (.constant (s.qualifier d) declared.name)
  /-- A constructor with one argument for each field, in the order of the fields and with their
  names beside them, each of which renders the value of its field. Unless the record is finished by
  hand, it is the constructor of the struct in the files of the record. -/
  | construct {entries : List (String × Literal)} {t : TypeExpr} {named : Decl} {r : Record}
      {name : String} {args : List (Initializer × String)} :
      named ∈ doc.decls → named.body = .record r →
      t.core.head = .declared ⟨named.name, .record⟩ → name = s.nativeQualified named.name →
      (r.ext.native = false → ∃ f ∈ filesOf named.name files, ∃ struct : Cpp.StructDef,
        .struct struct ∈ f.items ∧ name = s.qualify struct.name ∧
          args.length = struct.ctorParams.length) →
      args.map (·.2) = r.fields.map (fun field => s.nativeField field.name) →
      (∀ field ∈ r.fields, ∃ v, NameMap.find? field.name entries = some v) →
      (∀ (i : Nat) field v a, r.fields[i]? = some field →
        NameMap.find? field.name entries = some v → args[i]? = some a →
        ctx.elaborate v field.type = .ok a.1) →
      (∀ (i : Nat) field v a, r.fields[i]? = some field →
        NameMap.find? field.name entries = some v → args[i]? = some a →
        Agrees s doc files ctx d earlier v field.type a.1) →
      Agrees s doc files ctx d earlier (.record entries) t (.construct name args)

/-! ## The declarations that are named -/

theorem FirstNamed.getElem? {consts : List Const} {name : String} {position : Nat} {c : Const}
    (h : FirstNamed consts name position c) : consts[position]? = some c ∧ c.name = name := by
  obtain ⟨before, after, rfl, rfl, hname, -⟩ := h
  exact ⟨by simp, hname⟩

namespace Generator.Run

variable {s : Settings} {doc : Document} {r : Registry}
variable {blocks : List (Decl × List Cpp.SourceFile)} {d : Decl}
variable (hrun : (standard s).Run doc r blocks)
include hrun

/-- The header of an enum has at the position of an option the enumerator of this option. -/
theorem exists_enumerator (hd : d ∈ doc.decls) {enum : Enum} (hbody : d.body = .enum enum)
    {option : String} {ordinal : Nat} (hordinal : enum.ordinal? option = some ordinal) :
    ∃ f ∈ filesOf d.name (ownedFiles blocks), ∃ enumClass : Cpp.EnumClass,
      .enumClass enumClass ∈ f.items ∧ enumClass.name = s.nativeType d.name ∧
      ∃ enumerator, enumClass.enumerators[ordinal]? = some enumerator ∧
        enumerator.name = s.nativeEnumOption option := by
  obtain ⟨defs, -, hfile⟩ := hrun.exists_bodyFile hd
  rw [Emitter.bodyFile, hbody] at hfile
  refine ⟨_, hfile, _, List.mem_singleton_self _, rfl, ?_⟩
  obtain ⟨hlt, hname, -⟩ := List.findIdx?_eq_some_iff_getElem.mp hordinal
  refine ⟨_, List.getElem?_map.trans (congrArg _ (List.getElem?_eq_getElem hlt)), ?_⟩
  rw [beq_iff_eq] at hname
  show s.nativeEnumOption enum.options[ordinal].name = _
  rw [hname]

/-- The header of a record that is not finished by hand holds the struct of the plain name, whose
constructor has one parameter for each field. -/
theorem exists_struct (hd : d ∈ doc.decls) {b : Record} (hbody : d.body = .record b)
    (hnative : b.ext.native = false) :
    ∃ f ∈ filesOf d.name (ownedFiles blocks), ∃ struct : Cpp.StructDef,
      .struct struct ∈ f.items ∧ s.nativeQualified d.name = s.qualify struct.name ∧
        b.fields.length = struct.ctorParams.length := by
  obtain ⟨defs, -, hfile⟩ := hrun.exists_bodyFile hd
  rw [Emitter.bodyFile, hbody] at hfile
  refine ⟨_, hfile, _, List.mem_singleton_self _, ?_, List.length_map _ |>.symm⟩
  have hname : s.structName d.name b.ext = s.nativeType d.name := by
    simp [Settings.structName, Settings.recordBase, Settings.nativeType, hnative]
  show _ = s.qualify (s.structName d.name b.ext)
  rw [hname]
  rfl

/-- The definition of a constant is in a file of its owner, at the position of the constant, and its
value is what the literal is elaborated to. -/
theorem exists_definition (hd : d ∈ doc.decls) {i : Nat} {c : Const} (hc : d.consts[i]? = some c) :
    ∃ defs, ∃ f ∈ ownedFiles blocks, f.owner = d.name ∧
      f.file = ((standard s).emitterOf doc r).holder d defs ∧
      ∃ definition, f.file.constDefs[i]? = some definition ∧
        definition.owner = s.qualifier d ∧ definition.name = s.nativeConst c.name ∧
        (((standard s).emitterOf doc r).literalContext
          (((standard s).emitterOf doc r).scopeOf d) i c.name).elaborate c.value c.type =
          .ok definition.value := by
  obtain ⟨defs, hdefs, hholder⟩ := hrun.exists_holder hd (List.mem_of_getElem? hc)
  obtain ⟨f, hf, howner, hfile⟩ := mem_filesOf.mp hholder
  obtain ⟨-, hvalues⟩ := Emitter.getElem?_of_constDefs hdefs
  obtain ⟨value, hvalue, hdef⟩ := hvalues i c hc
  rw [← Emitter.constDefs_holder defs, ← hfile] at hdef
  exact ⟨defs, f, hf, howner, hfile, _, hdef, rfl, rfl, hvalue⟩

/-- What the literal of a constant is elaborated to is what it is rendered to. -/
theorem renders_const (hd : d ∈ doc.decls) {i : Nat} {c : Const} (hc : d.consts[i]? = some c)
    {value : Initializer}
    (h : (((standard s).emitterOf doc r).literalContext
      (((standard s).emitterOf doc r).scopeOf d) i c.name).elaborate c.value c.type = .ok value) :
    Renders (((standard s).emitterOf doc r).literalContext
      (((standard s).emitterOf doc r).scopeOf d) i c.name) doc c.value c.type value := by
  have hdoc : Registry.Checked doc ((standard s).emitterOf doc r).registry := hrun.checked
  exact LiteralContext.renders_of_elaborate hdoc
    (Emitter.wellFormed_const hdoc hd c (List.mem_of_getElem? hc)) h

/-- What a literal is rendered to agrees with the files of the run. -/
theorem agrees_of_renders {index : Nat} {name : String} {v : Literal} {t : TypeExpr}
    {init : Initializer}
    (h : Renders (((standard s).emitterOf doc r).literalContext
      (((standard s).emitterOf doc r).scopeOf d) index name) doc v t init) :
    Agrees s doc (ownedFiles blocks)
      (((standard s).emitterOf doc r).literalContext
        (((standard s).emitterOf doc r).scopeOf d) index name) d
      ((d.consts.map ((standard s).emitterOf doc r).constDecl).take index) v t init := by
  induction h with
  | scalar hhead hspelled hvalue => exact .scalar hhead hspelled hvalue
  | @constant target t position c hfirst hpos htype =>
      obtain ⟨hc, rfl⟩ := hfirst.getElem?
      have hc : d.consts[position]? = some c := hc
      have hpos : position < index := hpos
      -- The body declares the constants in the order in which the document has them.
      have hdeclared :
          ((d.consts.map ((standard s).emitterOf doc r).constDecl).take index)[position]? =
            some (((standard s).emitterOf doc r).constDecl c) := by
        rw [List.getElem?_take_of_lt hpos, List.getElem?_map, hc]
        rfl
      exact .constant hc rfl htype hdeclared
  | @enumerator option t named enum ordinal hnamed hbody hhead hordinal =>
      obtain ⟨f, hf, enumClass, hitem, hclass, enumerator, henumerator, hname⟩ :=
        hrun.exists_enumerator hnamed hbody hordinal
      show Agrees _ _ _ _ _ _ _ _ (.enumerator (s.qualify (s.nativeType named.name))
        (s.nativeEnumOption option))
      rw [← hclass, ← hname]
      exact .enumerator hnamed hbody hhead hordinal hf hitem henumerator
  | @construct entries t named b args hnamed hbody hcore hnames hfields hvalues _ ih =>
      have hlength : args.length = b.fields.length := by
        simpa using congrArg List.length hnames
      have hname : (Native.marshal s).typename t.core = s.nativeQualified named.name := by
        rw [hcore]
        rfl
      refine .construct hnamed hbody ?_ hname ?_ hnames hfields hvalues ih
      · rw [hcore]
        rfl
      · intro hnative
        obtain ⟨f, hf, struct, hitem, hstruct, hparams⟩ := hrun.exists_struct hnamed hbody hnative
        exact ⟨f, hf, struct, hitem, hname.trans hstruct, hlength.trans hparams⟩

end Generator.Run

/-- In a run with the standard marshals, every constant has a definition whose initializer renders
its value and agrees with the enums, constants and structs that it names. -/
theorem initializers_agree (s : Settings) {doc : Document} {artifacts : List Artifact}
    (h : (Generator.standard s).generate doc = .ok artifacts) :
    ∃ r files, Registry.build doc = .ok r ∧ (Generator.standard s).files doc = .ok files ∧
      artifacts = files.map (·.file.artifact) ∧ (∀ f ∈ files, f.file.LaidOut) ∧
      ∀ d ∈ doc.decls, ∀ (i : Nat) c, d.consts[i]? = some c →
        ∃ header ∈ filesOf d.name files, ∃ holder ∈ filesOf d.name files, ∃ definition,
          header.path = s.headerPath (s.bodyStem d) ∧
          header.constDecls.map (·.name) = d.consts.map (fun c => s.nativeConst c.name) ∧
          holder.constDefs[i]? = some definition ∧ definition.owner = s.qualifier d ∧
          definition.name = s.nativeConst c.name ∧
          (((Generator.standard s).emitterOf doc r).literalContext
            (((Generator.standard s).emitterOf doc r).scopeOf d) i c.name).elaborate
            c.value c.type = .ok definition.value ∧
          Agrees s doc files
            (((Generator.standard s).emitterOf doc r).literalContext
              (((Generator.standard s).emitterOf doc r).scopeOf d) i c.name)
            d (header.constDecls.take i) c.value c.type definition.value := by
  obtain ⟨r, blocks, hrun, hfiles, rfl⟩ := Generator.exists_run h
  refine ⟨r, _, hrun.build, hfiles, rfl, fun f _ => f.file.laidOut, fun d hd i c hc => ?_⟩
  obtain ⟨headerDefs, -, hheader⟩ := hrun.exists_bodyFile hd
  obtain ⟨defs, holder, hholder, howner, -, definition, hdef, hqualifier, hname, hvalue⟩ :=
    hrun.exists_definition hd hc
  refine ⟨_, hheader, holder.file, mem_filesOf.mpr ⟨holder, hholder, howner, rfl⟩, definition,
    Emitter.path_bodyFile _, ?_, hdef, hqualifier, hname, hvalue, ?_⟩
  · rw [Emitter.constDecls_bodyFile, List.map_map]
    rfl
  · rw [Emitter.constDecls_bodyFile]
    exact hrun.agrees_of_renders (hrun.renders_const hd hc hvalue)

open Sample in
/-- The second constant of a record refers to the first one, and to an enum through another record.
The literal has the keys in another order than the constructor. -/
theorem axis_agrees :
    ∃ files, (Generator.standard {}).files doc = .ok files ∧
      ∃ header ∈ filesOf "line" files, ∃ holder ∈ filesOf "line" files, ∃ definition,
        holder.constDefs[1]? = some definition ∧
        definition.value.text = "::bridge::Line(Line::ORIGIN /* start */, " ++
          "::bridge::Dot(::bridge::Color::GREEN /* tint */, 2.0 /* size */) /* stop */)" ∧
        ∃ ctx, ctx.elaborate axis.value axis.type = .ok definition.value ∧
          Agrees {} doc files ctx line (header.constDecls.take 1) axis.value axis.type
            definition.value := by
  have hrun : ((Generator.standard {}).files doc).toOption.map (fun files =>
      (filesOf "line" files).map fun f => f.constDefs.map (·.value.text)) =
      some [[], ["::bridge::Dot(::bridge::Color::RED /* tint */, 1.0 /* size */)",
        "::bridge::Line(Line::ORIGIN /* start */, " ++
          "::bridge::Dot(::bridge::Color::GREEN /* tint */, 2.0 /* size */) /* stop */)"],
        [], []] := by
    decide +kernel
  obtain ⟨files, hfiles, htexts⟩ := toOption_map_eq_some.mp hrun
  have hgenerate : (Generator.standard {}).generate doc = .ok (files.map (·.file.artifact)) :=
    map_eq_ok.mpr ⟨files, hfiles, rfl⟩
  obtain ⟨r, files', -, hfiles', -, -, hagree⟩ := initializers_agree {} hgenerate
  obtain rfl : files = files' := Except.ok.inj (hfiles.symm.trans hfiles')
  obtain ⟨header, hheader, holder, hholder, definition, -, -, hdef, -, -, hvalue⟩ :=
    hagree line (by simp [doc]) 1 axis rfl
  refine ⟨files, hfiles, header, hheader, holder, hholder, definition, hdef, ?_, _, hvalue⟩
  -- Only the source of the record has a second definition.
  have hmem := List.mem_map_of_mem (f := fun f => f.constDefs.map (·.value.text)) hholder
  have hsecond : (holder.constDefs.map (·.value.text))[1]? = some definition.value.text := by
    rw [List.getElem?_map, hdef]
    rfl
  have htexts' : holder.constDefs.map (·.value.text) ∈ [[], _, [], []] := htexts ▸ hmem
  simp only [List.mem_cons, List.not_mem_nil, or_false] at htexts'
  rcases htexts' with htext | htext | htext | htext
  · rw [htext] at hsecond
    cases hsecond
  · rw [htext] at hsecond
    exact (Option.some.inj hsecond).symm
  · rw [htext] at hsecond
    cases hsecond
  · rw [htext] at hsecond
    cases hsecond

end IdlBinder

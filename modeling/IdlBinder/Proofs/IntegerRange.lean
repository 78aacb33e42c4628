import IdlBinder.Proofs.ConstantPlacement
import IdlBinder.Proofs.FirstFault
import IdlBinder.Proofs.Rendering

set_option autoImplicit false

/-!
# Integers and the width of their types

An integer literal has 64 bits, and an integer type has 8, 16, 32 or 64. A literal at an integer
type is spelled as it stands, and nothing compares it with the width. So the integers of a document
have no bearing on whether it is generated from, and a constant or a constructor argument holds the
value of its literal only where that value is in range. `integers_kept_iff_in_range` says both;
`dials_out_of_range` is a document with integers that are not.
-/

namespace IdlBinder

open Traversal

/-! ## Documents with other integers -/

namespace Literal

mutual

/-- A literal with every integer in it replaced. -/
def mapIntegers (f : Int64 → Int64) : Literal → Literal
  | int i => int (f i)
  | record entries => record (mapIntegersAll f entries)
  | v => v

/-- The entries of a record literal with every integer in them replaced. -/
def mapIntegersAll (f : Int64 → Int64) : List (String × Literal) → List (String × Literal)
  | [] => []
  | (name, v) :: rest => (name, v.mapIntegers f) :: mapIntegersAll f rest

end

theorem mapIntegers_record (f : Int64 → Int64) (entries : List (String × Literal)) :
    (record entries).mapIntegers f = record (entries.map fun p => (p.1, p.2.mapIntegers f)) := by
  rw [mapIntegers]
  congr 1
  induction entries with
  | nil => rfl
  | cons p entries ih => rw [mapIntegersAll, ih, List.map_cons]

theorem mapIntegers_of_not_int {f : Int64 → Int64} {v : Literal} (hint : ∀ i, v ≠ int i)
    (hrec : ∀ entries, v ≠ record entries) : v.mapIntegers f = v := by
  cases v with
  | int i => exact absurd rfl (hint i)
  | record entries => exact absurd rfl (hrec entries)
  | _ => simp only [mapIntegers]

end Literal

/-- A constant with every integer in its value replaced. -/
def Const.mapIntegers (f : Int64 → Int64) (c : Const) : Const :=
  { c with value := c.value.mapIntegers f }

/-- The constants of a body with every integer replaced. -/
def Body.mapIntegers (f : Int64 → Int64) : Body → Body
  | .enum e => .enum e
  | .record r => .record { r with consts := r.consts.map (Const.mapIntegers f) }
  | .interface i => .interface { i with consts := i.consts.map (Const.mapIntegers f) }

/-- A declaration with every integer in its constants replaced. -/
def Decl.mapIntegers (f : Int64 → Int64) (d : Decl) : Decl :=
  { d with body := d.body.mapIntegers f }

/-- A document with every integer in it replaced. -/
def Document.mapIntegers (f : Int64 → Int64) (doc : Document) : Document :=
  { doc with decls := doc.decls.map (Decl.mapIntegers f) }

/-- The registry of a document with every integer in it replaced. -/
def Registry.mapIntegers (f : Int64 → Int64) (r : Registry) : Registry :=
  ⟨r.entries.map fun p => (p.1, p.2.mapIntegers f)⟩

variable {f : Int64 → Int64}

namespace Decl

@[simp] theorem name_mapIntegers (d : Decl) : (d.mapIntegers f).name = d.name := rfl

@[simp] theorem kind_mapIntegers (d : Decl) : (d.mapIntegers f).kind = d.kind := by
  show (d.body.mapIntegers f).kind = d.body.kind
  cases d.body <;> rfl

@[simp] theorem typeParams_mapIntegers (d : Decl) :
    (d.mapIntegers f).typeParams = d.typeParams := by
  simp only [typeParams, mapIntegers]
  cases d.body <;> rfl

@[simp] theorem types_mapIntegers (d : Decl) : (d.mapIntegers f).types = d.types := by
  simp only [types, mapIntegers]
  cases d.body with
  | enum e => rfl
  | record r => simp [Body.mapIntegers, Record.types, Const.mapIntegers, Function.comp_def]
  | interface i => simp [Body.mapIntegers, Interface.types, Const.mapIntegers, Function.comp_def]

@[simp] theorem uses_mapIntegers (d : Decl) : (d.mapIntegers f).uses = d.uses := by
  rw [uses_eq_map, uses_eq_map, name_mapIntegers, typeParams_mapIntegers, types_mapIntegers]

end Decl

/-! ## The registry and the check -/

namespace Registry

variable (r : Registry)

@[simp] theorem get?_mapIntegers (name : String) :
    (r.mapIntegers f).get? name = (r.get? name).map (Decl.mapIntegers f) :=
  NameMap.find?_map (Decl.mapIntegers f) name r.entries

@[simp] theorem enum?_mapIntegers (name : String) :
    (r.mapIntegers f).enum? name = r.enum? name := by
  rw [enum?, enum?, get?_mapIntegers]
  cases r.get? name with
  | none => rfl
  | some d =>
      show (d.body.mapIntegers f).enum? = d.body.enum?
      cases d.body <;> rfl

@[simp] theorem record?_mapIntegers (name : String) :
    (r.mapIntegers f).record? name =
      (r.record? name).map fun b => { b with consts := b.consts.map (Const.mapIntegers f) } := by
  rw [record?, record?, get?_mapIntegers]
  cases r.get? name with
  | none => rfl
  | some d =>
      show (d.body.mapIntegers f).record? = d.body.record?.map _
      cases d.body <;> rfl

theorem paramCount_mapIntegers (name : String) :
    (r.mapIntegers f).paramCount name = r.paramCount name := by
  rw [paramCount, paramCount, interface?, interface?, get?_mapIntegers]
  cases r.get? name with
  | none => rfl
  | some d =>
      show ((d.body.mapIntegers f).interface?.map _).getD 0 = (d.body.interface?.map _).getD 0
      cases d.body <;> rfl

theorem add_mapIntegers (d : Decl) :
    (r.mapIntegers f).add (d.mapIntegers f) = (r.add d).map (mapIntegers f) := by
  rw [add, add, Decl.name_mapIntegers, get?_mapIntegers]
  cases r.get? d.name with
  | some _ => rfl
  | none =>
      show Except.ok _ = Except.ok _
      rw [mapIntegers, mapIntegers, NameMap.insert_map]

theorem build_mapIntegers (doc : Document) :
    build (doc.mapIntegers f) = (build doc).map (mapIntegers f) := by
  have hrun : ∀ (decls : List Decl) (r : Registry),
      (decls.map (Decl.mapIntegers f)).foldlM add (r.mapIntegers f) =
        (decls.foldlM add r).map (mapIntegers f) := by
    intro decls
    induction decls with
    | nil => exact fun r => rfl
    | cons d decls ih =>
        intro r
        rw [List.map_cons, List.foldlM_cons, List.foldlM_cons, add_mapIntegers]
        cases r.add d with
        | error e => rfl
        | ok r' => exact ih r'
  exact hrun doc.decls empty

theorem checkNode_mapIntegers (owner : String) (params : List String) (n : TypeExpr) :
    (r.mapIntegers f).checkNode owner params n = r.checkNode owner params n := by
  have harity : (r.mapIntegers f).arityOf owner params n.head = r.arityOf owner params n.head := by
    cases n.head with
    | declared ref =>
        rw [arityOf, arityOf, paramCount_mapIntegers, get?_mapIntegers]
        cases r.get? ref.name with
        | none => rfl
        | some d => simp only [Option.map_some, Option.any_some, Decl.kind_mapIntegers]
    | _ => rfl
  rw [checkNode, checkNode, harity]

theorem check_mapIntegers (doc : Document) :
    (r.mapIntegers f).check (doc.mapIntegers f) = r.check doc := by
  have huses : (doc.mapIntegers f).uses = doc.uses := by
    simp [Document.uses, Document.mapIntegers, List.flatMap_map]
  rw [check_eq_forM, check_eq_forM, huses]
  refine forM_congr fun u _ => ?_
  rw [checkType_eq_forM, checkType_eq_forM]
  exact forM_congr fun n _ => checkNode_mapIntegers r u.owner u.params n

end Registry

/-! ## Literals -/

namespace LiteralContext

/-- The place of a literal in a document with every integer in it replaced. -/
def mapIntegers (f : Int64 → Int64) (ctx : LiteralContext) : LiteralContext :=
  { ctx with
    registry := ctx.registry.mapIntegers f
    scope := { ctx.scope with consts := ctx.scope.consts.map (Const.mapIntegers f) } }

variable (ctx : LiteralContext)

theorem reference_mapIntegers (target : String) (t : TypeExpr) :
    (ctx.mapIntegers f).reference target t = ctx.reference target t := by
  have hfind : (ctx.scope.consts.map (Const.mapIntegers f)).zipIdx.find? (·.1.name == target) =
      (ctx.scope.consts.zipIdx.find? (·.1.name == target)).map
        (Prod.map (Const.mapIntegers f) id) := by
    rw [List.zipIdx_map, List.find?_map]
    rfl
  unfold reference
  simp only [mapIntegers, hfind]
  cases ctx.scope.consts.zipIdx.find? (·.1.name == target) with
  | none => rfl
  | some p => rfl

theorem plain_mapIntegers (v : Literal) (t : TypeExpr) :
    (ctx.mapIntegers f).plain v t = ctx.plain v t := by
  have henumerator : ∀ name option, (ctx.mapIntegers f).enumerator name option =
      ctx.enumerator name option := by
    intro name option
    rw [enumerator, enumerator]
    show (if (((ctx.registry.mapIntegers f).enum? name).bind _).isSome then _ else _) = _
    rw [Registry.enum?_mapIntegers]
    rfl
  rw [plain, plain]
  cases t.head with
  | declared ref =>
      simp only [henumerator]
      rfl
  | _ => rfl

/-- At every type an integer does as well as another. -/
theorem plain_int_alike (i j : Int64) (t : TypeExpr) :
    Alike (fun _ _ => True) (ctx.plain (.int i) t) (ctx.plain (.int j) t) := by
  rw [plain, plain]
  cases t.head with
  | primitive p =>
      cases p with
      | i8 | i16 | i32 | i64 | f32 | f64 => exact .ok trivial
      | bool | string | binary | date => exact .error _
  | declared ref =>
      obtain ⟨name, kind⟩ := ref
      cases kind <;> exact .error _
  | _ => exact .error _

/-- Away from record types, record literals are all alike. -/
theorem plain_record (entries entries' : List (String × Literal)) (t : TypeExpr) :
    ctx.plain (.record entries) t = ctx.plain (.record entries') t := by
  rw [plain, plain]
  cases t.head with
  | primitive p => cases p <;> rfl
  | declared ref =>
      obtain ⟨name, kind⟩ := ref
      cases kind <;> rfl
  | _ => rfl

/-- A record literal does as well with other integers if each of its values does. -/
theorem construct_alike {entries : List (String × Literal)}
    (ih : ∀ p ∈ entries, ∀ t, Alike (fun _ _ => True) (ctx.elaborate p.2 t)
      ((ctx.mapIntegers f).elaborate (p.2.mapIntegers f) t)) (ref : DefRef) (t : TypeExpr) :
    Alike (fun _ _ => True) (ctx.construct ref t (ctx.elaborateAll entries))
      ((ctx.mapIntegers f).construct ref t
        ((ctx.mapIntegers f).elaborateAll (entries.map fun p => (p.1, p.2.mapIntegers f)))) := by
  have hrecord : (ctx.mapIntegers f).registry.record? ref.name =
      (ctx.registry.record? ref.name).map fun b =>
        { b with consts := b.consts.map (Const.mapIntegers f) } :=
    Registry.record?_mapIntegers ctx.registry ref.name
  have hnames : NameMap.names ((ctx.mapIntegers f).elaborateAll
      (entries.map fun p => (p.1, p.2.mapIntegers f))) =
      NameMap.names (ctx.elaborateAll entries) := by
    simp [elaborateAll_eq, NameMap.names, Function.comp_def]
  rw [construct, construct, hrecord, hnames]
  cases ctx.registry.record? ref.name with
  | none => exact .error _
  | some b =>
      simp only [Option.map_some]
      split
      · exact .error _
      · refine Alike.map (R := fun _ _ => True)
          (Alike.mapM (R := fun _ _ => True) fun field _ => ?_) fun _ _ _ => trivial
        rw [elaborateAll_eq, elaborateAll_eq, NameMap.find?_map, NameMap.find?_map,
          NameMap.find?_map]
        cases hfind : NameMap.find? field.name entries with
        | none => exact .error _
        | some v =>
            have hv := ih (field.name, v) (NameMap.mem_of_find? hfind) field.type
            exact hv.map fun _ _ _ => trivial

/-- A literal is accepted, or rejected for the same reason, with other integers in it and in the
constants that it may refer to. -/
theorem elaborate_alike (v : Literal) (t : TypeExpr) :
    Alike (fun _ _ => True) (ctx.elaborate v t)
      ((ctx.mapIntegers f).elaborate (v.mapIntegers f) t) := by
  induction v using Literal.referenceInduction generalizing t with
  | record entries ih =>
      rw [Literal.mapIntegers_record, elaborate, elaborate]
      split
      · exact ctx.construct_alike ih _ _
      · -- Where no record is asked for, the entries are not looked at.
        rw [plain_mapIntegers]
        exact .of_eq (ctx.plain_record _ _ _)
  | constRef target =>
      rw [Literal.mapIntegers_of_not_int (by simp) (by simp), elaborate, elaborate,
        reference_mapIntegers]
      exact .of_eq rfl
  | other v hv hrec =>
      by_cases hint : ∃ i, v = .int i
      · obtain ⟨i, rfl⟩ := hint
        rw [Literal.mapIntegers, elaborate_of_not_record (by simp) (by simp),
          elaborate_of_not_record (by simp) (by simp), plain_mapIntegers]
        exact ctx.plain_int_alike i (f i) t.core
      · rw [Literal.mapIntegers_of_not_int (fun i hi => hint ⟨i, hi⟩) hrec,
          elaborate_of_not_record hv hrec, elaborate_of_not_record hv hrec, plain_mapIntegers]
        exact .of_eq rfl

end LiteralContext

/-! ## Declarations -/

namespace Emitter

/-- The emitter for a document with every integer in it replaced. -/
def mapIntegers (f : Int64 → Int64) (e : Emitter) : Emitter :=
  { e with registry := e.registry.mapIntegers f }

variable (e : Emitter)

theorem constDefs_alike (scope : ConstScope) (template : Option Cpp.Template) :
    Alike (fun _ _ => True) (e.constDefs scope template)
      ((e.mapIntegers f).constDefs
        { scope with consts := scope.consts.map (Const.mapIntegers f) } template) := by
  unfold constDefs
  simp only [List.zipIdx_map, List.mapM_map]
  refine Alike.mapM (R := fun _ _ => True) fun c _ => ?_
  have hvalue := (e.literalContext scope c.2 c.1.name).elaborate_alike (f := f) c.1.value c.1.type
  exact hvalue.bind fun _ _ _ => .ok trivial

/-- The files of a declaration lie where they did, or there are none for the same reason. -/
theorem declFiles_alike (d : Decl) :
    Alike (fun fs fs' => fs.map (·.path) = fs'.map (·.path)) (e.declFiles d)
      ((e.mapIntegers f).declFiles (d.mapIntegers f)) := by
  obtain ⟨name, doc, body⟩ := d
  cases body with
  | enum enum => exact .ok rfl
  | record r =>
      show Alike _ (e.recordFiles _ r) ((e.mapIntegers f).recordFiles _ _)
      rw [recordFiles, recordFiles]
      simp only [List.isEmpty_map]
      split
      · exact .ok rfl
      · have hdefs := e.constDefs_alike (f := f) (e.structScope ⟨name, doc, .record r⟩ r) none
        have hsource : Alike (fun s s' => s.path = s'.path)
            (e.structSource ⟨name, doc, .record r⟩ r)
            ((e.mapIntegers f).structSource (Decl.mapIntegers f ⟨name, doc, .record r⟩)
              { r with consts := r.consts.map (Const.mapIntegers f) }) :=
          hdefs.bind fun _ _ _ => .ok rfl
        refine hsource.bind fun s s' hpath => .ok ?_
        simp only [List.map_cons, hpath]
        rfl
  | interface i =>
      show Alike _ (e.interfaceFiles _ i) ((e.mapIntegers f).interfaceFiles _ _)
      rw [interfaceFiles, interfaceFiles]
      simp only [List.isEmpty_map]
      split
      · exact .ok rfl
      · have hdefs := e.constDefs_alike (f := f) (e.classScope ⟨name, doc, .interface i⟩ i)
          (e.template i)
        refine hdefs.bind fun a b _ => ?_
        split
        · exact .ok rfl
        · exact .ok rfl

end Emitter

/-! ## Documents -/

/-- What a further file can collide with: where a file lies and whose it is. -/
def OwnedFile.slot (x : OwnedFile) : String × Path := (x.owner, x.file.path)

theorem addFile_alike {files files' : List OwnedFile} {file file' : Cpp.SourceFile} (owner : String)
    (hfiles : files.map (·.slot) = files'.map (·.slot)) (hfile : file.path = file'.path) :
    Alike (fun fs fs' => fs.map (·.slot) = fs'.map (·.slot)) (addFile owner files file)
      (addFile owner files' file') := by
  -- The search for a collision sees nothing but the slots.
  have hfind : ∀ fs : List OwnedFile,
      (fs.find? (·.place.val == file.path.components)).map (·.slot) =
        (fs.map (·.slot)).find? (·.2.components == file.path.components) := by
    intro fs
    rw [List.find?_map]
    congr 2
    funext x
    exact congrArg (· == file.path.components) x.place.property
  have hsame := (hfind files).trans ((congrArg _ hfiles).trans (hfind files').symm)
  rw [addFile, addFile, ← hfile]
  cases hx : files.find? (·.place.val == file.path.components) with
  | none =>
      rw [hx, Option.map_none, eq_comm, Option.map_eq_none_iff] at hsame
      rw [hsame]
      refine .ok ?_
      rw [List.map_append, List.map_append, hfiles]
      simp [OwnedFile.slot, ownedBy, hfile]
  | some x =>
      rw [hx, Option.map_some, eq_comm, Option.map_eq_some_iff] at hsame
      obtain ⟨y, hy, hslot⟩ := hsame
      have howner : y.owner = x.owner := congrArg Prod.fst hslot
      rw [hy]
      simp only [howner]
      exact .error _

theorem addFiles_alike {fs fs' : List Cpp.SourceFile} (owner : String)
    (hfs : fs.map (·.path) = fs'.map (·.path)) {files files' : List OwnedFile}
    (hfiles : files.map (·.slot) = files'.map (·.slot)) :
    Alike (fun fs fs' => fs.map (·.slot) = fs'.map (·.slot)) (fs.foldlM (addFile owner) files)
      (fs'.foldlM (addFile owner) files') := by
  induction fs generalizing fs' files files' with
  | nil =>
      rw [List.map_nil, eq_comm, List.map_eq_nil_iff] at hfs
      rw [hfs]
      exact .ok hfiles
  | cons file fs ih =>
      cases fs' with
      | nil => simp at hfs
      | cons file' fs' =>
          obtain ⟨hfile, hfs⟩ := List.cons.inj hfs
          rw [List.foldlM_cons, List.foldlM_cons]
          exact (addFile_alike owner hfiles hfile).bind fun _ _ hfiles => ih hfs hfiles

namespace Generator

variable (g : Generator) (doc : Document)

theorem emitter_mapIntegers :
    g.emitter (doc.mapIntegers f) = (g.emitter doc).map (Emitter.mapIntegers f) := by
  rw [emitter, emitter, Registry.build_mapIntegers]
  cases Registry.build doc with
  | error e => rfl
  | ok r =>
      show ((r.mapIntegers f).check (doc.mapIntegers f) >>= _) = Except.map _ (r.check doc >>= _)
      rw [Registry.check_mapIntegers]
      cases r.check doc with
      | error e => rfl
      | ok _ => rfl

theorem files_alike :
    Alike (fun fs fs' => fs.map (·.slot) = fs'.map (·.slot)) (g.files doc)
      (g.files (doc.mapIntegers f)) := by
  rw [files, files, emitter_mapIntegers]
  cases g.emitter doc with
  | error e => exact .error e
  | ok e =>
      show Alike _ (doc.decls.foldlM _ []) ((doc.decls.map (Decl.mapIntegers f)).foldlM _ [])
      rw [List.foldlM_map]
      refine Alike.foldlM (fun d _ files files' hfiles => ?_) rfl
      exact (e.declFiles_alike d).bind fun _ _ hfs => addFiles_alike d.name hfs hfiles

/-- The integers of a document have no bearing on the outcome but for the texts. -/
theorem generate_mapIntegers_eq_error_iff {err : Diagnostic} :
    g.generate (doc.mapIntegers f) = .error err ↔ g.generate doc = .error err := by
  rw [generate, generate, map_eq_error, map_eq_error]
  exact (g.files_alike doc).error_iff.symm

end Generator

/-! ## Where integers stand -/

/-- The bits of an integer type. -/
def Prim.width? : Prim → Option Nat
  | .i8 => some 8
  | .i16 => some 16
  | .i32 => some 32
  | .i64 => some 64
  | _ => none

/-- The integers that a signed integer of a width holds. -/
def InRange (width : Nat) (i : Int) : Prop :=
  -(Nat.pow 2 (width - 1) : Int) ≤ i ∧ i ≤ (Nat.pow 2 (width - 1) : Int) - 1

instance (width : Nat) (i : Int) : Decidable (InRange width i) := by
  unfold InRange
  infer_instance

/-- What a signed integer of a width holds when it is initialised with an integer. -/
def held (width : Nat) (i : Int) : Int := i.bmod (Nat.pow 2 width)

/-- In a literal at a type there is an integer at an integer type, of some width, also at any depth
inside optional types and record literals. The path leads to it through the positions of the
fields. -/
inductive IntegerAt (doc : Document) :
    Literal → TypeExpr → List Nat → Int64 → Nat → Prop where
  | here {t : TypeExpr} {p : Prim} {i : Int64} {width : Nat} :
      t.core.head = .primitive p → p.width? = some width → IntegerAt doc (.int i) t [] i width
  | field {d : Decl} {r : Record} {t : TypeExpr} {entries : List (String × Literal)} {k : Nat}
      {f : Field} {v : Literal} {path : List Nat} {i : Int64} {width : Nat} :
      d ∈ doc.decls → d.body = .record r → t.core.head = .declared ⟨d.name, .record⟩ →
      r.fields[k]? = some f → NameMap.find? f.name entries = some v →
      IntegerAt doc v f.type path i width → IntegerAt doc (.record entries) t (k :: path) i width

/-- The part of an initializer that a path leads to, through the positions of arguments. -/
def Initializer.part? : Initializer → List Nat → Option Initializer
  | init, [] => some init
  | .construct _ args, k :: path => args[k]?.bind fun a => a.1.part? path
  | _, _ :: _ => none

theorem IntegerAt.width_pos {doc : Document} {v : Literal} {t : TypeExpr} {path : List Nat}
    {i : Int64} {width : Nat} (h : IntegerAt doc v t path i width) : 0 < width := by
  induction h with
  | @here t p i width hhead hwidth =>
      unfold Prim.width? at hwidth
      split at hwidth <;> cases hwidth <;> decide
  | field _ _ _ _ _ _ ih => exact ih

/-- What is held is always in range, so only what is in range can be held as it is. -/
theorem held_eq_self_iff {width : Nat} (hwidth : 0 < width) (i : Int) :
    held width i = i ↔ InRange width i := by
  have hpow : Nat.pow 2 width = Nat.pow 2 (width - 1) * 2 :=
    (Nat.two_pow_pred_mul_two hwidth).symm
  have hpos : 0 < Nat.pow 2 (width - 1) := Nat.pow_pos (by decide)
  rw [held, InRange, hpow]
  generalize Nat.pow 2 (width - 1) = half at hpos ⊢
  constructor
  · intro h
    have hle := Int.le_bmod (x := i) (m := half * 2) (by omega)
    have hlt := Int.bmod_lt (x := i) (m := half * 2) (by omega)
    rw [h] at hle hlt
    omega
  · rintro ⟨hle, hlt⟩
    exact Int.bmod_eq_of_le (by omega) (by omega)

theorem inRange_toInt (i : Int64) : InRange 64 i.toInt :=
  ⟨Int64.le_toInt i, Int.le_sub_one_of_lt (Int64.toInt_lt i)⟩

/-- Where the literal has an integer at an integer type, the initializer has its decimals. -/
theorem LiteralContext.part?_of_elaborate {ctx : LiteralContext} {doc : Document}
    (hbuild : Registry.build doc = .ok ctx.registry) {v : Literal} {t : TypeExpr} {path : List Nat}
    {i : Int64} {width : Nat} (hat : IntegerAt doc v t path i width) {init : Initializer}
    (h : ctx.elaborate v t = .ok init) :
    init.part? path = some (.scalar (toString i.toInt)) := by
  -- One step down a path is one step from an argument of a constructor to a value of a literal.
  induction hat generalizing init with
  | @here t p i width hhead hwidth =>
      have hscalar : ctx.primitive p t.core (.int i) = .ok (.scalar (toString i.toInt)) := by
        cases p with
        | i8 | i16 | i32 | i64 => rfl
        | _ => cases hwidth
      rw [elaborate_of_not_record (by simp) (by simp), plain, hhead] at h
      cases hscalar.symm.trans h
      rfl
  | @field d r t entries k f v path i width hd hbody hhead hfield hfind hat ih =>
      have hrecord : ctx.registry.record? d.name = some r :=
        (Registry.record?_eq_some_iff hbuild).mpr ⟨d, hd, rfl, hbody⟩
      have hconstruct : ctx.construct ⟨d.name, .record⟩ t.core (ctx.elaborateAll entries) =
          .ok init := by
        rw [elaborate, hhead] at h
        exact h
      obtain ⟨args, hargs, rfl⟩ := construct_eq_ok hrecord hconstruct
      obtain ⟨hnames, -, hvalues⟩ := arguments_eq_ok hargs
      have hlength : args.length = r.fields.length := by
        simpa using congrArg List.length hnames
      have hk : k < args.length := by
        rw [hlength]
        exact (List.getElem?_eq_some_iff.mp hfield).1
      have harg : args[k]? = some args[k] := List.getElem?_eq_getElem hk
      show (args[k]?.bind fun a => a.1.part? path) = _
      rw [harg]
      exact ih (hvalues k f v args[k] hfield hfind harg)

/-- Whether a document is generated from does not depend on the integers in its literals, and
neither does the diagnostic if it is not. An integer at an integer type is spelled as it stands,
wherever it is. It fits in 64 bits, and the constant or the constructor argument holds it exactly if
it fits in the width of the type. -/
theorem integers_kept_iff_in_range (g : Generator) (doc : Document) :
    (∀ f err, g.generate (doc.mapIntegers f) = .error err ↔ g.generate doc = .error err) ∧
    ∀ artifacts, g.generate doc = .ok artifacts →
      ∃ r files, Registry.build doc = .ok r ∧ g.files doc = .ok files ∧
        artifacts = files.map (·.file.artifact) ∧
        ∀ d ∈ doc.decls, d.kind ≠ .enum →
          ∃ header companions bridges values,
            filesOf d.name files = header :: (companions ++ bridges) ∧
            DefinedOnce (g.emitterOf doc r) d header companions bridges values ∧
            ∀ (k : Nat) c value, d.consts[k]? = some c → values[k]? = some value →
              ∀ path i width, IntegerAt doc c.value c.type path i width →
                value.part? path = some (.scalar (toString i.toInt)) ∧
                InRange 64 i.toInt ∧ (held width i.toInt = i.toInt ↔ InRange width i.toInt) := by
  refine ⟨fun f err => g.generate_mapIntegers_eq_error_iff doc, fun artifacts h => ?_⟩
  obtain ⟨r, blocks, hrun, hfiles, rfl⟩ := Generator.exists_run h
  refine ⟨r, _, hrun.build, hfiles, rfl, fun d hd hkind => ?_⟩
  obtain ⟨defs, hdefs, hown⟩ := Emitter.declFiles_of_owner (hrun.declFiles_filesOf hd) hkind
  have hdefined := Emitter.definedOnce hkind hdefs
  refine ⟨_, _, _, _, hown, hdefined, fun k c value hc hvalue path i width hat => ?_⟩
  obtain ⟨value', hvalue', helaborate⟩ := hdefined.value k c hc
  obtain rfl : value' = value := Option.some.inj (hvalue'.symm.trans hvalue)
  refine ⟨LiteralContext.part?_of_elaborate hrun.build hat helaborate, inRange_toInt i, ?_⟩
  exact held_eq_self_iff hat.width_pos i.toInt

namespace Sample

/-- A record with two constants: one of an 8-bit type, and one whose type is that of the record,
with an integer inside an optional type. -/
def dial : Decl :=
  ⟨"dial", [], .record {
    fields := [⟨"level", [], .node .optional [.node (.primitive .i8) []]⟩]
    consts := [⟨"least", [], .node (.primitive .i8) [], .int (-129)⟩,
      ⟨"most", [], .node (.declared ⟨"dial", .record⟩) [], .record [("level", .int 300)]⟩] }⟩

def dials : Document := { decls := [dial] }

end Sample

open Sample in
/-- Both constants are generated, with integers that are out of range, and neither holds its own. -/
theorem dials_out_of_range :
    ∃ artifacts files, (Generator.standard {}).generate dials = .ok artifacts ∧
      (Generator.standard {}).files dials = .ok files ∧
      (files[1]?.map fun f => Code.outline "bridge" f.file.code) =
        some [.line "int8_t const Dial::LEAST = -129;",
          .line "::bridge::Dial const Dial::MOST = ::bridge::Dial(300 /* level */);"] ∧
      dial ∈ dials.decls ∧
      (∃ c, dial.consts[0]? = some c ∧ IntegerAt dials c.value c.type [] (-129) 8) ∧
      ¬ InRange 8 (-129) ∧ held 8 (-129) = 127 ∧
      (∃ c, dial.consts[1]? = some c ∧ IntegerAt dials c.value c.type [0] 300 8) ∧
      ¬ InRange 8 300 ∧ held 8 300 = 44 := by
  have hrun : ((Generator.standard {}).files dials).toOption.map
      (fun files => files[1]?.map fun f => Code.outline "bridge" f.file.code) =
      some (some [.line "int8_t const Dial::LEAST = -129;",
        .line "::bridge::Dial const Dial::MOST = ::bridge::Dial(300 /* level */);"]) := by
    decide +kernel
  obtain ⟨files, hfiles, houtline⟩ := toOption_map_eq_some.mp hrun
  have hdial : dial ∈ dials.decls := List.mem_cons_self
  refine ⟨_, files, map_eq_ok.mpr ⟨files, hfiles, rfl⟩, hfiles, houtline, hdial,
    ⟨_, rfl, .here rfl rfl⟩, by decide, by decide, ⟨_, rfl, ?_⟩, by decide, by decide⟩
  exact .field hdial rfl rfl rfl rfl (.here rfl rfl)

open Sample in
theorem dials_spelled :
    (∀ err, (Generator.standard {}).generate (dials.mapIntegers fun _ => 7) ≠ .error err) ∧
      ∃ r header companions bridges values value,
        DefinedOnce ((Generator.standard {}).emitterOf dials r) dial header companions bridges
          values ∧
        values[1]? = some value ∧ value.part? [0] = some (.scalar "300") ∧
        (held 8 300 = 300 ↔ InRange 8 300) := by
  obtain ⟨hindifferent, hkept⟩ := integers_kept_iff_in_range (Generator.standard {}) dials
  have hdone : ((Generator.standard {}).generate dials).toOption.map (·.length) = some 4 := by
    decide +kernel
  obtain ⟨artifacts, h, -⟩ := toOption_map_eq_some.mp hdone
  obtain ⟨r, files, -, -, -, hdecls⟩ := hkept artifacts h
  obtain ⟨header, companions, bridges, values, -, hdefined, hvalues⟩ :=
    hdecls dial List.mem_cons_self (by decide)
  obtain ⟨value, hvalue, -⟩ := hdefined.value 1 _ rfl
  obtain ⟨hpart, -, hheld⟩ := hvalues 1 _ value rfl hvalue [0] 300 8
    (.field List.mem_cons_self rfl rfl rfl rfl (.here rfl rfl))
  refine ⟨fun err herr => ?_, r, header, companions, bridges, values, value, hdefined, hvalue,
    hpart, hheld⟩
  cases h.symm.trans ((hindifferent _ err).mp herr)

end IdlBinder

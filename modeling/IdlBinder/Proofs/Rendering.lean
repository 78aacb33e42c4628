import IdlBinder.Proofs.Fitting

set_option autoImplicit false

/-!
# What a literal is rendered to

`Fits` says which literals are accepted; `Renders` says what comes out of those that are. It names
the declaration that each part of an initializer stands for, so that later modules compare
initializers with the files of a run by induction on it and never open the elaboration again:
`renders_of_elaborate`. The types that an initializer names are those that the literal mentions:
`Renders.mem_typeNames_iff`.
-/

namespace IdlBinder

open Traversal

/-! ## The relation -/

/-- How a scalar is spelled at a primitive type: whole numbers as such or as the number that they
are rounded to, and numbers of single precision with a suffix. -/
inductive Literal.SpelledAs : Prim → Literal → String → Prop where
  | bool (b : Bool) : SpelledAs .bool (.bool b) (if b then "true" else "false")
  | string (text : String) : SpelledAs .string (.string text) text
  | integer {p : Prim} (i : Int64) : p.isInteger = true → SpelledAs p (.int i) (toString i.toInt)
  | rounded {p : Prim} (i : Int64) : p.isFloat = true →
      SpelledAs p (.int i) (LiteralContext.floatText (p == .f32) (.ofInt i.toInt))
  | float {p : Prim} {x : Binary64} : p.isFloat = true → x.isFinite = true →
      SpelledAs p (.float x) (LiteralContext.floatText (p == .f32) x)

/-- A literal at a type is rendered to an initializer, in a document and at a place in it. -/
inductive Renders (ctx : LiteralContext) (doc : Document) :
    Literal → TypeExpr → Initializer → Prop where
  | scalar {v : Literal} {t : TypeExpr} {p : Prim} {text : String} :
      t.core.head = .primitive p → v.SpelledAs p text → ctx.elaborate v t = .ok (.scalar text) →
      Renders ctx doc v t (.scalar text)
  /-- A reference stands for an earlier constant, the first one of its name. -/
  | constant {target : String} {t : TypeExpr} {position : Nat} {c : Const} :
      FirstNamed ctx.scope.consts target position c → position < ctx.index → c.type = t →
      Renders ctx doc (.constRef target) t
        (.constant ctx.scope.qualifier (ctx.settings.nativeConst target))
  | enumerator {option : String} {t : TypeExpr} {d : Decl} {e : Enum} {ordinal : Nat} :
      d ∈ doc.decls → d.body = .enum e → t.core.head = .declared ⟨d.name, .enum⟩ →
      e.ordinal? option = some ordinal →
      Renders ctx doc (.enumOption option) t
        (.enumerator (ctx.settings.nativeQualified d.name) (ctx.settings.nativeEnumOption option))
  /-- A record literal has one argument for each field, in the order of the fields. -/
  | construct {entries : List (String × Literal)} {t : TypeExpr} {d : Decl} {r : Record}
      {args : List (Initializer × String)} :
      d ∈ doc.decls → d.body = .record r → t.core = .node (.declared ⟨d.name, .record⟩) [] →
      args.map (·.2) = r.fields.map (fun f => ctx.settings.nativeField f.name) →
      (∀ f ∈ r.fields, ∃ v, NameMap.find? f.name entries = some v) →
      (∀ (i : Nat) f v a, r.fields[i]? = some f → NameMap.find? f.name entries = some v →
        args[i]? = some a → ctx.elaborate v f.type = .ok a.1) →
      (∀ (i : Nat) f v a, r.fields[i]? = some f → NameMap.find? f.name entries = some v →
        args[i]? = some a → Renders ctx doc v f.type a.1) →
      Renders ctx doc (.record entries) t (.construct (ctx.typename t.core) args)

/-! ## The parts of the elaboration -/

namespace LiteralContext

variable {ctx : LiteralContext} {doc : Document} {init : Initializer}

theorem reference_renders {target : String} {t : TypeExpr}
    (h : ctx.reference target t = .ok init) : Renders ctx doc (.constRef target) t init := by
  obtain ⟨position, c, hfirst, hpos, htype⟩ := reference_isOk_iff.mp ⟨init, h⟩
  rw [reference, firstNamed_iff.mp hfirst] at h
  have hle : ¬ ctx.index ≤ position := by omega
  simp only [hle, htype, if_true, if_false, Except.ok.injEq] at h
  subst h
  exact .constant hfirst hpos htype

/-- At a primitive type, only scalars are accepted, and they stay scalars. -/
theorem primitive_eq_ok {p : Prim} {t : TypeExpr} {v : Literal}
    (h : ctx.primitive p t v = .ok init) : ∃ text, init = .scalar text ∧ v.SpelledAs p text := by
  unfold primitive at h
  split at h
  · cases h
  · cases h
  · cases h
    exact ⟨_, rfl, .bool _⟩
  · cases h
    exact ⟨_, rfl, .string _⟩
  case h_5 =>
    split at h
    case isTrue hinteger =>
      cases h
      exact ⟨_, rfl, .integer _ hinteger⟩
    case isFalse =>
      split at h
      case isTrue hfloat =>
        cases h
        exact ⟨_, rfl, .rounded _ hfloat⟩
      case isFalse => cases h
  case h_6 =>
    split at h
    case isTrue => cases h
    case isFalse hfloat =>
      split at h
      case isTrue hfinite =>
        cases h
        exact ⟨_, rfl, .float (by simpa using hfloat) hfinite⟩
      case isFalse => cases h
  · cases h

/-- A scalar is accepted, and spelled, in the same way everywhere. -/
theorem primitive_congr {ctx' : LiteralContext} {p : Prim} {t : TypeExpr} {v : Literal}
    (h : ctx.primitive p t v = .ok init) : ctx'.primitive p t v = .ok init := by
  cases v with
  | float x =>
      cases hx : x.isFinite with
      | false => cases p <;> simp [primitive, hx, Prim.isFloat] at h
      | true => cases p <;> simp_all [primitive, Prim.isFloat]
  | _ => cases p <;> simp_all [primitive, Prim.isInteger, Prim.isFloat]

theorem enumerator_eq_ok {name option : String} (hbuild : Registry.build doc = .ok ctx.registry)
    (h : ctx.enumerator name option = .ok init) :
    ∃ d ∈ doc.decls, d.name = name ∧ ∃ e ordinal, d.body = .enum e ∧
      e.ordinal? option = some ordinal ∧
      init = .enumerator (ctx.settings.nativeQualified name)
        (ctx.settings.nativeEnumOption option) := by
  rw [enumerator] at h
  split at h
  next hfound =>
    cases h
    obtain ⟨ordinal, hordinal⟩ := Option.isSome_iff_exists.mp hfound
    obtain ⟨e, he, hordinal⟩ := Option.bind_eq_some_iff.mp hordinal
    obtain ⟨d, hd, hname, hbody⟩ := (Registry.enum?_eq_some_iff hbuild).mp he
    exact ⟨d, hd, hname, e, ordinal, hbody, hordinal, rfl⟩
  next => cases h

theorem plain_renders {v : Literal} {t : TypeExpr}
    (hbuild : Registry.build doc = .ok ctx.registry) (h : ctx.plain v t.core = .ok init) :
    Renders ctx doc v t init := by
  unfold plain at h
  split at h
  next p hhead =>
    obtain ⟨text, rfl, hspelled⟩ := primitive_eq_ok h
    refine .scalar hhead hspelled ?_
    rw [elaborate_of_not_record (by cases hspelled <;> simp) (by cases hspelled <;> simp), plain,
      hhead]
    exact h
  next => cases h
  next ref hhead =>
    split at h
    next option hkind =>
      obtain ⟨d, hd, hname, e, ordinal, hbody, hordinal, rfl⟩ := enumerator_eq_ok hbuild h
      rw [← hname]
      refine .enumerator hd hbody ?_ hordinal
      rw [hhead, hname, ← hkind]
    next => cases h
    next => cases h
  all_goals cases h

/-- What stands at the place of a field comes from the value that the literal gives to the field. -/
theorem exists_argument {record : String} {fields : List Field} {entries : List (String × Literal)}
    {args : List (Initializer × String)}
    (h : ctx.arguments record fields (ctx.elaborateAll entries) = .ok args) {i : Nat} {f : Field}
    (hf : fields[i]? = some f) :
    ∃ v a, NameMap.find? f.name entries = some v ∧
      args[i]? = some (a, ctx.settings.nativeField f.name) ∧ ctx.elaborate v f.type = .ok a := by
  obtain ⟨b, hb, hvalue⟩ := (getElem?_of_mapM_eq_ok h).2 i f hf
  rw [elaborateAll_eq, NameMap.find?_map] at hvalue
  cases hfind : NameMap.find? f.name entries with
  | none => simp [hfind] at hvalue
  | some v =>
      simp only [hfind, Option.map_some] at hvalue
      obtain ⟨a, ha, rfl⟩ := map_eq_ok.mp hvalue
      exact ⟨v, a, rfl, hb, ha⟩

/-- The arguments of a constructor stand in the order of the fields, each with the name of its own
field beside it. -/
theorem arguments_eq_ok {record : String} {fields : List Field}
    {entries : List (String × Literal)} {args : List (Initializer × String)}
    (h : ctx.arguments record fields (ctx.elaborateAll entries) = .ok args) :
    args.map (·.2) = fields.map (fun f => ctx.settings.nativeField f.name) ∧
    (∀ f ∈ fields, ∃ v, NameMap.find? f.name entries = some v) ∧
    ∀ (i : Nat) f v a, fields[i]? = some f → NameMap.find? f.name entries = some v →
      args[i]? = some a → ctx.elaborate v f.type = .ok a.1 := by
  have hlength := (getElem?_of_mapM_eq_ok h).1
  refine ⟨?_, ?_, ?_⟩
  · apply List.ext_getElem?
    intro i
    rw [List.getElem?_map, List.getElem?_map]
    cases hf : fields[i]? with
    | none =>
        have hnone : args[i]? = none := by
          rw [List.getElem?_eq_none_iff] at hf ⊢
          omega
        rw [hnone]
        rfl
    | some f =>
        obtain ⟨v, a, -, ha, -⟩ := exists_argument h hf
        rw [ha]
        rfl
  · intro f hf
    obtain ⟨i, hi⟩ := List.mem_iff_getElem?.mp hf
    obtain ⟨v, -, hfind, -, -⟩ := exists_argument h hi
    exact ⟨v, hfind⟩
  · intro i f v a hf hfind ha
    obtain ⟨v', a', hfind', ha', hvalue⟩ := exists_argument h hf
    obtain rfl : v' = v := Option.some.inj (hfind'.symm.trans hfind)
    obtain rfl : _ = a := Option.some.inj (ha'.symm.trans ha)
    exact hvalue

theorem construct_eq_ok {ref : DefRef} {t : TypeExpr} {b : Record}
    {entries : List (String × Literal)} (hb : ctx.registry.record? ref.name = some b)
    (h : ctx.construct ref t (ctx.elaborateAll entries) = .ok init) :
    ∃ args, ctx.arguments ref.name b.fields (ctx.elaborateAll entries) = .ok args ∧
      init = .construct (ctx.typename t) args := by
  rw [construct, hb] at h
  simp only at h
  split at h
  next => cases h
  next =>
    obtain ⟨args, hargs, rfl⟩ := map_eq_ok.mp h
    exact ⟨args, hargs, rfl⟩

/-! ## All literals -/

/-- What the elaboration of a literal at a well-formed type yields is what the literal is rendered
to. -/
theorem renders_of_elaborate {params : List String} {v : Literal} {t : TypeExpr}
    (hdoc : Registry.Checked doc ctx.registry) (hw : WellFormed doc params t)
    (h : ctx.elaborate v t = .ok init) : Renders ctx doc v t init := by
  induction v using Literal.recordInduction generalizing params t init with
  | other v hrec =>
      by_cases hv : ∃ target, v = .constRef target
      · obtain ⟨target, rfl⟩ := hv
        rw [elaborate] at h
        exact reference_renders h
      · rw [elaborate_of_not_record (fun target hvt => hv ⟨target, hvt⟩) hrec] at h
        exact plain_renders hdoc.build h
  | record entries ih =>
      rcases elaborate_record with ⟨name, hhead, hvalue⟩ | ⟨-, hvalue⟩
      · obtain ⟨hcore, b, hb⟩ := hdoc.record_of_head hw.core.1 hhead
        obtain ⟨d, hd, rfl, hbody⟩ := (Registry.record?_eq_some_iff hdoc.build).mp hb
        rw [hvalue] at h
        obtain ⟨args, hargs, rfl⟩ := construct_eq_ok hb h
        obtain ⟨hnames, hfields, hvalues⟩ := arguments_eq_ok hargs
        refine .construct hd hbody hcore hnames hfields hvalues fun i f v a hf hfind ha => ?_
        -- The type of a field is well formed in the scope of its own record.
        exact ih (f.name, v) (NameMap.mem_of_find? hfind)
          (hdoc.fieldType hb (List.mem_of_getElem? hf)) (hvalues i f v a hf hfind ha)
      · rw [hvalue] at h
        exact plain_renders hdoc.build h

end LiteralContext

/-! ## The types that initializers name -/

namespace Initializer

mutual

/-- The names of enums and records in an initializer. -/
def typeNames : Initializer → List String
  | scalar _ | constant _ _ => []
  | enumerator enum _ => [enum]
  | construct type args => type :: argTypeNames args

/-- The names of enums and records in constructor arguments. -/
def argTypeNames : List (Initializer × String) → List String
  | [] => []
  | (a, _) :: rest => a.typeNames ++ argTypeNames rest

end

theorem mem_argTypeNames {name : String} {args : List (Initializer × String)} :
    name ∈ argTypeNames args ↔ ∃ a ∈ args, name ∈ a.1.typeNames := by
  induction args with
  | nil => simp [argTypeNames]
  | cons a args ih => simp [argTypeNames, ih]

end Initializer

/-- A literal at a type mentions an enum or a record, itself or in the value of a field. -/
inductive Mentions (doc : Document) : Literal → TypeExpr → Decl → Prop where
  | enum {option : String} {t : TypeExpr} {d : Decl} {e : Enum} :
      d ∈ doc.decls → d.body = .enum e → t.core.head = .declared ⟨d.name, .enum⟩ →
      Mentions doc (.enumOption option) t d
  | record {entries : List (String × Literal)} {t : TypeExpr} {d : Decl} {r : Record} :
      d ∈ doc.decls → d.body = .record r → t.core.head = .declared ⟨d.name, .record⟩ →
      Mentions doc (.record entries) t d
  | field {entries : List (String × Literal)} {t : TypeExpr} {outer d : Decl} {r : Record}
      {f : Field} {v : Literal} :
      outer ∈ doc.decls → outer.body = .record r → t.core.head = .declared ⟨outer.name, .record⟩ →
      f ∈ r.fields → NameMap.find? f.name entries = some v → Mentions doc v f.type d →
      Mentions doc (.record entries) t d

theorem Mentions.mem {doc : Document} {v : Literal} {t : TypeExpr} {d : Decl}
    (h : Mentions doc v t d) : d ∈ doc.decls := by
  induction h with
  | enum hd _ _ => exact hd
  | record hd _ _ => exact hd
  | field _ _ _ _ _ _ ih => exact ih

/-- The head of a type fixes the name of a declaration, and this fixes the declaration. -/
theorem eq_of_head_eq {doc : Document} {head : TypeHead} {kind : Kind} {d d' : Decl}
    (hnames : (doc.decls.map (·.name)).Nodup) (hd : d ∈ doc.decls) (hd' : d' ∈ doc.decls)
    (hhead : head = .declared ⟨d.name, kind⟩) (hhead' : head = .declared ⟨d'.name, kind⟩) :
    d = d' := by
  have hname : d.name = d'.name := by simpa using hhead.symm.trans hhead'
  exact eq_of_nodup_map hnames hd hd' hname

/-- The names in an initializer are those of what its literal mentions. -/
theorem Renders.mem_typeNames_iff {ctx : LiteralContext} {doc : Document} {v : Literal}
    {t : TypeExpr} {init : Initializer} {name : String}
    (htypename : ∀ name, ctx.typename (.node (.declared ⟨name, .record⟩) []) =
      ctx.settings.nativeQualified name)
    (hnames : (doc.decls.map (·.name)).Nodup) (h : Renders ctx doc v t init) :
    name ∈ init.typeNames ↔
      ∃ d, Mentions doc v t d ∧ name = ctx.settings.nativeQualified d.name := by
  induction h with
  | scalar _ hspelled _ =>
      rw [Initializer.typeNames]
      constructor
      · intro hname
        cases hname
      · rintro ⟨d, hmentions, -⟩
        cases hmentions <;> cases hspelled
  | constant _ _ _ =>
      rw [Initializer.typeNames]
      constructor
      · intro hname
        cases hname
      · rintro ⟨d, hmentions, -⟩
        cases hmentions
  | @enumerator option t d e ordinal hd hbody hhead _ =>
      rw [Initializer.typeNames, List.mem_singleton]
      constructor
      · intro hname
        exact ⟨d, .enum hd hbody hhead, hname⟩
      · rintro ⟨d', hmentions, rfl⟩
        cases hmentions with
        | enum hd' _ hhead' => rw [eq_of_head_eq hnames hd hd' hhead hhead']
  | @construct entries t d r args hd hbody hcore hfieldNames hfields _ _ ih =>
      have hhead : t.core.head = .declared ⟨d.name, .record⟩ := by
        rw [hcore]
        rfl
      have hlength : args.length = r.fields.length := by
        simpa using congrArg List.length hfieldNames
      rw [Initializer.typeNames, List.mem_cons, Initializer.mem_argTypeNames, hcore, htypename]
      constructor
      · rintro (hname | ⟨a, ha, hname⟩)
        · exact ⟨d, .record hd hbody hhead, hname⟩
        · obtain ⟨i, hi⟩ := List.mem_iff_getElem?.mp ha
          obtain ⟨hlt, -⟩ := List.getElem?_eq_some_iff.mp hi
          have hf := List.getElem?_eq_getElem (l := r.fields) (i := i) (by omega)
          have hmem := List.mem_of_getElem? hf
          obtain ⟨v, hv⟩ := hfields _ hmem
          obtain ⟨d', hmentions, hname⟩ := (ih i _ v a hf hv hi).mp hname
          exact ⟨d', .field hd hbody hhead hmem hv hmentions, hname⟩
      · rintro ⟨d', hmentions, rfl⟩
        cases hmentions with
        | record hd' _ hhead' =>
            rw [eq_of_head_eq hnames hd hd' hhead hhead']
            exact Or.inl rfl
        | @field _ _ outer _ r' f v houter hbody' hhead' hf hv hmentions =>
            obtain rfl := eq_of_head_eq hnames hd houter hhead hhead'
            cases hbody.symm.trans hbody'
            obtain ⟨i, hi⟩ := List.mem_iff_getElem?.mp hf
            obtain ⟨hlt, -⟩ := List.getElem?_eq_some_iff.mp hi
            have ha := List.getElem?_eq_getElem (l := args) (i := i) (by omega)
            exact Or.inr ⟨_, List.mem_of_getElem? ha,
              (ih i f v _ hi hv ha).mpr ⟨d', hmentions, rfl⟩⟩

end IdlBinder

import IdlBinder.Constant.Elaborate
import IdlBinder.Proofs.WellFormed

set_option autoImplicit false

/-!
# Literals that fit a type

`Fits` says which literals may be given to a type, without regard to how they are spelled. A literal
is elaborated exactly when it fits: `elaborate_isOk_iff`. The argument goes down the literal; on
the way the type changes twice, when optionals are taken off and when a field's type is looked up in
the record that declares it, and both times a well-formed type leads to a well-formed type.
-/

namespace IdlBinder

open Traversal

/-! ## The relation -/

/-- The first constant of a name, and its position. -/
def FirstNamed (consts : List Const) (name : String) (position : Nat) (c : Const) : Prop :=
  ∃ before after, consts = before ++ c :: after ∧ before.length = position ∧ c.name = name ∧
    ∀ b ∈ before, b.name ≠ name

/-- A literal fits a type at a position in a list of constants. -/
inductive Fits (doc : Document) (consts : List Const) (index : Nat) :
    Literal → TypeExpr → Prop where
  /-- A reference has the type of an earlier constant, the first one of its name. -/
  | constRef {target : String} {t : TypeExpr} {position : Nat} {c : Const} :
      FirstNamed consts target position c → position < index → c.type = t →
      Fits doc consts index (.constRef target) t
  | bool (b : Bool) : Fits doc consts index (.bool b) (.node (.primitive .bool) [])
  | int (i : Int64) {p : Prim} : p ∈ [Prim.i8, .i16, .i32, .i64, .f32, .f64] →
      Fits doc consts index (.int i) (.node (.primitive p) [])
  | float {x : Binary64} {p : Prim} : x.isFinite → p ∈ [Prim.f32, .f64] →
      Fits doc consts index (.float x) (.node (.primitive p) [])
  | string (s : String) : Fits doc consts index (.string s) (.node (.primitive .string) [])
  /-- An optional takes what its argument takes, references apart. -/
  | optional {v : Literal} {t : TypeExpr} : (∀ target, v ≠ .constRef target) →
      Fits doc consts index v t → Fits doc consts index v (.node .optional [t])
  | enumOption {name option : String} {d : Decl} {e : Enum} :
      d ∈ doc.decls → d.name = name → d.body = .enum e → (∃ o ∈ e.options, o.name = option) →
      Fits doc consts index (.enumOption option) (.node (.declared ⟨name, .enum⟩) [])
  /-- A record literal sets exactly the declared fields, each to what fits its type. -/
  | record {name : String} {d : Decl} {r : Record} {entries : List (String × Literal)} :
      d ∈ doc.decls → d.name = name → d.body = .record r →
      (∀ key, key ∈ NameMap.names entries ↔ ∃ f ∈ r.fields, f.name = key) →
      (∀ f ∈ r.fields, ∀ v, NameMap.find? f.name entries = some v →
        Fits doc consts index v f.type) →
      Fits doc consts index (.record entries) (.node (.declared ⟨name, .record⟩) [])

/-- The heads of types that something else than a reference fits. -/
theorem Fits.head {doc : Document} {consts : List Const} {index : Nat} {v : Literal}
    {h : TypeHead} {args : List TypeExpr} (hfits : Fits doc consts index v (.node h args))
    (hv : ∀ target, v ≠ .constRef target) :
    (∃ p, h = .primitive p) ∨ h = .optional ∨ (∃ name, h = .declared ⟨name, .enum⟩) ∨
      ∃ name, h = .declared ⟨name, .record⟩ ∧ ∃ entries, v = .record entries := by
  cases hfits with
  | constRef _ _ _ => exact absurd rfl (hv _)
  | bool _ | int _ _ | float _ _ | string _ => exact Or.inl ⟨_, rfl⟩
  | optional _ _ => exact Or.inr (Or.inl rfl)
  | enumOption _ _ _ _ => exact Or.inr (Or.inr (Or.inl ⟨_, rfl⟩))
  | record _ _ _ _ _ => exact Or.inr (Or.inr (Or.inr ⟨_, rfl, _, rfl⟩))

/-! ## Taking off optionals -/

namespace WellFormed

variable {doc : Document} {params : List String}

/-- A well-formed type is an optional of a well-formed type or something else than an optional. -/
theorem optionalInduction {motive : (t : TypeExpr) → WellFormed doc params t → Prop}
    (other : ∀ h args (hw : WellFormed doc params (.node h args)), h ≠ .optional →
      motive (.node h args) hw)
    (optional : ∀ a (hw : WellFormed doc params (.node .optional [a]))
      (ha : WellFormed doc params a), motive a ha → motive (.node .optional [a]) hw) :
    ∀ t (hw : WellFormed doc params t), motive t hw := by
  intro t
  induction t using TypeExpr.nodeInduction with
  | node h args ih =>
      intro hw
      by_cases hopt : h = .optional
      · subst hopt
        obtain ⟨a, rfl, ha⟩ := hw.optional
        exact optional a hw ha (ih a (by simp) ha)
      · exact other h args hw hopt

theorem core_of_ne_optional {h : TypeHead} {args : List TypeExpr} (hopt : h ≠ .optional) :
    (TypeExpr.node h args).core = .node h args := by
  unfold TypeExpr.core
  split
  next heq => cases heq; exact absurd rfl hopt
  next => rfl

theorem core {t : TypeExpr} (hw : WellFormed doc params t) :
    WellFormed doc params t.core ∧ t.core.head ≠ .optional := by
  induction t, hw using optionalInduction with
  | other h args hw hopt =>
      rw [core_of_ne_optional hopt]
      exact ⟨hw, hopt⟩
  | optional a _ _ ih => rwa [TypeExpr.core]

end WellFormed

theorem fits_core_iff {doc : Document} {params : List String} {consts : List Const} {index : Nat}
    {v : Literal} {t : TypeExpr} (hw : WellFormed doc params t)
    (hv : ∀ target, v ≠ .constRef target) :
    Fits doc consts index v t ↔ Fits doc consts index v t.core := by
  induction t, hw using WellFormed.optionalInduction with
  | other h args _ hopt => rw [WellFormed.core_of_ne_optional hopt]
  | optional a _ _ ih =>
      rw [TypeExpr.core, ← ih]
      constructor
      · intro hfits
        cases hfits with
        | constRef _ _ _ => exact absurd rfl (hv _)
        | optional _ hfits => exact hfits
      · exact .optional hv

/-! ## References -/

theorem find?_zipIdx_eq_some_iff {consts : List Const} {name : String} {start position : Nat}
    {c : Const} :
    (consts.zipIdx start).find? (·.1.name == name) = some (c, position) ↔
      ∃ before after, consts = before ++ c :: after ∧ start + before.length = position ∧
        c.name = name ∧ ∀ b ∈ before, b.name ≠ name := by
  induction consts generalizing start with
  | nil => simp
  | cons k consts ih =>
      rw [List.zipIdx_cons, List.find?_cons]
      by_cases hk : k.name = name
      · simp only [hk, beq_self_eq_true, Option.some.injEq, Prod.mk.injEq]
        constructor
        · rintro ⟨rfl, rfl⟩
          exact ⟨[], consts, rfl, rfl, hk, by simp⟩
        · rintro ⟨before, after, hconsts, rfl, -, hbefore⟩
          -- Nothing stands before `k`, since `k` itself has the name.
          cases before with
          | nil =>
              rw [List.nil_append, List.cons.injEq] at hconsts
              exact ⟨hconsts.1, rfl⟩
          | cons b before =>
              rw [List.cons_append, List.cons.injEq] at hconsts
              exact absurd (hconsts.1 ▸ hk) (hbefore b (by simp))
      · have hne : (k.name == name) = false := by simpa using hk
        simp only [hne, ih]
        constructor
        · rintro ⟨before, after, rfl, rfl, hc, hbefore⟩
          refine ⟨k :: before, after, rfl, ?_, hc, List.forall_mem_cons.mpr ⟨hk, hbefore⟩⟩
          rw [List.length_cons]
          omega
        · rintro ⟨before, after, hconsts, hpos, hc, hbefore⟩
          cases before with
          | nil =>
              rw [List.nil_append, List.cons.injEq] at hconsts
              exact absurd (hconsts.1 ▸ hc) hk
          | cons b before =>
              rw [List.cons_append, List.cons.injEq] at hconsts
              refine ⟨before, after, hconsts.2, ?_, hc, fun b' hb' => hbefore b' (by simp [hb'])⟩
              rw [List.length_cons] at hpos
              omega

theorem firstNamed_iff {consts : List Const} {name : String} {position : Nat} {c : Const} :
    FirstNamed consts name position c ↔
      consts.zipIdx.find? (·.1.name == name) = some (c, position) := by
  rw [find?_zipIdx_eq_some_iff, FirstNamed]
  simp only [Nat.zero_add]

theorem notMem_names_iff {consts : List Const} {name : String} :
    name ∉ consts.map (·.name) ↔ consts.zipIdx.find? (·.1.name == name) = none := by
  rw [List.find?_eq_none]
  constructor
  · intro hname p hp
    have hmem : p.1 ∈ consts := List.fst_mem_of_mem_zipIdx hp
    have hne : p.1.name ≠ name := fun h => hname (h ▸ List.mem_map_of_mem hmem)
    simpa using hne
  · intro hall hname
    obtain ⟨c, hc, rfl⟩ := List.mem_map.mp hname
    obtain ⟨i, hi⟩ := List.mem_iff_getElem?.mp hc
    have := hall (c, i) (List.mk_mem_zipIdx_iff_getElem?.mpr hi)
    simp at this

namespace LiteralContext

variable {ctx : LiteralContext}

theorem reference_isOk_iff {target : String} {t : TypeExpr} :
    (∃ i, ctx.reference target t = .ok i) ↔
      ∃ position c, FirstNamed ctx.scope.consts target position c ∧ position < ctx.index ∧
        c.type = t := by
  simp only [firstNamed_iff, reference]
  cases ctx.scope.consts.zipIdx.find? (·.1.name == target) with
  | none => simp
  | some p =>
      obtain ⟨c, position⟩ := p
      by_cases hpos : ctx.index ≤ position
      · have hlt : ¬ position < ctx.index := by omega
        simp [hpos, hlt]
      · have hlt : position < ctx.index := by omega
        by_cases htype : c.type = t
        · simp [hpos, hlt, htype, and_assoc]
        · simp [hpos, htype]

theorem reference_eq_error_iff {target : String} {t : TypeExpr} {err : Diagnostic} :
    ctx.reference target t = .error err ↔
      (target ∉ ctx.scope.consts.map (·.name) ∧ err = .unknownConstRef ctx.site target) ∨
      (∃ position c, FirstNamed ctx.scope.consts target position c ∧ ctx.index ≤ position ∧
        err = .forwardConstRef ctx.site target) ∨
      (∃ position c, FirstNamed ctx.scope.consts target position c ∧ position < ctx.index ∧
        c.type ≠ t ∧ err = .constRefType ctx.site t target c.type) := by
  simp only [firstNamed_iff, notMem_names_iff, reference]
  cases ctx.scope.consts.zipIdx.find? (·.1.name == target) with
  | none => simp [eq_comm]
  | some p =>
      obtain ⟨c, position⟩ := p
      by_cases hpos : ctx.index ≤ position
      · have hlt : ¬ position < ctx.index := by omega
        simp [hpos, hlt, eq_comm]
      · have hlt : position < ctx.index := by omega
        by_cases htype : c.type = t
        · simp [hpos, htype]
        · simp [hpos, hlt, htype, and_assoc, eq_comm (a := err)]

/-! ## Scalars and enumerators -/

theorem primitive_isOk_iff {doc : Document} {p : Prim} {v : Literal} {t : TypeExpr}
    (hv : ∀ target, v ≠ .constRef target) :
    (∃ i, ctx.primitive p t v = .ok i) ↔
      Fits doc ctx.scope.consts ctx.index v (.node (.primitive p) []) := by
  constructor
  · rintro ⟨i, hi⟩
    cases v with
    | constRef target => exact absurd rfl (hv target)
    | bool b =>
        have hp : p = .bool := by cases p <;> simp_all [primitive]
        exact hp ▸ .bool b
    | string s =>
        have hp : p = .string := by cases p <;> simp_all [primitive]
        exact hp ▸ .string s
    | int n =>
        have hp : p ∈ [Prim.i8, .i16, .i32, .i64, .f32, .f64] := by
          cases p <;> simp_all [primitive, Prim.isInteger, Prim.isFloat]
        exact .int n hp
    | float x =>
        cases hx : x.isFinite with
        | false => cases p <;> simp [primitive, hx, Prim.isFloat] at hi
        | true =>
            have hp : p ∈ [Prim.f32, .f64] := by cases p <;> simp_all [primitive, Prim.isFloat]
            exact .float hx hp
    | enumOption _ | record _ => cases p <;> simp [primitive] at hi
  · intro hfits
    cases hfits with
    | constRef _ _ _ => exact absurd rfl (hv _)
    | bool b => exact ⟨_, rfl⟩
    | string s => exact ⟨_, rfl⟩
    | int n hp =>
        simp only [List.mem_cons, List.not_mem_nil, or_false] at hp
        rcases hp with rfl | rfl | rfl | rfl | rfl | rfl <;> exact ⟨_, rfl⟩
    | float hx hp =>
        simp only [List.mem_cons, List.not_mem_nil, or_false] at hp
        rcases hp with rfl | rfl <;> simp [primitive, hx, Prim.isFloat]

theorem enumerator_isOk_iff {doc : Document} (hbuild : Registry.build doc = .ok ctx.registry)
    {name option : String} :
    (∃ i, ctx.enumerator name option = .ok i) ↔
      ∃ d ∈ doc.decls, d.name = name ∧
        ∃ e, d.body = .enum e ∧ ∃ o ∈ e.options, o.name = option := by
  have hfound : ((ctx.registry.enum? name).bind (·.ordinal? option)).isSome ↔
      ∃ e, ctx.registry.enum? name = some e ∧ ∃ o ∈ e.options, o.name = option := by
    cases ctx.registry.enum? name with
    | none => simp
    | some e => simp [Enum.ordinal?]
  rw [enumerator]
  constructor
  · rintro ⟨i, hi⟩
    split at hi
    next h =>
      obtain ⟨e, he, ho⟩ := hfound.mp h
      obtain ⟨d, hd, hname, hbody⟩ := (Registry.enum?_eq_some_iff hbuild).mp he
      exact ⟨d, hd, hname, e, hbody, ho⟩
    next => cases hi
  · rintro ⟨d, hd, hname, e, hbody, ho⟩
    have he := (Registry.enum?_eq_some_iff hbuild).mpr ⟨d, hd, hname, hbody⟩
    rw [if_pos (hfound.mpr ⟨e, he, ho⟩)]
    exact ⟨_, rfl⟩

/-- A literal other than a reference or the literal of a record, at a type without optionals. -/
theorem plain_isOk_iff {doc : Document} {params : List String} {v : Literal} {t : TypeExpr}
    (hbuild : Registry.build doc = .ok ctx.registry) (hw : WellFormed doc params t)
    (hopt : t.head ≠ .optional) (hv : ∀ target, v ≠ .constRef target)
    (hrec : ∀ entries name, v = .record entries → t.head ≠ .declared ⟨name, .record⟩) :
    (∃ i, ctx.plain v t = .ok i) ↔ Fits doc ctx.scope.consts ctx.index v t := by
  obtain ⟨h, args⟩ := t
  -- Nothing but a reference fits a type that has no literals.
  have hnone : (∀ i, ctx.plain v (.node h args) ≠ .ok i) →
      ¬ Fits doc ctx.scope.consts ctx.index v (.node h args) →
      ((∃ i, ctx.plain v (.node h args) = .ok i) ↔
        Fits doc ctx.scope.consts ctx.index v (.node h args)) :=
    fun herr hfits => iff_of_false (fun ⟨i, hi⟩ => herr i hi) hfits
  cases h with
  | primitive p =>
      obtain rfl : args = [] := List.eq_nil_of_length_eq_zero hw.takes
      exact primitive_isOk_iff hv
  | optional => exact absurd rfl hopt
  | list | set | map | param _ =>
      exact hnone (by simp [plain, TypeExpr.head]) fun hfits => by simpa using hfits.head hv
  | declared ref =>
      obtain ⟨name, kind⟩ := ref
      cases kind with
      | interface =>
          exact hnone (by simp [plain, TypeExpr.head]) fun hfits => by simpa using hfits.head hv
      | record =>
          refine hnone (by simp [plain, TypeExpr.head]) fun hfits => ?_
          obtain ⟨entries, rfl⟩ : ∃ entries, v = .record entries := by simpa using hfits.head hv
          exact hrec entries name rfl rfl
      | enum =>
          obtain rfl : args = [] := hw.args_eq_nil (by simp)
          cases v with
          | enumOption option =>
              refine (enumerator_isOk_iff hbuild).trans ⟨?_, fun hfits => ?_⟩
              · rintro ⟨d, hd, hname, e, hbody, ho⟩
                exact .enumOption hd hname hbody ho
              · cases hfits with
                | enumOption hd hname hbody ho => exact ⟨_, hd, hname, _, hbody, ho⟩
          | constRef target => exact absurd rfl (hv target)
          | int _ | float _ | bool _ | string _ | record _ =>
              exact hnone (by simp [plain, TypeExpr.head]) nofun

/-! ## Records -/

theorem elaborateAll_eq (entries : List (String × Literal)) :
    ctx.elaborateAll entries = entries.map fun p => (p.1, ctx.elaborate p.2) := by
  induction entries with
  | nil => rfl
  | cons p entries ih => rw [elaborateAll, ih, List.map_cons]

theorem arguments_isOk_iff (record : String) {fields : List Field}
    {entries : List (String × Literal)} :
    (∃ args, ctx.arguments record fields (ctx.elaborateAll entries) = .ok args) ↔
      ∀ f ∈ fields, ∃ v, NameMap.find? f.name entries = some v ∧
        ∃ i, ctx.elaborate v f.type = .ok i := by
  rw [arguments, mapM_isOk, elaborateAll_eq]
  refine forall_congr' fun f => imp_congr_right fun _ => ?_
  rw [NameMap.find?_map]
  cases NameMap.find? f.name entries with
  | none => simp
  | some v => simp [map_isOk]

theorem construct_isOk_iff {ref : DefRef} {t : TypeExpr} {r : Record}
    {entries : List (String × Literal)} (hr : ctx.registry.record? ref.name = some r) :
    (∃ i, ctx.construct ref t (ctx.elaborateAll entries) = .ok i) ↔
      (∀ key ∈ NameMap.names entries, ∃ f ∈ r.fields, f.name = key) ∧
      ∀ f ∈ r.fields, ∃ v, NameMap.find? f.name entries = some v ∧
        ∃ i, ctx.elaborate v f.type = .ok i := by
  have hnames : NameMap.names (ctx.elaborateAll entries) = NameMap.names entries := by
    simp [elaborateAll_eq, NameMap.names, Function.comp_def]
  rw [construct, hr, ← arguments_isOk_iff ref.name]
  simp only [hnames]
  cases hfind : (NameMap.names entries).find? (fun n => !r.fields.any (·.name == n)) with
  | some extra =>
      have hmem := List.mem_of_find?_eq_some hfind
      have hextra : ∀ f ∈ r.fields, f.name ≠ extra := by simpa using List.find?_some hfind
      refine iff_of_false (by simp) ?_
      rintro ⟨hkeys, -⟩
      obtain ⟨f, hf, hname⟩ := hkeys extra hmem
      exact hextra f hf hname
  | none =>
      have hkeys : ∀ key ∈ NameMap.names entries, ∃ f ∈ r.fields, f.name = key := by
        simpa using hfind
      simp only [map_isOk]
      exact (and_iff_right hkeys).symm

end LiteralContext

theorem fits_record_iff {doc : Document} {r : Registry} {consts : List Const} {index : Nat}
    {name : String} {b : Record} {entries : List (String × Literal)}
    (hbuild : Registry.build doc = .ok r) (hb : r.record? name = some b) :
    Fits doc consts index (.record entries) (.node (.declared ⟨name, .record⟩) []) ↔
      (∀ key, key ∈ NameMap.names entries ↔ ∃ f ∈ b.fields, f.name = key) ∧
      ∀ f ∈ b.fields, ∀ v, NameMap.find? f.name entries = some v →
        Fits doc consts index v f.type := by
  constructor
  · intro hfits
    cases hfits with
    | record hd hname hbody hkeys hfields =>
        have hb' := (Registry.record?_eq_some_iff hbuild).mpr ⟨_, hd, hname, hbody⟩
        rw [hb, Option.some.injEq] at hb'
        subst hb'
        exact ⟨hkeys, hfields⟩
  · rintro ⟨hkeys, hfields⟩
    obtain ⟨d, hd, hname, hbody⟩ := (Registry.record?_eq_some_iff hbuild).mp hb
    exact .record hd hname hbody hkeys hfields

/-! ## All literals -/

/-- To show something of every literal, show it of a record literal whose values have it, and of all
others. -/
theorem Literal.recordInduction {motive : Literal → Prop}
    (record : ∀ entries, (∀ p ∈ entries, motive p.2) → motive (.record entries))
    (other : ∀ v, (∀ entries, v ≠ .record entries) → motive v) : ∀ v, motive v
  | .record entries => record entries fun p _ => Literal.recordInduction record other p.2
  | .int _ => other _ nofun
  | .float _ => other _ nofun
  | .bool _ => other _ nofun
  | .string _ => other _ nofun
  | .enumOption _ => other _ nofun
  | .constRef _ => other _ nofun
decreasing_by
  rename_i hp
  have hlt := List.sizeOf_lt_of_mem hp
  obtain ⟨n, v⟩ := p
  simp only [Prod.mk.sizeOf_spec, Literal.record.sizeOf_spec] at hlt ⊢
  omega

/-- The same with references apart from the literals that have no parts. -/
theorem Literal.referenceInduction {motive : Literal → Prop}
    (record : ∀ entries, (∀ p ∈ entries, motive p.2) → motive (.record entries))
    (constRef : ∀ target, motive (.constRef target))
    (other : ∀ v, (∀ target, v ≠ .constRef target) → (∀ entries, v ≠ .record entries) → motive v)
    (v : Literal) : motive v := by
  induction v using recordInduction with
  | record entries ih => exact record entries ih
  | other v hrec =>
      by_cases hv : ∃ target, v = .constRef target
      · obtain ⟨target, rfl⟩ := hv
        exact constRef target
      · exact other v (fun target ht => hv ⟨target, ht⟩) hrec

namespace LiteralContext

variable {ctx : LiteralContext} {doc : Document}

theorem elaborate_of_not_record {v : Literal} {t : TypeExpr}
    (hv : ∀ target, v ≠ .constRef target) (hrec : ∀ entries, v ≠ .record entries) :
    ctx.elaborate v t = ctx.plain v t.core := by
  cases v with
  | constRef target => exact absurd rfl (hv target)
  | record entries => exact absurd rfl (hrec entries)
  | _ => simp only [elaborate]

/-- A record literal is looked into only where a record is asked for. -/
theorem elaborate_record {entries : List (String × Literal)} {t : TypeExpr} :
    (∃ name, t.core.head = .declared ⟨name, .record⟩ ∧
      ctx.elaborate (.record entries) t =
        ctx.construct ⟨name, .record⟩ t.core (ctx.elaborateAll entries)) ∨
    (∀ name, t.core.head ≠ .declared ⟨name, .record⟩) ∧
      ctx.elaborate (.record entries) t = ctx.plain (.record entries) t.core := by
  rw [elaborate]
  split
  next name hhead => exact Or.inl ⟨name, hhead, rfl⟩
  next hhead => exact Or.inr ⟨fun name h => hhead name h, rfl⟩

/-- A record literal is accepted when it fits, if its values are accepted when they fit. -/
theorem construct_isOk_iff_fits {name : String} {t : TypeExpr} {b : Record}
    {entries : List (String × Literal)} (hbuild : Registry.build doc = .ok ctx.registry)
    (hb : ctx.registry.record? name = some b)
    (hfield : ∀ f ∈ b.fields, ∀ v, NameMap.find? f.name entries = some v →
      ((∃ i, ctx.elaborate v f.type = .ok i) ↔ Fits doc ctx.scope.consts ctx.index v f.type)) :
    (∃ i, ctx.construct ⟨name, .record⟩ t (ctx.elaborateAll entries) = .ok i) ↔
      Fits doc ctx.scope.consts ctx.index (.record entries)
        (.node (.declared ⟨name, .record⟩) []) := by
  rw [construct_isOk_iff hb, fits_record_iff hbuild hb]
  constructor
  · rintro ⟨hkeys, hfields⟩
    refine ⟨fun key => ⟨hkeys key, ?_⟩, fun f hf v hfind => ?_⟩
    · rintro ⟨f, hf, rfl⟩
      obtain ⟨v, hfind, -⟩ := hfields f hf
      exact NameMap.exists_find?_iff.mp ⟨v, hfind⟩
    · obtain ⟨w, hfind', hok⟩ := hfields f hf
      obtain rfl : w = v := by rwa [hfind, Option.some.injEq, eq_comm] at hfind'
      exact (hfield f hf w hfind).mp hok
  · rintro ⟨hkeys, hfields⟩
    refine ⟨fun key hkey => (hkeys key).mp hkey, fun f hf => ?_⟩
    obtain ⟨v, hfind⟩ := NameMap.exists_find?_iff.mpr ((hkeys f.name).mpr ⟨f, hf, rfl⟩)
    exact ⟨v, hfind, (hfield f hf v hfind).mpr (hfields f hf v hfind)⟩

/-- A literal at a well-formed type is accepted exactly when it fits. -/
theorem elaborate_isOk_iff {params : List String} {v : Literal} {t : TypeExpr}
    (hdoc : Registry.Checked doc ctx.registry) (hw : WellFormed doc params t) :
    (∃ i, ctx.elaborate v t = .ok i) ↔ Fits doc ctx.scope.consts ctx.index v t := by
  induction v using Literal.recordInduction generalizing params t with
  | other v hrec =>
      by_cases hv : ∃ target, v = .constRef target
      · obtain ⟨target, rfl⟩ := hv
        rw [elaborate, reference_isOk_iff]
        constructor
        · rintro ⟨position, c, hfirst, hpos, htype⟩
          exact .constRef hfirst hpos htype
        · intro hfits
          cases hfits with
          | constRef hfirst hpos htype => exact ⟨_, _, hfirst, hpos, htype⟩
          | optional hv _ => exact absurd rfl (hv target)
      · have hv : ∀ target, v ≠ .constRef target := fun target h => hv ⟨target, h⟩
        rw [elaborate_of_not_record hv hrec, fits_core_iff hw hv]
        exact plain_isOk_iff hdoc.build hw.core.1 hw.core.2 hv fun entries _ h =>
          absurd h (hrec entries)
  | record entries ih =>
      have hv : ∀ target, Literal.record entries ≠ .constRef target := by simp
      rw [fits_core_iff hw hv]
      obtain ⟨hcore, hopt⟩ := hw.core
      rcases elaborate_record with ⟨name, hhead, hvalue⟩ | ⟨hhead, hvalue⟩
      · obtain ⟨hrecord, b, hb⟩ := hdoc.record_of_head hcore hhead
        rw [hvalue, hrecord]
        -- A field's type is well formed in the scope of its own record, so `ih` applies to it.
        exact construct_isOk_iff_fits hdoc.build hb fun f hf v hfind =>
          ih (f.name, v) (NameMap.mem_of_find? hfind) (hdoc.fieldType hb hf)
      · rw [hvalue]
        exact plain_isOk_iff hdoc.build hcore hopt hv fun _ name _ => hhead name

/-- In a document that passes the check, a literal is accepted at a type that passes it exactly when
it fits the type. A reference that does not fit names no constant, or one that does not come before,
or one of another type, and is reported accordingly. -/
theorem literal_accepted_iff_fits {owner : String} {params : List String} {t : TypeExpr}
    (hbuild : Registry.build doc = .ok ctx.registry) (hcheck : ctx.registry.check doc = .ok ())
    (ht : ctx.registry.checkType owner params t = .ok ()) :
    (∀ v, (∃ i, ctx.elaborate v t = .ok i) ↔ Fits doc ctx.scope.consts ctx.index v t) ∧
    ∀ target err, ctx.elaborate (.constRef target) t = .error err ↔
      (target ∉ ctx.scope.consts.map (·.name) ∧ err = .unknownConstRef ctx.site target) ∨
      (∃ position c, FirstNamed ctx.scope.consts target position c ∧ ctx.index ≤ position ∧
        err = .forwardConstRef ctx.site target) ∨
      (∃ position c, FirstNamed ctx.scope.consts target position c ∧ position < ctx.index ∧
        c.type ≠ t ∧ err = .constRefType ctx.site t target c.type) := by
  refine ⟨fun v => ?_, fun target err => ?_⟩
  · exact elaborate_isOk_iff (Registry.checked_of_check hbuild hcheck)
      ((Registry.checkType_eq_ok_iff hbuild).mp ht)
  · rw [elaborate, reference_eq_error_iff]

end LiteralContext

/-! ## A document with nested literals -/

namespace Sample

def color : Decl := ⟨"color", [], .enum { options := [⟨"red", []⟩, ⟨"green", []⟩] }⟩

def dot : Decl :=
  ⟨"dot", [], .record {
    fields := [⟨"tint", [], .node (.declared ⟨"color", .enum⟩) []⟩,
      ⟨"size", [], .node .optional [.node (.primitive .f64) []]⟩] }⟩

def origin : Const :=
  ⟨"origin", [], .node (.declared ⟨"dot", .record⟩) [],
    .record [("size", .int 1), ("tint", .enumOption "red")]⟩

/-- A constant one of whose ends is another constant. -/
def axis : Const :=
  ⟨"axis", [], .node (.declared ⟨"line", .record⟩) [],
    .record [("start", .constRef "origin"),
      ("stop", .record [("size", .int 2), ("tint", .enumOption "green")])]⟩

def line : Decl :=
  ⟨"line", [], .record {
    fields := [⟨"start", [], .node (.declared ⟨"dot", .record⟩) []⟩,
      ⟨"stop", [], .node (.declared ⟨"dot", .record⟩) []⟩]
    consts := [origin, axis] }⟩

def doc : Document := { decls := [line, dot, color] }

def registry : Registry := ⟨[("color", color), ("dot", dot), ("line", line)]⟩

/-- Where the constant `axis` stands. -/
def context : LiteralContext where
  settings := {}
  typename := TypeExpr.text
  registry := registry
  scope := ⟨"line", "Line", [origin, axis]⟩
  index := 1
  name := "axis"

end Sample

open Sample in
theorem axis_accepted_and_fits :
    Registry.build doc = .ok registry ∧ registry.check doc = .ok () ∧
      registry.checkType "line" [] axis.type = .ok () ∧
      Fits doc [origin, axis] 1 axis.value axis.type := by
  refine ⟨rfl, rfl, rfl, ?_⟩
  have hfits := (@LiteralContext.literal_accepted_iff_fits context doc "line" [] axis.type
    rfl rfl rfl).1
  exact (hfits axis.value).mp ⟨_, rfl⟩

end IdlBinder

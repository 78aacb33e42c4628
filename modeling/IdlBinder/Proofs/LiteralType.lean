import IdlBinder.Idl.Decode
import IdlBinder.Proofs.LiteralFault
import IdlBinder.Proofs.OwnerFiles
import Mathlib.Logic.Relation

set_option autoImplicit false

/-!
# Types that have literals

A literal is finite, so a type has one only if it can be taken apart, through optionals and the
fields of records, down to scalars and enums. `LiteralType` is the least set of types with this
property. A reference takes its type from an earlier constant and so adds nothing:
`literalType_of_fits` goes up the positions of the constants. The other way round, every type of the
set has a literal that needs no constants at all, `LiteralType.exists_literal`, as long as no record
has two fields of one name.
-/

namespace IdlBinder

open Traversal Relation

/-! ## Literals as maps -/

/-- The entries of every record literal inside a literal are in the order of their names. -/
inductive Literal.InOrder : Literal → Prop where
  | record {entries : List (String × Literal)} :
      NameMap.Ordered entries → (∀ p ∈ entries, InOrder p.2) → InOrder (.record entries)
  | other {v : Literal} : (∀ entries, v ≠ .record entries) → InOrder v

/-- Values for keys can be put into a map. -/
theorem NameMap.exists_ordered {α β : Type} {P : β → α → Prop} (key : β → String) {l : List β}
    (h : ∀ b ∈ l, ∃ value, P b value) :
    ∃ m : List (String × α), Ordered m ∧ (∀ b ∈ l, key b ∈ names m) ∧
      ∀ p ∈ m, ∃ b ∈ l, key b = p.1 ∧ P b p.2 := by
  induction l with
  | nil => exact ⟨[], List.Pairwise.nil, by simp, by simp⟩
  | cons b l ih =>
      obtain ⟨⟨value, hvalue⟩, hl⟩ := List.forall_mem_cons.mp h
      obtain ⟨m, hordered, hkeys, hentries⟩ := ih hl
      refine ⟨insert (key b) value m, ordered_insert hordered, ?_, ?_⟩
      · intro b' hb'
        rw [mem_names_insert]
        rcases List.mem_cons.mp hb' with rfl | hb'
        · exact Or.inl rfl
        · exact Or.inr (hkeys b' hb')
      · intro p hp
        rcases mem_of_mem_insert hp with rfl | hp
        · exact ⟨b, List.mem_cons_self, rfl, hvalue⟩
        · obtain ⟨b', hb', hkey, hp'⟩ := hentries p hp
          exact ⟨b', List.mem_cons_of_mem b hb', hkey, hp'⟩

/-- What is read into a map is a map of what was read. -/
theorem Decode.ordered_of_foldlM {room : Nat} {members : List (Option String × Json)}
    {done m : List (String × Literal)} (hdone : NameMap.Ordered done ∧ ∀ p ∈ done, p.2.InOrder)
    (hliteral : ∀ j v, literal room j = some v → v.InOrder)
    (h : members.foldlM (fun done m => m.1.bind fun name =>
      (literal room m.2).map fun value => NameMap.insert name value done) done = some m) :
    NameMap.Ordered m ∧ ∀ p ∈ m, p.2.InOrder := by
  induction members generalizing done with
  | nil =>
      cases h
      exact hdone
  | cons member members ih =>
      rw [List.foldlM_cons] at h
      obtain ⟨next, hnext, hrest⟩ := Option.bind_eq_some_iff.mp h
      obtain ⟨name, -, hvalue⟩ := Option.bind_eq_some_iff.mp hnext
      obtain ⟨value, hread, rfl⟩ := Option.map_eq_some_iff.mp hvalue
      refine ih ⟨NameMap.ordered_insert hdone.1, fun p hp => ?_⟩ hrest
      rcases NameMap.mem_of_mem_insert hp with rfl | hp
      · exact hliteral _ _ hread
      · exact hdone.2 p hp

/-- A record literal is read from the members of an object, with less room for each. -/
theorem Decode.exists_of_literal_eq_record {room : Nat} {j : Json} {m : List (String × Literal)}
    (h : literal room j = some (.record m)) :
    ∃ (k : Nat) (members : List (Option String × Json)), k < room ∧
      members.foldlM (fun done m => m.1.bind fun name =>
        (literal k m.2).map fun value => NameMap.insert name value done) [] = some m := by
  cases room with
  | zero => simp [literal] at h
  | succ room =>
      rw [literal] at h
      split at h
      next data _ =>
        have hentries : entries room data = some m := by split at h <;> simp_all
        cases room with
        | zero => simp [entries] at hentries
        | succ room =>
            cases data with
            | object members =>
                rw [entries] at hentries
                exact ⟨room, members, by omega, hentries⟩
            | _ => simp [entries] at hentries
      next => cases h

/-- The literals that are read are in order. -/
theorem Decode.inOrder_of_literal {room : Nat} {j : Json} {v : Literal}
    (h : literal room j = some v) : v.InOrder := by
  induction room using Nat.strongRecOn generalizing j v with
  | ind room ih =>
      cases v with
      | record m =>
          obtain ⟨k, members, hk, hm⟩ := exists_of_literal_eq_record h
          have hempty : NameMap.Ordered ([] : List (String × Literal)) := List.Pairwise.nil
          obtain ⟨hordered, hvalues⟩ := ordered_of_foldlM ⟨hempty, by simp⟩
            (fun _ _ hv => ih k hk hv) hm
          exact .record hordered hvalues
      | _ => exact .other nofun
/-! ## Types inside types -/

/-- A value of one type has a value of another right inside: what is in an optional, or a field. -/
inductive Contains (doc : Document) : TypeExpr → TypeExpr → Prop where
  | optional {t : TypeExpr} : Contains doc (.node .optional [t]) t
  | field {d : Decl} {r : Record} {f : Field} : d ∈ doc.decls → d.body = .record r → f ∈ r.fields →
      Contains doc (.node (.declared ⟨d.name, .record⟩) []) f.type

/-- Only optionals and records contain something. -/
theorem Contains.head {doc : Document} {t u : TypeExpr} (h : Contains doc t u) :
    t.head = .optional ∨ ∃ name, t.head = .declared ⟨name, .record⟩ := by
  cases h with
  | optional => exact Or.inl rfl
  | field _ _ _ => exact Or.inr ⟨_, rfl⟩

/-- The least set of types that has the scalars and the enums with options, and with certain types
also the optionals of them and the records with fields of them. -/
inductive LiteralType (doc : Document) : TypeExpr → Prop where
  | scalar {p : Prim} : p ∈ [Prim.bool, .i8, .i16, .i32, .i64, .f32, .f64, .string] →
      LiteralType doc (.node (.primitive p) [])
  | enum {d : Decl} {e : Enum} : d ∈ doc.decls → d.body = .enum e → e.options ≠ [] →
      LiteralType doc (.node (.declared ⟨d.name, .enum⟩) [])
  | optional {t : TypeExpr} : LiteralType doc t → LiteralType doc (.node .optional [t])
  | record {d : Decl} {r : Record} : d ∈ doc.decls → d.body = .record r →
      (∀ f ∈ r.fields, LiteralType doc f.type) →
      LiteralType doc (.node (.declared ⟨d.name, .record⟩) [])

/-- The heads that no literal can be given to. -/
def TypeHead.WithoutLiterals : TypeHead → Prop
  | .primitive p => p = .binary ∨ p = .date
  | .list | .set | .map | .param _ => True
  | .declared ref => ref.kind = .interface
  | .optional => False

/-- The records that a type leads to through optionals and fields have no two fields of one name. -/
def FieldsApart (doc : Document) (t : TypeExpr) : Prop :=
  ∀ d ∈ doc.decls, ∀ r, d.body = .record r →
    ReflTransGen (Contains doc) t (.node (.declared ⟨d.name, .record⟩) []) →
    (r.fields.map (·.name)).Nodup

theorem FieldsApart.of_contains {doc : Document} {t u : TypeExpr} (h : FieldsApart doc t)
    (hu : Contains doc t u) : FieldsApart doc u :=
  fun d hd r hbody hreaches => h d hd r hbody (hreaches.head hu)

/-- Nothing leads back to where every way ends. -/
theorem not_transGen_self_of_acc {α : Type} {R : α → α → Prop} {a : α}
    (h : Acc (Function.swap R) a) : ¬ TransGen R a a := by
  rw [← transGen_swap]
  have hway : Acc (TransGen (Function.swap R)) a := h.transGen
  clear h
  induction hway with
  | intro a _ ih =>
      intro hcircle
      exact ih a hcircle hcircle

namespace LiteralType

variable {doc : Document} {t u : TypeExpr}

theorem not_withoutLiterals (h : LiteralType doc t) : ¬ t.head.WithoutLiterals := by
  cases h with
  | scalar hp =>
      rintro (hbinary | hdate)
      · simp [hbinary] at hp
      · simp [hdate] at hp
  | enum _ _ _ => nofun
  | optional _ => exact id
  | record _ _ _ => nofun

theorem wellFormed (h : LiteralType doc t) : WellFormed doc [] t := by
  induction h with
  | scalar _ => exact .node rfl (by simp)
  | @enum d e hd hbody _ =>
      have hparams : d.typeParams = [] := by simp [Decl.typeParams, hbody]
      have hkind : d.kind = .enum := congrArg Body.kind hbody
      exact .node ⟨d, hd, rfl, hkind, by simp [hparams]⟩ (by simp)
  | optional _ ih => exact .node rfl (by simpa using ih)
  | @record d r hd hbody _ _ =>
      have hparams : d.typeParams = [] := by simp [Decl.typeParams, hbody]
      have hkind : d.kind = .record := congrArg Body.kind hbody
      exact .node ⟨d, hd, rfl, hkind, by simp [hparams]⟩ (by simp)

variable (hnames : (doc.decls.map (·.name)).Nodup)
include hnames

/-- What is inside the type of a record is the type of one of its fields. -/
theorem exists_field_of_contains {d : Decl} {r : Record} (hd : d ∈ doc.decls)
    (hbody : d.body = .record r)
    (hu : Contains doc (.node (.declared ⟨d.name, .record⟩) []) u) :
    ∃ f ∈ r.fields, u = f.type := by
  generalize ht : TypeExpr.node (.declared ⟨d.name, .record⟩) [] = t at hu
  cases hu with
  | optional => cases ht
  | @field d' r' f hd' hbody' hf =>
      have hname : d.name = d'.name := by simpa using ht
      obtain rfl := eq_of_nodup_map hnames hd hd' hname
      cases hbody.symm.trans hbody'
      exact ⟨f, hf, rfl⟩

theorem of_contains (h : LiteralType doc t) (hu : Contains doc t u) : LiteralType doc u := by
  cases h with
  | scalar _ => simpa [TypeExpr.head] using hu.head
  | enum _ _ _ => simpa [TypeExpr.head] using hu.head
  | optional ht =>
      cases hu with
      | optional => exact ht
  | record hd hbody hfields =>
      obtain ⟨f, hf, rfl⟩ := exists_field_of_contains hnames hd hbody hu
      exact hfields f hf

/-- The way into a type of the set comes to an end. -/
theorem acc (h : LiteralType doc t) : Acc (Function.swap (Contains doc)) t := by
  induction h with
  | scalar _ => exact .intro _ fun u hu => by simpa [TypeExpr.head] using hu.head
  | enum _ _ _ => exact .intro _ fun u hu => by simpa [TypeExpr.head] using hu.head
  | optional _ ih =>
      refine .intro _ fun u hu => ?_
      cases hu with
      | optional => exact ih
  | record hd hbody _ ih =>
      refine .intro _ fun u hu => ?_
      obtain ⟨f, hf, rfl⟩ := exists_field_of_contains hnames hd hbody hu
      exact ih f hf

/-- A type of the set leads to no type without literals and to no type that contains itself. -/
theorem of_reaches (h : LiteralType doc t) (hu : ReflTransGen (Contains doc) t u) :
    ¬ u.head.WithoutLiterals ∧ ¬ TransGen (Contains doc) u u := by
  have hliteral : LiteralType doc u := by
    induction hu with
    | refl => exact h
    | tail _ hstep ih => exact ih.of_contains hnames hstep
  exact ⟨hliteral.not_withoutLiterals, not_transGen_self_of_acc (hliteral.acc hnames)⟩

end LiteralType

/-! ## Only these types have literals -/

/-- If the constants before it are of such types, a literal fits such a type only. -/
theorem Fits.literalType {doc : Document} {consts : List Const} {index : Nat} {v : Literal}
    {t : TypeExpr} (h : Fits doc consts index v t)
    (hearlier : ∀ (i : Nat) c, i < index → consts[i]? = some c → LiteralType doc c.type) :
    LiteralType doc t := by
  induction h with
  | constRef hfirst hpos htype =>
      obtain ⟨before, after, rfl, rfl, -, -⟩ := hfirst
      exact htype ▸ hearlier _ _ hpos (by simp)
  | bool _ => exact .scalar (by simp)
  | @int _ p hp => exact .scalar (by cases p <;> simp_all)
  | @float _ p _ hp => exact .scalar (by cases p <;> simp_all)
  | string _ => exact .scalar (by simp)
  | optional _ _ ih => exact .optional ih
  | enumOption hd hname hbody ho =>
      subst hname
      obtain ⟨o, ho, -⟩ := ho
      exact .enum hd hbody (List.ne_nil_of_mem ho)
  | record hd hname hbody hkeys _ ih =>
      subst hname
      refine .record hd hbody fun f hf => ?_
      -- Every field has a value, and by induction the value has told us about the type.
      obtain ⟨v, hv⟩ := NameMap.exists_find?_iff.mpr ((hkeys f.name).mpr ⟨f, hf, rfl⟩)
      exact ih f hf v hv

/-- Where all literals fit, all constants are of such types: one after the other, since references
only look back. -/
theorem literalType_of_fits {doc : Document} {consts : List Const}
    (h : ∀ (i : Nat) c, consts[i]? = some c → Fits doc consts i c.value c.type) (i : Nat) :
    ∀ c, consts[i]? = some c → LiteralType doc c.type := by
  induction i using Nat.strongRecOn with
  | ind i ih =>
      intro c hc
      exact (h i c hc).literalType fun j c' hj hc' => ih j hj c' hc'

theorem Emitter.fits_of_constDefs {e : Emitter} {doc : Document} {params : List String}
    {scope : ConstScope} {template : Option Cpp.Template} {defs : List Cpp.ConstDef}
    (hdoc : Registry.Checked doc e.registry) (hw : ∀ c ∈ scope.consts, WellFormed doc params c.type)
    (h : e.constDefs scope template = .ok defs) {i : Nat} {c : Const}
    (hc : scope.consts[i]? = some c) : Fits doc scope.consts i c.value c.type := by
  obtain ⟨-, hdefs⟩ := getElem?_of_constDefs h
  obtain ⟨value, hvalue, -⟩ := hdefs i c hc
  have hregistry : Registry.Checked doc (e.literalContext scope i c.name).registry := hdoc
  exact (LiteralContext.elaborate_isOk_iff hregistry (hw c (List.mem_of_getElem? hc))).mp
    ⟨value, hvalue⟩

/-! ## Each of these types has a literal -/

/-- A literal that fits a type everywhere. -/
structure FitsEverywhere (doc : Document) (v : Literal) (t : TypeExpr) : Prop where
  inOrder : v.InOrder
  not_constRef : ∀ target, v ≠ .constRef target
  fits : ∀ consts index, Fits doc consts index v t

/-- Values for the fields of a record make up a value for the record. -/
theorem exists_record_literal {doc : Document} {d : Decl} {r : Record} (hd : d ∈ doc.decls)
    (hbody : d.body = .record r) (hnames : (r.fields.map (·.name)).Nodup)
    (hfields : ∀ f ∈ r.fields, ∃ v, FitsEverywhere doc v f.type) :
    ∃ v, FitsEverywhere doc v (.node (.declared ⟨d.name, .record⟩) []) := by
  obtain ⟨entries, hordered, hkeys, hentries⟩ := NameMap.exists_ordered (·.name) hfields
  refine ⟨.record entries, .record hordered fun p hp => ?_, nofun, fun consts index => ?_⟩
  · obtain ⟨f, -, -, hvalue⟩ := hentries p hp
    exact hvalue.inOrder
  · refine .record hd rfl hbody (fun key => ⟨fun hkey => ?_, ?_⟩) fun f hf v hv => ?_
    · obtain ⟨p, hp, rfl⟩ := List.mem_map.mp hkey
      obtain ⟨f, hf, hname, -⟩ := hentries p hp
      exact ⟨f, hf, hname⟩
    · rintro ⟨f, hf, rfl⟩
      exact hkeys f hf
    · -- The entry was made for the field of this name, and there is no other.
      obtain ⟨f', hf', hname, hvalue⟩ := hentries _ (NameMap.mem_of_find? hv)
      obtain rfl := eq_of_nodup_map hnames hf' hf hname
      exact hvalue.fits consts index

theorem LiteralType.exists_literal {doc : Document} {t : TypeExpr} (h : LiteralType doc t)
    (hapart : FieldsApart doc t) : ∃ v, FitsEverywhere doc v t := by
  induction h with
  | @scalar p hp =>
      by_cases hnumber : p ∈ [Prim.i8, .i16, .i32, .i64, .f32, .f64]
      · exact ⟨.int 0, .other nofun, nofun, fun _ _ => .int 0 hnumber⟩
      · have hother : p = .bool ∨ p = .string := by cases p <;> simp_all
        rcases hother with rfl | rfl
        · exact ⟨.bool false, .other nofun, nofun, fun _ _ => .bool false⟩
        · exact ⟨.string "", .other nofun, nofun, fun _ _ => .string ""⟩
  | @enum d e hd hbody hoptions =>
      obtain ⟨o, ho⟩ := List.exists_mem_of_ne_nil _ hoptions
      exact ⟨.enumOption o.name, .other nofun, nofun,
        fun _ _ => .enumOption hd rfl hbody ⟨o, ho, rfl⟩⟩
  | optional _ ih =>
      obtain ⟨v, hv⟩ := ih (hapart.of_contains .optional)
      exact ⟨v, hv.inOrder, hv.not_constRef,
        fun consts index => .optional hv.not_constRef (hv.fits consts index)⟩
  | @record d r hd hbody _ ih =>
      refine exists_record_literal hd hbody (hapart d hd r hbody .refl) fun f hf => ?_
      exact ih f hf (hapart.of_contains (.field hd hbody hf))

/-! ## The types of constants -/

/-- In a document that passes the check, the constants of an owner can be defined only if they are
of types that have literals. Such a type leads, through fields and optionals, to no container,
binary, date, interface or type parameter, and to no record inside itself. Every such type has a
literal that is accepted everywhere if no record on the way has two fields of one name. -/
theorem constant_types_have_literals (e : Emitter) {doc : Document}
    (hbuild : Registry.build doc = .ok e.registry) (hcheck : e.registry.check doc = .ok ()) :
    (∀ d ∈ doc.decls, ∀ scope template defs, scope.consts = d.consts →
      e.constDefs scope template = .ok defs → ∀ c ∈ d.consts, LiteralType doc c.type ∧
        ∀ t, ReflTransGen (Contains doc) c.type t →
          ¬ t.head.WithoutLiterals ∧ ¬ TransGen (Contains doc) t t) ∧
    ∀ t, LiteralType doc t → FieldsApart doc t →
      ∃ v : Literal, v.InOrder ∧ ∀ ctx : LiteralContext, ctx.registry = e.registry →
        ∃ init, ctx.elaborate v t = .ok init := by
  have hdoc := Registry.checked_of_check hbuild hcheck
  constructor
  · intro d hd scope template defs hconsts hdefs c hc
    have hw : ∀ c ∈ scope.consts, WellFormed doc d.typeParams c.type := by
      rw [hconsts]
      exact Emitter.wellFormed_const hdoc hd
    rw [← hconsts] at hc
    obtain ⟨i, hi⟩ := List.mem_iff_getElem?.mp hc
    have htype : LiteralType doc c.type :=
      literalType_of_fits (fun j c' hc' => Emitter.fits_of_constDefs hdoc hw hdefs hc') i c hi
    exact ⟨htype, fun t ht => htype.of_reaches (Registry.indexes_of_build hbuild).2 ht⟩
  · intro t ht hapart
    obtain ⟨v, hv⟩ := ht.exists_literal hapart
    refine ⟨v, hv.inOrder, fun ctx hctx => ?_⟩
    have hregistry : Registry.Checked doc ctx.registry := hctx ▸ hdoc
    exact (LiteralContext.elaborate_isOk_iff hregistry ht.wellFormed).mpr (hv.fits _ _)

namespace Sample

/-- The emitter for the document with the constants `origin` and `axis`. -/
def emitter : Emitter := { Generator.standard {} with registry := registry, origin := "" }

end Sample

open Sample in
theorem axis_type_has_literals :
    Registry.build doc = .ok emitter.registry ∧ emitter.registry.check doc = .ok () ∧
      (∃ defs, emitter.constDefs (emitter.scopeOf line) none = .ok defs) ∧
      LiteralType doc axis.type ∧ FieldsApart doc axis.type ∧
      ∃ v : Literal, v.InOrder ∧ ∃ init, context.elaborate v axis.type = .ok init := by
  have hdefs : ∃ defs, emitter.constDefs (emitter.scopeOf line) none = .ok defs := ⟨_, rfl⟩
  obtain ⟨defs, hdefs'⟩ := hdefs
  obtain ⟨htypes, hliterals⟩ := @constant_types_have_literals emitter doc rfl rfl
  have hline : line ∈ doc.decls := List.mem_cons_self
  have htype : LiteralType doc axis.type :=
    (htypes line hline _ none defs rfl hdefs' axis (by simp [Decl.consts, line])).1
  have hapart : FieldsApart doc axis.type := by
    intro d hd r hbody _
    simp only [doc, List.mem_cons, List.not_mem_nil, or_false] at hd
    rcases hd with rfl | rfl | rfl
    · cases hbody
      decide
    · cases hbody
      decide
    · cases hbody
  obtain ⟨v, hv, haccepted⟩ := hliterals axis.type htype hapart
  exact ⟨rfl, rfl, ⟨defs, hdefs'⟩, htype, hapart, v, hv, haccepted context rfl⟩

end IdlBinder

import IdlBinder.Marshal.Component
import IdlBinder.Proofs.BracketFree
import IdlBinder.Proofs.Rendering

set_option autoImplicit false

/-!
# Types and values are spelled with balanced brackets

The texts of a document are its origin and the identifiers, comments and string literals of its
declarations. If they have no brackets, then all brackets in spelled types, in their needs and in
initializers come from templates and calls, which close what they open.
-/

namespace IdlBinder

open Brackets Traversal

/-! ## The texts of a document -/

/-- The identifier in the head of a type. -/
def TypeHead.idents : TypeHead → List String
  | .declared d => [d.name]
  | .param n => [n]
  | .primitive _ | .optional | .list | .set | .map => []

/-- The identifiers in a type. -/
def TypeExpr.idents (t : TypeExpr) : List String := t.nodes.flatMap (·.head.idents)

mutual

/-- The strings and identifiers in a literal. -/
def Literal.texts : Literal → List String
  | .string s => [s]
  | .enumOption name | .constRef name => [name]
  | .record entries => Literal.entryTexts entries
  | .int _ | .float _ | .bool _ => []

/-- The strings and identifiers in the entries of a record literal. -/
def Literal.entryTexts : List (String × Literal) → List String
  | [] => []
  | (name, v) :: rest => name :: (v.texts ++ Literal.entryTexts rest)

end

/-- The texts of a constant. -/
def Const.texts (c : Const) : List String := c.name :: (c.doc ++ c.type.idents ++ c.value.texts)

/-- The texts of an option of an enum. -/
def EnumOption.texts (o : EnumOption) : List String := o.name :: o.doc

/-- The texts of a field or parameter. -/
def Field.texts (f : Field) : List String := f.name :: (f.doc ++ f.type.idents)

/-- The texts of a method. -/
def Method.texts (m : Method) : List String :=
  m.name :: (m.doc ++ m.params.flatMap Field.texts ++ m.result.toList.flatMap TypeExpr.idents)

/-- The texts of what a declaration declares. -/
def Body.texts : Body → List String
  | .enum e => e.options.flatMap EnumOption.texts
  | .record r => r.fields.flatMap Field.texts ++ r.consts.flatMap Const.texts
  | .interface i =>
    i.typeParams ++ i.methods.flatMap Method.texts ++ i.consts.flatMap Const.texts

/-- The texts of a declaration. -/
def Decl.texts (d : Decl) : List String := d.name :: (d.doc ++ d.body.texts)

/-- The texts of a document: its origin, and the identifiers, lines of comments and string literals
of its declarations. -/
def Document.texts (doc : Document) : List String := doc.origin :: doc.decls.flatMap Decl.texts

theorem Const.allFree_texts {c : Const} :
    AllFree c.texts ↔ BracketFree c.name ∧ AllFree c.doc ∧ AllFree c.type.idents ∧
      AllFree c.value.texts := by
  simp only [texts, allFree_cons, allFree_append, and_assoc]

theorem Field.allFree_texts {f : Field} :
    AllFree f.texts ↔ BracketFree f.name ∧ AllFree f.doc ∧ AllFree f.type.idents := by
  simp only [texts, allFree_cons, allFree_append]

theorem Method.allFree_texts {m : Method} :
    AllFree m.texts ↔ BracketFree m.name ∧ AllFree m.doc ∧ (∀ p ∈ m.params, AllFree p.texts) ∧
      ∀ t, m.result = some t → AllFree t.idents := by
  simp only [texts, allFree_cons, allFree_append, allFree_flatMap, Option.mem_toList, and_assoc]

theorem Body.allFree_record {r : Record} :
    AllFree (record r).texts ↔ (∀ f ∈ r.fields, AllFree f.texts) ∧
      ∀ c ∈ r.consts, AllFree c.texts := by
  simp only [texts, allFree_append, allFree_flatMap]

theorem Body.allFree_interface {i : Interface} :
    AllFree (interface i).texts ↔ AllFree i.typeParams ∧ (∀ m ∈ i.methods, AllFree m.texts) ∧
      ∀ c ∈ i.consts, AllFree c.texts := by
  simp only [texts, allFree_append, allFree_flatMap, and_assoc]

theorem Decl.allFree_texts {d : Decl} :
    AllFree d.texts ↔ BracketFree d.name ∧ AllFree d.doc ∧ AllFree d.body.texts := by
  simp only [texts, allFree_cons, allFree_append]

theorem Decl.allFree_typeParams {d : Decl} (h : AllFree d.texts) : AllFree d.typeParams := by
  have htexts := (allFree_texts.mp h).2.2
  cases hbody : d.body with
  | interface i =>
      rw [hbody, Body.allFree_interface] at htexts
      simpa only [typeParams, hbody] using htexts.1
  | enum enum => simp only [typeParams, hbody, allFree_nil]
  | record r => simp only [typeParams, hbody, allFree_nil]

theorem Decl.allFree_consts {d : Decl} (h : AllFree d.texts) : ∀ c ∈ d.consts, AllFree c.texts := by
  have htexts := (allFree_texts.mp h).2.2
  cases hbody : d.body with
  | enum enum => simp [consts, hbody]
  | record r =>
      rw [hbody, Body.allFree_record] at htexts
      simpa only [consts, hbody] using htexts.2
  | interface i =>
      rw [hbody, Body.allFree_interface] at htexts
      simpa only [consts, hbody] using htexts.2.2

theorem Document.allFree_texts {doc : Document} :
    AllFree doc.texts ↔ BracketFree doc.origin ∧ ∀ d ∈ doc.decls, AllFree d.texts := by
  simp only [texts, allFree_cons, allFree_flatMap]

theorem TypeExpr.allFree_idents {h : TypeHead} {args : List TypeExpr} :
    AllFree (node h args).idents ↔ AllFree h.idents ∧ ∀ a ∈ args, AllFree a.idents := by
  simp only [idents, allFree_flatMap, mem_nodes]
  constructor
  · intro hnodes
    exact ⟨hnodes _ (.inr rfl), fun a ha n hn => hnodes n (.inl ⟨a, ha, hn⟩)⟩
  · rintro ⟨hhead, hargs⟩ n (⟨a, ha, hn⟩ | rfl)
    · exact hargs a ha n hn
    · exact hhead

theorem TypeExpr.allFree_idents_head {t : TypeExpr} (h : AllFree t.idents) :
    AllFree t.head.idents := by
  obtain ⟨head, args⟩ := t
  exact (allFree_idents.mp h).1

/-! ## Types -/

namespace TypeName

mutual

/-- A type name is balanced whatever its arguments. -/
theorem balanced_text : (t : TypeName) → AllFree t.names → Balanced t.text
  | plain name, h => (allFree_cons.mp h).1.balanced
  | template name args, h => by
      obtain ⟨hname, hargs⟩ := allFree_cons.mp h
      have hjoined := balanced_intercalate ", " (by decide) (balanced_texts args hargs)
      exact hjoined.enclosed (hname.balanced.owed_append _ _) rfl

theorem balanced_texts : (ts : List TypeName) → AllFree (namesAll ts) → ∀ s ∈ texts ts, Balanced s
  | [], _ => fun _ => nofun
  | t :: ts, h => by
      obtain ⟨ht, hts⟩ := allFree_append.mp h
      exact List.forall_mem_cons.mpr ⟨balanced_text t ht, balanced_texts ts hts⟩

end

theorem allFree_namesAll {ts : List TypeName} :
    AllFree (namesAll ts) ↔ ∀ t ∈ ts, AllFree t.names := by
  induction ts with
  | nil => simp [namesAll]
  | cons t ts ih => rw [namesAll, allFree_append, ih, List.forall_mem_cons]

end TypeName

/-- What is written for a need. -/
def Need.text : Need → String
  | .inclusion target => target
  | .forward declaration => declaration

namespace Native

variable {s : Settings}

theorem allFree_names_className {name : String} (h : BracketFree name) {args : List TypeName}
    (hargs : ∀ t ∈ args, AllFree t.names) : AllFree (className name args).names := by
  rw [className]
  split
  · simpa [TypeName.names] using h
  · rw [TypeName.names, allFree_cons, TypeName.allFree_namesAll]
    exact ⟨h, hargs⟩

theorem allFree_names_spell (hs : s.IsBracketFree) {t : TypeExpr} (h : AllFree t.idents) :
    AllFree (spell s t).names := by
  induction t using TypeExpr.nodeInduction with
  | node head args ih =>
      obtain ⟨hhead, hargs⟩ := TypeExpr.allFree_idents.mp h
      have hall : ∀ n ∈ spellAll s args, AllFree n.names := by
        intro n hn
        rw [spellAll_eq_map] at hn
        obtain ⟨a, ha, rfl⟩ := List.mem_map.mp hn
        exact ih a ha (hargs a ha)
      have htemplate : ∀ name, BracketFree name →
          AllFree (TypeName.template name (spellAll s args)).names := by
        intro name hname
        rw [TypeName.names, allFree_cons, TypeName.allFree_namesAll]
        exact ⟨hname, hall⟩
      cases head with
      | primitive p => cases p <;> rw [spell] <;> decide
      | optional =>
          cases args with
          | nil => exact htemplate _ (by decide)
          | cons a as =>
              rw [spell]
              split
              -- An optional interface is the interface.
              · exact ih a List.mem_cons_self (hargs a List.mem_cons_self)
              · exact htemplate _ (by decide)
      | list => exact htemplate _ (by decide)
      | set => exact htemplate _ (by decide)
      | map => exact htemplate _ (by decide)
      | param n =>
          rw [spell]
          exact allFree_cons.mpr ⟨hs.nativeTypeParam (allFree_cons.mp hhead).1, allFree_nil⟩
      | declared d =>
          have hname := hs.nativeQualified (allFree_cons.mp hhead).1
          rw [spell]
          split
          · exact allFree_cons.mpr ⟨hname, allFree_nil⟩
          · exact allFree_cons.mpr ⟨hname, allFree_nil⟩
          · rw [TypeName.names, allFree_cons, TypeName.namesAll, TypeName.namesAll,
              List.append_nil]
            exact ⟨by decide, allFree_names_className hname hall⟩

theorem balanced_typename (hs : s.IsBracketFree) {t : TypeExpr} (h : AllFree t.idents) :
    Balanced (typename s t) :=
  TypeName.balanced_text _ (allFree_names_spell hs h)

theorem balanced_paramType (hs : s.IsBracketFree) {t : TypeExpr} (h : AllFree t.idents) :
    Balanced (paramType s t) := by
  rw [paramType]
  split
  · exact balanced_typename hs h
  · exact (balanced_typename hs h).append (by decide)

theorem balanced_forwardDecl (hs : s.IsBracketFree) {d : DefRef} (h : BracketFree d.name)
    (arity : Nat) : Balanced (forwardDecl s d arity) := by
  have hname := (hs.nativeType h).balanced
  have hparams : Balanced (", ".intercalate (List.replicate arity "typename")) := by
    refine balanced_intercalate ", " (by decide) fun p hp => ?_
    rw [List.eq_of_mem_replicate hp]
    decide
  unfold forwardDecl
  split
  · exact hname.enclosed rfl rfl
  · exact hname.enclosed rfl rfl
  · split
    · exact hname.enclosed rfl rfl
    · exact ((hparams.enclosed rfl rfl).append hname).append (by decide)

theorem balanced_declNeeds (hs : s.IsBracketFree) {d : DefRef} (h : BracketFree d.name)
    (arity : Nat) (role : FileRole) (isOwner : Bool) :
    ∀ x ∈ declNeeds s d arity role isOwner, Balanced x.text := by
  have hheader := (hs.includeTarget (hs.fileStem h)).balanced
  have hforward := balanced_forwardDecl hs h
  have hmemory : Balanced "<memory>" := by decide
  cases hkind : d.kind <;> cases isOwner <;> cases role <;>
    simp [declNeeds, hkind, Need.text, hheader, hforward, hmemory]

theorem balanced_needs (hs : s.IsBracketFree) {t : TypeExpr} (h : AllFree t.head.idents)
    (role : FileRole) (owner : Option String) :
    ∀ x ∈ needs s t role owner, Balanced x.text := by
  unfold needs
  split
  next p _ => cases p <;> decide
  next => split <;> decide
  next => decide
  next => decide
  next => decide
  next => exact fun _ => nofun
  next d hd =>
    rw [hd] at h
    exact balanced_declNeeds hs (allFree_cons.mp h).1 _ _ _

end Native

namespace Component

variable {s : Settings}

theorem translators_eq_map (ts : List TypeExpr) : translators s ts = ts.map (translator s) := by
  induction ts with
  | nil => rfl
  | cons t ts ih => rw [translators, ih, List.map_cons]

theorem allFree_names_translator (hs : s.IsBracketFree) {t : TypeExpr} (h : AllFree t.idents) :
    AllFree (translator s t).names := by
  induction t using TypeExpr.nodeInduction with
  | node head args ih =>
      obtain ⟨hhead, hargs⟩ := TypeExpr.allFree_idents.mp h
      have htemplate : ∀ name, BracketFree name →
          AllFree (TypeName.template (s.supportType name) (translators s args)).names := by
        intro name hname
        rw [TypeName.names, allFree_cons, TypeName.allFree_namesAll, translators_eq_map]
        refine ⟨hs.supportType hname, fun n hn => ?_⟩
        obtain ⟨a, ha, rfl⟩ := List.mem_map.mp hn
        exact ih a ha (hargs a ha)
      cases head with
      | primitive p =>
          rw [translator, TypeName.names, allFree_cons]
          exact ⟨hs.supportType (by cases p <;> decide), allFree_nil⟩
      | optional => exact htemplate _ (by decide)
      | list => exact htemplate _ (by decide)
      | set => exact htemplate _ (by decide)
      | map => exact htemplate _ (by decide)
      | param n =>
          have hname := hs.nativeTypeParam (allFree_cons.mp hhead).1
          have hgeneric : BracketFree (s.supportType "Generic") := hs.supportType (by decide)
          simpa [translator, TypeName.names, TypeName.namesAll] using ⟨hgeneric, hname⟩
      | declared d =>
          have hname := (allFree_cons.mp hhead).1
          have hnative := hs.nativeQualified hname
          have hcomponent := hs.componentQualified hname
          rw [translator]
          split
          · have henum : BracketFree (s.supportType "Enum") := hs.supportType (by decide)
            simpa [TypeName.names, TypeName.namesAll] using ⟨henum, hnative, hcomponent⟩
          · exact allFree_cons.mpr ⟨hs.qualify (hs.bridgeName hname {}), allFree_nil⟩
          · have hinterface : BracketFree (s.supportType "Interface") := hs.supportType (by decide)
            have hclass : AllFree (Native.interfaceClass s d args).names := by
              refine Native.allFree_names_className hnative fun n hn => ?_
              rw [Native.spellAll_eq_map] at hn
              obtain ⟨a, ha, rfl⟩ := List.mem_map.mp hn
              exact Native.allFree_names_spell hs (hargs a ha)
            simpa [TypeName.names, TypeName.namesAll] using ⟨hinterface, hclass, hcomponent⟩

theorem balanced_convert (hs : s.IsBracketFree) {function : String}
    (hfunction : BracketFree function) {t : TypeExpr} (h : AllFree t.idents) {expr : String}
    (hexpr : Balanced expr) : Balanced (convert s function t expr) := by
  have htranslator := TypeName.balanced_text _ (allFree_names_translator hs h)
  have hcall : Balanced ((translator s t).text ++ "::" ++ function) :=
    (htranslator.append (by decide)).append hfunction.balanced
  exact hexpr.enclosed (hcall.owed_append _ _) rfl

theorem balanced_needs (hs : s.IsBracketFree) {t : TypeExpr} (h : AllFree t.head.idents)
    (role : FileRole) (owner : Option String) :
    ∀ x ∈ needs s t role owner, Balanced x.text := by
  unfold needs
  split
  next => decide
  next => decide
  next => decide
  next => decide
  next => decide
  next => decide
  next => exact fun _ => nofun
  next d hd =>
    rw [hd] at h
    have hbridge := (hs.includeTarget (hs.bridgeFileStem (allFree_cons.mp h).1 {})).balanced
    refine List.forall_mem_cons.mpr ⟨hs.projectionHeader, ?_⟩
    split
    · simpa [Need.text] using hbridge
    · exact fun _ => nofun

end Component

/-! ## Initializers -/

theorem Initializer.argTexts_eq_map (args : List (Initializer × String)) :
    argTexts args = args.map fun a => a.1.text ++ " /* " ++ a.2 ++ " */" := by
  induction args with
  | nil => rfl
  | cons a args ih => rw [argTexts, ih, List.map_cons]

theorem Initializer.balanced_construct {type : String} (htype : Balanced type)
    {args : List (Initializer × String)}
    (hargs : ∀ a ∈ args, Balanced a.1.text ∧ BracketFree a.2) :
    Balanced (construct type args).text := by
  have hjoined : Balanced (", ".intercalate (argTexts args)) := by
    refine balanced_intercalate ", " (by decide) fun arg harg => ?_
    rw [argTexts_eq_map] at harg
    obtain ⟨a, ha, rfl⟩ := List.mem_map.mp harg
    have hvalue := (hargs a ha).1.append (t := " /* ") (by decide)
    exact (hvalue.append (hargs a ha).2.balanced).append (by decide)
  exact hjoined.enclosed (htype.owed_append _ _) rfl

theorem TypeExpr.allFree_idents_core {t : TypeExpr} (h : AllFree t.idents) :
    AllFree t.core.idents := by
  induction t using TypeExpr.core.induct with
  | case1 a as ih =>
      rw [core]
      exact ih ((allFree_idents.mp h).2 a List.mem_cons_self)
  | case2 t ht =>
      rw [core.eq_2 t ht]
      exact h

theorem Literal.allFree_texts_record {entries : List (String × Literal)} :
    AllFree (record entries).texts ↔ ∀ p ∈ entries, BracketFree p.1 ∧ AllFree p.2.texts := by
  rw [texts]
  induction entries with
  | nil => simp [entryTexts]
  | cons p entries ih =>
      rw [entryTexts, allFree_cons, allFree_append, ih, List.forall_mem_cons, and_assoc]

namespace LiteralContext

variable {ctx : LiteralContext} {doc : Document} {init : Initializer}

theorem bracketFree_floatText (single : Bool) (x : Binary64) :
    BracketFree (floatText single x) := by
  have htext := Decimal.bracketFree_text x
  rw [floatText]
  split
  · exact bracketFree_append.mpr ⟨htext, by decide⟩
  · exact htext

theorem balanced_primitive {p : Prim} {t : TypeExpr} {v : Literal} (hv : AllFree v.texts)
    (h : ctx.primitive p t v = .ok init) : Balanced init.text := by
  unfold primitive at h
  split at h
  · cases h
  · cases h
  next b =>
    cases h
    cases b <;> decide
  next s =>
    cases h
    exact (allFree_cons.mp hv).1.balanced
  · split at h
    · cases h
      exact (bracketFree_toString _).balanced
    · split at h
      · cases h
        exact (bracketFree_floatText _ _).balanced
      · cases h
  · split at h
    · cases h
    · split at h
      · cases h
        exact (bracketFree_floatText _ _).balanced
      · cases h
  · cases h

/-- What is known of the context in which the constants of a declaration are elaborated. -/
structure IsBracketFree (ctx : LiteralContext) (doc : Document) : Prop where
  settings : ctx.settings.IsBracketFree
  typename : ctx.typename = Native.typename ctx.settings
  registry : Registry.build doc = .ok ctx.registry
  qualifier : Balanced ctx.scope.qualifier

theorem IsBracketFree.balanced_plain (hctx : ctx.IsBracketFree doc) {v : Literal} {t : TypeExpr}
    (hv : AllFree v.texts) (ht : AllFree t.idents) (h : ctx.plain v t = .ok init) :
    Balanced init.text := by
  unfold plain at h
  split at h
  next => exact balanced_primitive hv h
  next => cases h
  next ref hhead =>
    split at h
    next option hkind =>
      obtain ⟨d, hd, hname, e, ordinal, hbody, hordinal, rfl⟩ := enumerator_eq_ok hctx.registry h
      have hoption := (hctx.settings.nativeEnumOption (allFree_cons.mp hv).1).balanced
      have hident := TypeExpr.allFree_idents_head ht
      rw [hhead] at hident
      have henum := (hctx.settings.nativeQualified (allFree_cons.mp hident).1).balanced
      exact (henum.append (by decide)).append hoption
    next => cases h
    next => cases h
  all_goals cases h

/-- An argument of a constructor stands for a field, and is what the value of the field is
elaborated to. -/
theorem exists_field_of_mem_arguments {record : String} {fields : List Field}
    {entries : List (String × Literal)} {args : List (Initializer × String)}
    (h : ctx.arguments record fields (ctx.elaborateAll entries) = .ok args)
    {a : Initializer × String} (ha : a ∈ args) :
    ∃ f ∈ fields, ∃ v, NameMap.find? f.name entries = some v ∧
      a.2 = ctx.settings.nativeField f.name ∧ ctx.elaborate v f.type = .ok a.1 := by
  obtain ⟨hnames, hfound, hvalues⟩ := arguments_eq_ok h
  obtain ⟨i, hi⟩ := List.mem_iff_getElem?.mp ha
  have hname : (fields.map fun f => ctx.settings.nativeField f.name)[i]? = some a.2 := by
    rw [← hnames, List.getElem?_map, hi]
    rfl
  rw [List.getElem?_map, Option.map_eq_some_iff] at hname
  obtain ⟨f, hf, hname⟩ := hname
  obtain ⟨v, hv⟩ := hfound f (List.mem_of_getElem? hf)
  exact ⟨f, List.mem_of_getElem? hf, v, hv, hname.symm, hvalues i f v a hf hv hi⟩

/-- The fields of a record in the registry are fields of a declaration. -/
theorem IsBracketFree.allFree_field (hctx : ctx.IsBracketFree doc) (hdoc : AllFree doc.texts)
    {name : String} {b : Record} (hb : ctx.registry.record? name = some b) {f : Field}
    (hf : f ∈ b.fields) : AllFree f.texts := by
  obtain ⟨d, hd, -, hbody⟩ := (Registry.record?_eq_some_iff hctx.registry).mp hb
  have htexts := (Decl.allFree_texts.mp ((Document.allFree_texts.mp hdoc).2 d hd)).2.2
  rw [hbody] at htexts
  exact (Body.allFree_record.mp htexts).1 f hf

theorem IsBracketFree.balanced_elaborate (hctx : ctx.IsBracketFree doc) (hdoc : AllFree doc.texts)
    {v : Literal} {t : TypeExpr} (hv : AllFree v.texts) (ht : AllFree t.idents)
    (h : ctx.elaborate v t = .ok init) : Balanced init.text := by
  -- The type is any: the entries of a record are elaborated at the types of its fields.
  induction v using Literal.recordInduction generalizing t init with
  | other v hrec =>
      by_cases htarget : ∃ target, v = .constRef target
      · obtain ⟨target, rfl⟩ := htarget
        rw [elaborate] at h
        have hrenders : Renders ctx doc (.constRef target) t init := reference_renders h
        cases hrenders with
        | scalar _ hspelled => cases hspelled
        | constant =>
            have hname := (hctx.settings.nativeConst (allFree_cons.mp hv).1).balanced
            exact (hctx.qualifier.append (by decide)).append hname
      · rw [elaborate_of_not_record (fun target hvt => htarget ⟨target, hvt⟩) hrec] at h
        exact hctx.balanced_plain hv (TypeExpr.allFree_idents_core ht) h
  | record entries ih =>
      rcases elaborate_record with ⟨name, hhead, hvalue⟩ | ⟨-, hvalue⟩
      · rw [hvalue] at h
        cases hb : ctx.registry.record? name with
        | none =>
            rw [construct, hb] at h
            cases h
        | some b =>
            obtain ⟨args, hargs, rfl⟩ := construct_eq_ok hb h
            have htype : Balanced (ctx.typename t.core) := by
              rw [hctx.typename]
              exact Native.balanced_typename hctx.settings (TypeExpr.allFree_idents_core ht)
            refine Initializer.balanced_construct htype fun a ha => ?_
            obtain ⟨f, hf, v, hfind, hname, hvalue⟩ := exists_field_of_mem_arguments hargs ha
            have hfield := Field.allFree_texts.mp (hctx.allFree_field hdoc hb hf)
            have hentry := NameMap.mem_of_find? hfind
            have hv := (Literal.allFree_texts_record.mp hv (f.name, v) hentry).2
            rw [hname]
            exact ⟨ih (f.name, v) hentry hv hfield.2.2 hvalue, hctx.settings.nativeField hfield.1⟩
      · rw [hvalue] at h
        exact hctx.balanced_plain hv (TypeExpr.allFree_idents_core ht) h

end LiteralContext

end IdlBinder

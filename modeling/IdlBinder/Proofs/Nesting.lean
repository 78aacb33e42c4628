import IdlBinder.Proofs.BalancedSpelling
import IdlBinder.Proofs.OwnerFiles
import IdlBinder.Proofs.References

set_option autoImplicit false

/-!
# Generated files are properly nested

Each item of a file closes the brackets that it opens and goes back to the depth it started from,
if its parts are balanced; so does the file. In a run the parts are made of the texts of the
document and of the settings. If none of these has a bracket, every generated file is properly
nested, and the writer is back at the left margin at its end: `artifacts_nested`.
-/

namespace IdlBinder

open Brackets Traversal Code

/-! ## Items -/

namespace Cpp

variable {least : Nat}

theorem closed_templateLine {t : Option Template} (h : ∀ x ∈ t, AllFree x.params) :
    Closed least (templateLine t) := by
  cases t with
  | none => exact closed_nil
  | some t =>
      have hparams : Balanced (", ".intercalate (t.params.map ("typename " ++ ·))) := by
        refine balanced_intercalate ", " (by decide) fun p hp => ?_
        obtain ⟨name, hname, rfl⟩ := List.mem_map.mp hp
        exact Balanced.append (by decide) (h t rfl name hname).balanced
      exact closed_line (hparams.enclosed rfl rfl)

/-- A declared constant with balanced parts. -/
structure ConstDecl.IsBalanced (c : ConstDecl) : Prop where
  doc : AllFree c.doc
  type : Balanced c.type
  name : Balanced c.name

theorem ConstDecl.IsBalanced.closed_code {c : ConstDecl} (h : c.IsBalanced) :
    Closed least c.code := by
  have hhead : Balanced ("static " ++ c.type ++ " const ") := h.type.enclosed rfl rfl
  exact (closed_doc h.doc).cons (closed_line ((hhead.append h.name).append (by decide)))

/-- A defined constant with balanced parts. -/
structure ConstDef.IsBalanced (c : ConstDef) : Prop where
  template : ∀ t ∈ c.template, AllFree t.params
  type : Balanced c.type
  owner : Balanced c.owner
  name : Balanced c.name
  value : Balanced c.value.text

theorem ConstDef.IsBalanced.closed_code {c : ConstDef} (h : c.IsBalanced) :
    Closed least c.code := by
  have howner := (h.type.append (t := " const ") (by decide)).append h.owner
  have hname := (howner.append (t := "::") (by decide)).append h.name
  have hvalue := (hname.append (t := " = ") (by decide)).append h.value
  exact (closed_templateLine h.template).append (closed_line (hvalue.append (by decide)))

/-- An enum with balanced parts. -/
structure EnumClass.IsBalanced (d : EnumClass) : Prop where
  doc : AllFree d.doc
  name : Balanced d.name
  enumerators : ∀ o ∈ d.enumerators, AllFree o.doc ∧ Balanced o.name

theorem EnumClass.IsBalanced.closed_code {d : EnumClass} (h : d.IsBalanced) :
    Closed least d.code := by
  have hhead : Balanced ("enum class " ++ d.name ++ " : int32_t") := h.name.enclosed rfl rfl
  refine (closed_doc h.doc).cons (closed_typeBlock hhead (closed_flatMap fun o ho => ?_))
  obtain ⟨hdoc, hname⟩ := h.enumerators o ho
  exact (closed_doc hdoc).cons (closed_line (hname.append (by decide)))

/-- Parameters with balanced parts stand between parentheses of their own. -/
theorem balanced_paramList {params : List Param}
    (h : ∀ p ∈ params, Balanced p.type ∧ Balanced p.name) : Balanced (paramList params) := by
  have hjoined : Balanced (", ".intercalate (params.map Param.text)) := by
    refine balanced_intercalate ", " (by decide) fun text htext => ?_
    obtain ⟨p, hp, rfl⟩ := List.mem_map.mp htext
    exact ((h p hp).1.append (by decide)).append (h p hp).2
  exact hjoined.enclosed rfl rfl

theorem StructDef.closed_initLines {inits : List MemberInit}
    (h : ∀ i ∈ inits, Balanced i.member ∧ Balanced i.param) : Closed least (initLines inits) := by
  have hline : ∀ lead, Balanced lead → ∀ i ∈ inits, Closed least [initLine lead i] := by
    intro lead hlead i hi
    obtain ⟨hmember, hparam⟩ := h i hi
    have hhead := (hlead.append (t := " ") (by decide)).append hmember
    exact closed_line (hparam.enclosed (hhead.owed_append _ _) rfl)
  cases inits with
  | nil => exact closed_nil
  | cons i rest =>
      refine (hline ":" (by decide) i List.mem_cons_self).cons ?_
      rw [List.map_eq_flatMap]
      exact closed_flatMap fun j hj => hline "," (by decide) j (List.mem_cons_of_mem i hj)

/-- A struct with balanced parts. -/
structure StructDef.IsBalanced (d : StructDef) : Prop where
  doc : AllFree d.doc
  name : Balanced d.name
  consts : ∀ c ∈ d.consts, c.IsBalanced
  members : ∀ m ∈ d.members, AllFree m.doc ∧ Balanced m.type ∧ Balanced m.name
  ctorParams : ∀ p ∈ d.ctorParams, Balanced p.type ∧ Balanced p.name
  ctorInits : ∀ i ∈ d.ctorInits, Balanced i.member ∧ Balanced i.param

theorem balanced_structHead {name : String} (h : Balanced name) (isBase : Bool) :
    Balanced ("struct " ++ name ++ if isBase then "" else " final") := by
  cases isBase <;> exact h.enclosed rfl rfl

/-- The line of a destructor. -/
theorem closed_destructor {name : String} (h : Balanced name) :
    Closed least [.line ("virtual ~" ++ name ++ "() = default;")] :=
  closed_line (h.enclosed rfl rfl)

theorem StructDef.IsBalanced.closed_sections {d : StructDef} (h : d.IsBalanced) :
    ∀ code ∈ d.sections, Closed least code := by
  have hmembers : Closed least
      (d.members.flatMap fun m => [.doc m.doc, .line (m.type ++ " " ++ m.name ++ ";")]) := by
    refine closed_flatMap fun m hm => ?_
    obtain ⟨hdoc, htype, hname⟩ := h.members m hm
    exact (closed_doc hdoc).cons
      (closed_line (((htype.append (by decide)).append hname).append (by decide)))
  have hctor : Closed least d.ctorCode := by
    refine (closed_line (h.name.append (balanced_paramList h.ctorParams))).cons ?_
    exact (closed_initLines h.ctorInits).append (closed_line (by decide))
  simp only [sections, List.forall_mem_cons]
  refine ⟨closed_flatMap fun c hc => (h.consts c hc).closed_code, hmembers, ?_, ?_, nofun⟩
  · split
    · exact closed_nil
    · exact hctor
  · split
    · exact closed_destructor h.name
    · exact closed_nil

theorem StructDef.IsBalanced.closed_code {d : StructDef} (h : d.IsBalanced) :
    Closed least d.code := by
  have hhead := balanced_structHead h.name d.isBase
  refine (closed_doc h.doc).cons (closed_typeBlock hhead (closed_separated fun code hcode => ?_))
  exact h.closed_sections code (List.mem_filter.mp hcode).1

/-- A class with balanced parts. -/
structure ClassDef.IsBalanced (d : ClassDef) : Prop where
  doc : AllFree d.doc
  template : ∀ t ∈ d.template, AllFree t.params
  name : Balanced d.name
  consts : ∀ c ∈ d.consts, c.IsBalanced
  methods : ∀ m ∈ d.methods, AllFree m.doc ∧ Balanced m.text

/-- The access specifier stands one level less deep, so there has to be one to leave. -/
theorem closed_public : Closed 1 [.dedent, .line "public:", .indent] := by
  intro p hp
  simp only [writeAll, write]
  constructor
  · simp only [Page.level_indent, Page.level_line, Page.level_dedent]
    omega
  · rw [Page.owed_indent, Page.owed_line_of_balanced _ (by decide), Page.owed_dedent]

theorem ClassDef.IsBalanced.closed_code {d : ClassDef} (h : d.IsBalanced) :
    Closed least d.code := by
  have hsections : ∀ code ∈ d.sections, Closed 1 code := by
    rw [sections, List.forall_mem_cons, List.forall_mem_append]
    refine ⟨closed_destructor h.name, fun code hcode => ?_, fun code hcode => ?_⟩
    · split at hcode
      · cases hcode
      · obtain rfl := List.mem_singleton.mp hcode
        exact closed_flatMap fun c hc => (h.consts c hc).closed_code
    · obtain ⟨m, hm, rfl⟩ := List.mem_map.mp hcode
      exact (closed_doc (h.methods m hm).1).cons (closed_line (h.methods m hm).2)
  have hhead : Balanced ("class " ++ d.name) := Balanced.append (by decide) h.name
  have hbody := closed_public.append (closed_separated hsections)
  exact (closed_doc h.doc).cons
    ((closed_templateLine h.template).append (closed_typeBlock hhead hbody))

/-- A bridge with balanced parts. -/
structure BridgeDecl.IsBalanced (d : BridgeDecl) : Prop where
  name : Balanced d.name
  native : Balanced d.native
  component : Balanced d.component

theorem BridgeDecl.IsBalanced.closed_code {d : BridgeDecl} (h : d.IsBalanced) :
    Closed least d.code := by
  refine closed_typeBlock (balanced_structHead h.name d.isBase) ?_
  refine (closed_line (h.native.enclosed rfl rfl)).cons ?_
  refine (closed_line (h.component.enclosed rfl rfl)).cons ?_
  refine closed_blank.cons ?_
  refine (closed_line (by decide)).cons ?_
  exact closed_line (by decide)

theorem balanced_bridgeHead {bridge : String} (h : Balanced bridge) {result function param : String}
    (hresult : Balanced result) (hfunction : Balanced function) (hparam : Balanced param) :
    Balanced (bridgeHead bridge result function param) := by
  apply balanced_of_owed
  simp [bridgeHead, bridgeParam, h.owed_eq, hresult.owed_eq, hfunction.owed_eq, hparam.owed_eq,
    owed_cons, step, closing?, isClosing]

/-- Lines of which the last one has an end of its own close what this end closes. -/
theorem level_owed_terminated {between : String} (hbetween : Balanced between) (last : String)
    {args : List String} (hargs : ∀ a ∈ args, Balanced a) (hne : args ≠ []) (p : Page) :
    (writeAll ((terminated between last args).map .line) p).level = p.level ∧
      (writeAll ((terminated between last args).map .line) p).owed =
        p.owed.bind (Brackets.owed last.toList) := by
  induction args using terminated.induct generalizing p with
  | case1 => exact absurd rfl hne
  | case2 l =>
      have hl : Brackets.owed (l ++ last).toList = Brackets.owed last.toList :=
        funext ((hargs l List.mem_cons_self).owed_append last)
      exact ⟨p.level_line _, by rw [← hl]; exact p.owed_line _⟩
  | case3 l m rest ih =>
      have hall := List.forall_mem_cons.mp hargs
      obtain ⟨hlevel, howed⟩ := ih hall.2 (by simp) (p.line (l ++ between))
      rw [Page.level_line] at hlevel
      rw [Page.owed_line_of_balanced p (hall.1.append hbetween)] at howed
      exact ⟨hlevel, howed⟩

/-- The function that makes a native value, with balanced parts. -/
structure ToNativeDef.IsBalanced (d : ToNativeDef) : Prop where
  bridge : Balanced d.bridge
  args : ∀ a ∈ d.args, Balanced a

/-- The parenthesis after the name of the type is closed after the last argument. -/
theorem closed_return {args : List String} (hargs : ∀ a ∈ args, Balanced a) (hne : args ≠ []) :
    Closed least (.line ("return " ++ nativeAlias ++ "(") :: .indent ::
      ((terminated "," ");" args).map Code.line ++ [.dedent])) := by
  intro p _
  have hcomma : Balanced "," := by decide
  obtain ⟨hlevel, howed⟩ :=
    level_owed_terminated hcomma ");" hargs hne (p.line ("return " ++ nativeAlias ++ "(")).indent
  simp only [writeAll, write, writeAll_append]
  constructor
  · simp [hlevel]
  · rw [Page.owed_dedent, howed, Page.owed_indent, Page.owed_line]
    cases p.owed <;> rfl

theorem ToNativeDef.IsBalanced.closed_code {d : ToNativeDef} (h : d.IsBalanced) :
    Closed least d.code := by
  have hhead : Balanced (bridgeHead d.bridge nativeAlias "ToNative" componentAlias) :=
    balanced_bridgeHead h.bridge (by decide) (by decide) (by decide)
  refine closed_block hhead ((closed_line (by decide)).cons ?_)
  split
  · exact (closed_line (by decide)).cons (closed_line (by decide))
  next hargs => exact closed_return h.args fun hnil => hargs (List.isEmpty_iff.mpr hnil)

/-- The function that makes a component instance, with balanced parts. -/
structure ToComponentDef.IsBalanced (d : ToComponentDef) : Prop where
  bridge : Balanced d.bridge
  chain : ∀ l ∈ d.chain, Balanced l

theorem balanced_of_mem_terminated {between last : String} (hbetween : Balanced between)
    (hlast : Balanced last) {lines : List String} (h : ∀ l ∈ lines, Balanced l) :
    ∀ l ∈ terminated between last lines, Balanced l := by
  induction lines using terminated.induct with
  | case1 => exact fun _ => nofun
  | case2 l =>
      rw [terminated, List.forall_mem_singleton]
      exact (h l List.mem_cons_self).append hlast
  | case3 l m rest ih =>
      have hall := List.forall_mem_cons.mp h
      rw [terminated, List.forall_mem_cons]
      exact ⟨hall.1.append hbetween, ih hall.2⟩

theorem closed_chainCode {chain : List String} (h : ∀ l ∈ chain, Balanced l) :
    Closed least (chainCode chain) := by
  have hlines : ∀ l ∈ terminated "" ";" chain, Balanced l :=
    balanced_of_mem_terminated (by decide) (by decide) h
  unfold chainCode
  split
  · exact closed_nil
  next l rest hterminated =>
    rw [hterminated, List.forall_mem_cons] at hlines
    have hreturn : Balanced ("return " ++ l) := Balanced.append (by decide) hlines.1
    exact (closed_line hreturn).cons (closed_indented (closed_map_line hlines.2))

theorem ToComponentDef.IsBalanced.closed_code {d : ToComponentDef} (h : d.IsBalanced) :
    Closed least d.code := by
  have hhead : Balanced (bridgeHead d.bridge componentAlias "ToComponent" nativeAlias) :=
    balanced_bridgeHead h.bridge (by decide) (by decide) (by decide)
  refine closed_block hhead (Closed.append ?_ (closed_chainCode h.chain))
  split
  · exact closed_nil
  · exact closed_line (by decide)

/-- An item with balanced parts. -/
def Item.IsBalanced : Item → Prop
  | enumClass d => d.IsBalanced
  | struct d => d.IsBalanced
  | abstractClass d => d.IsBalanced
  | const d => d.IsBalanced
  | bridge d => d.IsBalanced
  | toNative d => d.IsBalanced
  | toComponent d => d.IsBalanced

theorem Item.IsBalanced.closed_code {i : Item} (h : i.IsBalanced) : Closed least i.code := by
  cases i with
  | enumClass d => exact EnumClass.IsBalanced.closed_code h
  | struct d => exact StructDef.IsBalanced.closed_code h
  | abstractClass d => exact ClassDef.IsBalanced.closed_code h
  | const d => exact ConstDef.IsBalanced.closed_code h
  | bridge d => exact BridgeDecl.IsBalanced.closed_code h
  | toNative d => exact ToNativeDef.IsBalanced.closed_code h
  | toComponent d => exact ToComponentDef.IsBalanced.closed_code h

/-! ## Files -/

/-- A file with balanced parts. -/
structure SourceFile.IsBalanced (f : SourceFile) : Prop where
  origin : Balanced f.origin
  allIncludes : ∀ target ∈ f.allIncludes, Balanced target
  scope : Balanced f.scope
  forwards : ∀ declaration ∈ f.forwards, Balanced declaration
  items : ∀ i ∈ f.items, i.IsBalanced
  hashed : ∀ type ∈ f.hashed, Balanced type

namespace SourceFile.IsBalanced

variable {f : SourceFile}

theorem closed_preamble (h : f.IsBalanced) : Closed least f.preamble := by
  have horigin : Balanced ("// This file was generated by bridgegen from " ++ f.origin) :=
    Balanced.append (by decide) h.origin
  refine Closed.append ((closed_line (by decide)).cons ((closed_line horigin).cons closed_blank)) ?_
  split
  · exact closed_line (by decide)
  next target hown =>
    refine closed_includes fun t ht => h.allIncludes t ?_
    rw [SourceFile.allIncludes, hown]
    exact List.mem_append_left _ ht

theorem closed_includeCode (h : f.IsBalanced) : Closed least f.includeCode := by
  rw [includeCode]
  split
  · exact closed_nil
  · refine Closed.cons (closed_includes fun t ht => h.allIncludes t ?_) closed_blank
    exact List.mem_append_right _ ht

theorem closed_itemCode (h : f.IsBalanced) : Closed least f.itemCode := by
  have hforwards : Closed least f.forwardCode := by
    rw [forwardCode]
    split
    · exact closed_nil
    · exact (closed_map_line h.forwards).append closed_blank
  rw [itemCode]
  split
  · exact closed_nil
  · refine closed_inNamespace h.scope (hforwards.append (closed_separated fun code hcode => ?_))
    obtain ⟨i, hi, rfl⟩ := List.mem_map.mp hcode
    exact (h.items i hi).closed_code

theorem closed_hashCode (h : f.IsBalanced) : Closed least f.hashCode := by
  unfold hashCode
  split
  · exact closed_nil
  next type htype =>
    have hbalanced := h.hashed type htype
    refine closed_blank.cons (closed_inNamespace (by decide) ((closed_line (by decide)).cons ?_))
    refine closed_typeBlock (hbalanced.enclosed rfl rfl) ?_
    exact closed_block (hbalanced.enclosed rfl rfl) (closed_line (by decide))

/-- The layout of a file with balanced parts is closed from the left margin on. -/
theorem closed_code (h : f.IsBalanced) : Closed 0 f.code := by
  have hbody : Closed 0 f.body :=
    (h.closed_includeCode.append h.closed_itemCode).append h.closed_hashCode
  refine h.closed_preamble.append ?_
  split
  · exact closed_nil
  · exact closed_blank.cons hbody

end SourceFile.IsBalanced

end Cpp

/-! ## Emission -/

/-- References with balanced texts. -/
def References.IsBalanced (r : References) : Prop := ∀ x ∈ r, Balanced x.text

namespace References.IsBalanced

variable {r : References}

theorem includes (h : r.IsBalanced) : ∀ target ∈ r.includes.toList, Balanced target :=
  fun target htarget => h (.inclusion target) htarget

theorem forwards (h : r.IsBalanced) : ∀ declaration ∈ r.forwards.toList, Balanced declaration :=
  fun declaration hdeclaration => h (.forward declaration) hdeclaration

theorem addInclude (h : r.IsBalanced) {target : String} (htarget : Balanced target) :
    (r.addInclude target).IsBalanced := by
  intro x hx
  rcases mem_addInclude.mp hx with rfl | hx
  · exact htarget
  · exact h x hx

theorem merge (h : r.IsBalanced) {t : References} (ht : t.IsBalanced) :
    (r.merge t).IsBalanced := by
  intro x hx
  rcases mem_merge.mp hx with hx | hx
  · exact h x hx
  · exact ht x hx

end References.IsBalanced

theorem References.isBalanced_empty : empty.IsBalanced :=
  fun x hx => absurd hx (notMem_empty x)

/-- References are balanced if the needs of all nodes are. -/
theorem References.isBalanced_collectAll {needs : NeedsOf} {role : FileRole} {owner : Option String}
    {types : List TypeExpr}
    (h : ∀ n : TypeExpr, AllFree n.head.idents → ∀ x ∈ needs n role owner, Balanced x.text)
    (htypes : ∀ t ∈ types, AllFree t.idents) : (collectAll needs role owner types).IsBalanced := by
  intro x hx
  obtain ⟨-, t, ht, n, hn, hneed⟩ := mem_collectAll.mp hx
  exact h n (allFree_flatMap.mp (htypes t ht) n hn) x hneed

/-- An expression so far, with balanced parts. -/
def Builder.IsBalanced : Builder → Prop
  | .empty type => Balanced type
  | .chain head steps => Balanced head ∧ ∀ l ∈ steps, Balanced l

theorem Builder.IsBalanced.withField {s : Settings} {b : Builder} (h : b.IsBalanced)
    (hs : s.IsBracketFree) {f : Field} (hf : BracketFree f.name) {value : String}
    (hvalue : Balanced value) : (Component.withField s b f value).IsBalanced := by
  have hname := (hs.componentField hf).balanced
  cases b with
  | empty type =>
      have hcall := (Balanced.append h (t := "::CreateWith") (by decide)).append hname
      exact ⟨hvalue.enclosed (hcall.owed_append _ _) rfl, fun _ => nofun⟩
  | chain head steps =>
      have hcall : Balanced (".With" ++ s.componentField f.name) :=
        Balanced.append (by decide) hname
      refine ⟨h.1, List.forall_mem_append.mpr ⟨h.2, List.forall_mem_singleton.mpr ?_⟩⟩
      exact hvalue.enclosed (hcall.owed_append _ _) rfl

theorem Builder.IsBalanced.finish {b : Builder} (h : b.IsBalanced) :
    ∀ l ∈ Component.finish b, Balanced l := by
  cases b with
  | empty type => exact List.forall_mem_singleton.mpr (Balanced.append h (by decide))
  | chain head steps => exact List.forall_mem_cons.mpr h

/-- An emitter of the standard marshals that brings no brackets into files. -/
structure Emitter.IsBracketFree (e : Emitter) (doc : Document) : Prop where
  settings : e.settings.IsBracketFree
  native : e.native = Native.marshal e.settings
  component : e.component = Component.marshal e.settings
  registry : Registry.build doc = .ok e.registry
  origin : BracketFree e.origin

namespace Emitter

variable {e : Emitter} {doc : Document} {d : Decl}

theorem IsBracketFree.balanced_typename (he : e.IsBracketFree doc) {t : TypeExpr}
    (h : AllFree t.idents) : Balanced (e.native.typename t) := by
  rw [he.native]
  exact Native.balanced_typename he.settings h

theorem IsBracketFree.constDecl (he : e.IsBracketFree doc) {c : Const} (h : AllFree c.texts) :
    (e.constDecl c).IsBalanced := by
  obtain ⟨hname, hdoc, htype, -⟩ := Const.allFree_texts.mp h
  exact ⟨hdoc, he.balanced_typename htype, (he.settings.nativeConst hname).balanced⟩

theorem IsBracketFree.enumClass (he : e.IsBracketFree doc) {enum : Enum}
    (h : AllFree d.texts) (hbody : d.body = .enum enum) : (e.enumClass d enum).IsBalanced := by
  obtain ⟨hname, hdoc, htexts⟩ := Decl.allFree_texts.mp h
  rw [hbody, Body.texts, allFree_flatMap] at htexts
  refine ⟨hdoc, (he.settings.nativeType hname).balanced, fun o ho => ?_⟩
  obtain ⟨option, hoption, rfl⟩ := List.mem_map.mp ho
  obtain ⟨honame, hodoc⟩ := allFree_cons.mp (htexts option hoption)
  exact ⟨hodoc, (he.settings.nativeEnumOption honame).balanced⟩

theorem IsBracketFree.structDef (he : e.IsBracketFree doc) {r : Record}
    (h : AllFree d.texts) (hbody : d.body = .record r) : (e.structDef d r).IsBalanced := by
  obtain ⟨hname, hdoc, htexts⟩ := Decl.allFree_texts.mp h
  rw [hbody, Body.allFree_record] at htexts
  obtain ⟨hfields, hconsts⟩ := htexts
  have hparam : ∀ f ∈ r.fields, Balanced (e.ctorParam f) := by
    intro f hf
    have hfname := (Field.allFree_texts.mp (hfields f hf)).1
    exact (he.settings.nativeLocal hfname).balanced.append (by decide)
  have htype : ∀ f ∈ r.fields, Balanced (e.native.typename f.type) :=
    fun f hf => he.balanced_typename (Field.allFree_texts.mp (hfields f hf)).2.2
  have hfield : ∀ f ∈ r.fields, Balanced (e.settings.nativeField f.name) :=
    fun f hf => (he.settings.nativeField (Field.allFree_texts.mp (hfields f hf)).1).balanced
  have hfdoc : ∀ f ∈ r.fields, AllFree f.doc :=
    fun f hf => (Field.allFree_texts.mp (hfields f hf)).2.1
  exact {
    doc := hdoc
    name := (he.settings.structName hname r.ext).balanced
    consts := List.forall_mem_map.mpr fun c hc => he.constDecl (hconsts c hc)
    members := List.forall_mem_map.mpr fun f hf => ⟨hfdoc f hf, htype f hf, hfield f hf⟩
    ctorParams := List.forall_mem_map.mpr fun f hf => ⟨htype f hf, hparam f hf⟩
    ctorInits := List.forall_mem_map.mpr fun f hf => ⟨hfield f hf, hparam f hf⟩ }

theorem IsBracketFree.paramNames (he : e.IsBracketFree doc) (h : AllFree d.texts) :
    AllFree (e.settings.paramNames d) :=
  List.forall_mem_map.mpr fun n hn =>
    he.settings.nativeTypeParam (Decl.allFree_typeParams h n hn)

theorem IsBracketFree.templateOf (he : e.IsBracketFree doc) (h : AllFree d.texts) :
    ∀ t ∈ e.templateOf d, AllFree t.params := by
  intro t ht
  rw [Emitter.templateOf] at ht
  split at ht
  · cases ht
  · cases ht
    exact he.paramNames h

theorem IsBracketFree.methodDecl (he : e.IsBracketFree doc) {m : Method} (h : AllFree m.texts) :
    AllFree (e.methodDecl m).doc ∧ Balanced (e.methodDecl m).text := by
  obtain ⟨hname, hdoc, hparams, hresult⟩ := Method.allFree_texts.mp h
  have hreturn : Balanced (e.methodDecl m).result := by
    show Balanced (e.native.returnType m.result)
    rw [he.native]
    cases hm : m.result with
    | none => exact (by decide : Balanced "void")
    | some t => exact Native.balanced_typename he.settings (hresult t hm)
  have hlist : Balanced (Cpp.paramList (e.methodDecl m).params) := by
    refine Cpp.balanced_paramList (List.forall_mem_map.mpr fun p hp => ?_)
    obtain ⟨hpname, -, hptype⟩ := Field.allFree_texts.mp (hparams p hp)
    rw [he.native]
    exact ⟨Native.balanced_paramType he.settings hptype, (he.settings.nativeLocal hpname).balanced⟩
  have hsignature := ((hreturn.append (t := " ") (by decide)).append
    (he.settings.nativeMethod hname).balanced).append hlist
  refine ⟨hdoc, ?_⟩
  unfold Cpp.MethodDecl.text
  split <;> exact hsignature.enclosed rfl rfl

theorem IsBracketFree.classDef (he : e.IsBracketFree doc) {i : Interface}
    (h : AllFree d.texts) (hbody : d.body = .interface i) : (e.classDef d i).IsBalanced := by
  obtain ⟨hname, hdoc, htexts⟩ := Decl.allFree_texts.mp h
  rw [hbody, Body.allFree_interface] at htexts
  obtain ⟨-, hmethods, hconsts⟩ := htexts
  exact {
    doc := hdoc
    template := by
      rw [Emitter.classDef, template_eq hbody]
      exact he.templateOf h
    name := (he.settings.nativeType hname).balanced
    consts := List.forall_mem_map.mpr fun c hc => he.constDecl (hconsts c hc)
    methods := List.forall_mem_map.mpr fun m hm => he.methodDecl (hmethods m hm) }

theorem IsBracketFree.bridgeDecl (he : e.IsBracketFree doc) (h : AllFree d.texts) (r : Record) :
    (e.bridgeDecl d r).IsBalanced := by
  have hname := (Decl.allFree_texts.mp h).1
  exact {
    name := (he.settings.bridgeName hname r.ext).balanced
    native := (he.settings.nativeQualified hname).balanced
    component := (he.settings.componentQualified hname).balanced }

theorem IsBracketFree.toNativeDef (he : e.IsBracketFree doc) {r : Record}
    (h : AllFree d.texts) (hbody : d.body = .record r) : (e.toNativeDef d r).IsBalanced := by
  obtain ⟨hname, -, htexts⟩ := Decl.allFree_texts.mp h
  rw [hbody, Body.allFree_record] at htexts
  refine ⟨(he.settings.bridgeName hname r.ext).balanced, List.forall_mem_map.mpr fun f hf => ?_⟩
  obtain ⟨hfname, -, hftype⟩ := Field.allFree_texts.mp (htexts.1 f hf)
  have hfield := (he.settings.componentField hfname).balanced
  rw [nativeArg, he.component]
  refine Component.balanced_convert he.settings (by decide) hftype ?_
  exact hfield.enclosed rfl rfl

theorem IsBracketFree.toComponentDef (he : e.IsBracketFree doc) {r : Record}
    (h : AllFree d.texts) (hbody : d.body = .record r) : (e.toComponentDef d r).IsBalanced := by
  obtain ⟨hname, -, htexts⟩ := Decl.allFree_texts.mp h
  rw [hbody, Body.allFree_record] at htexts
  refine ⟨(he.settings.bridgeName hname r.ext).balanced, ?_⟩
  have hbuilder : (e.componentBuilder r).IsBalanced := by
    have hempty : (Builder.empty Cpp.componentAlias).IsBalanced :=
      (by decide : Balanced Cpp.componentAlias)
    refine List.foldlRecOn r.fields _ hempty fun b hb f hf => ?_
    obtain ⟨hfname, -, hftype⟩ := Field.allFree_texts.mp (htexts.1 f hf)
    have hexpr : Balanced (Cpp.bridgeParam ++ "." ++ e.settings.nativeField f.name) :=
      Balanced.append (by decide) (he.settings.nativeField hfname).balanced
    rw [componentArg, he.component]
    exact hb.withField he.settings hfname
      (Component.balanced_convert he.settings (by decide) hftype hexpr)
  show ∀ l ∈ e.component.finish (e.componentBuilder r), Balanced l
  rw [he.component]
  exact hbuilder.finish

/-! ### Constants -/

theorem IsBracketFree.qualifier (he : e.IsBracketFree doc) (h : AllFree d.texts) :
    Balanced (e.settings.qualifier d) := by
  have hident := (Decl.allFree_texts.mp h).1
  have hname : Balanced (e.settings.bodyName d) := by
    unfold Settings.bodyName
    split
    · exact (he.settings.structName hident _).balanced
    · exact (he.settings.nativeType hident).balanced
    · exact (he.settings.nativeType hident).balanced
  have hjoined : Balanced (", ".intercalate (e.settings.paramNames d)) :=
    balanced_intercalate ", " (by decide) fun n hn => (he.paramNames h n hn).balanced
  rw [Settings.qualifier]
  split
  · exact hname
  · exact hjoined.enclosed (hname.owed_append _ _) rfl

/-- A definition of a constant has the type and the name of the constant, and the value that the
literal is elaborated to. -/
theorem exists_const_of_mem_constDefs {scope : ConstScope} {template : Option Cpp.Template}
    {defs : List Cpp.ConstDef} (h : e.constDefs scope template = .ok defs)
    {definition : Cpp.ConstDef} (hdefinition : definition ∈ defs) :
    ∃ c ∈ scope.consts, ∃ i value,
      (e.literalContext scope i c.name).elaborate c.value c.type = .ok value ∧
      definition = {
        template := template
        type := e.native.typename c.type
        owner := scope.qualifier
        name := e.settings.nativeConst c.name
        value := value } := by
  obtain ⟨hlength, hdefs⟩ := getElem?_of_constDefs h
  obtain ⟨i, hi⟩ := List.mem_iff_getElem?.mp hdefinition
  have hlt := (List.getElem?_eq_some_iff.mp hi).1
  rw [hlength] at hlt
  obtain ⟨value, hvalue, hat⟩ := hdefs i _ (List.getElem?_eq_getElem hlt)
  exact ⟨_, List.getElem_mem hlt, i, value, hvalue, Option.some.inj (hi.symm.trans hat)⟩

theorem IsBracketFree.constDefs (he : e.IsBracketFree doc) (hdoc : AllFree doc.texts)
    (hd : d ∈ doc.decls) {defs : List Cpp.ConstDef}
    (h : e.constDefs (e.scopeOf d) (e.templateOf d) = .ok defs) : ∀ c ∈ defs, c.IsBalanced := by
  intro definition hdefinition
  obtain ⟨c, hc, i, value, hvalue, rfl⟩ := exists_const_of_mem_constDefs h hdefinition
  have hdecl := (Document.allFree_texts.mp hdoc).2 d hd
  obtain ⟨hname, -, htype, hliteral⟩ := Const.allFree_texts.mp (Decl.allFree_consts hdecl c hc)
  have hctx : (e.literalContext (e.scopeOf d) i c.name).IsBracketFree doc := by
    refine ⟨he.settings, ?_, he.registry, he.qualifier hdecl⟩
    rw [literalContext, he.native]
    rfl
  exact {
    template := he.templateOf hdecl
    type := he.balanced_typename htype
    owner := he.qualifier hdecl
    name := (he.settings.nativeConst hname).balanced
    value := hctx.balanced_elaborate hdoc hliteral htype hvalue }

theorem mem_of_const_mem_bodyFile {defs : List Cpp.ConstDef} {c : Cpp.ConstDef}
    (h : Cpp.Item.const c ∈ (e.bodyFile d defs).items) : c ∈ defs := by
  unfold bodyFile at h
  split at h
  · cases List.mem_singleton.mp h
  · cases List.mem_singleton.mp h
  · rcases List.mem_cons.mp h with h | h
    · cases h
    · obtain ⟨c', hc', heq⟩ := List.mem_map.mp h
      cases heq
      exact hc'

theorem const_notMem_bridgeFiles {f : Cpp.SourceFile} (hf : f ∈ e.bridgeFiles d)
    (c : Cpp.ConstDef) : Cpp.Item.const c ∉ f.items := by
  intro hc
  unfold bridgeFiles at hf
  split at hf
  · simp only [List.mem_cons, List.not_mem_nil, or_false] at hf
    rcases hf with rfl | rfl
    · cases List.mem_singleton.mp hc
    · rcases List.mem_cons.mp hc with hc | hc
      · cases hc
      · cases List.mem_singleton.mp hc
  · cases hf
  · cases hf

/-- The constants that a file defines are those of its declaration. -/
theorem exists_constDefs_of_mem {fs : List Cpp.SourceFile} (h : e.declFiles d = .ok fs)
    {f : Cpp.SourceFile} (hf : f ∈ fs) {c : Cpp.ConstDef} (hc : Cpp.Item.const c ∈ f.items) :
    ∃ defs, e.constDefs (e.scopeOf d) (e.templateOf d) = .ok defs ∧ c ∈ defs := by
  by_cases hkind : d.kind = .enum
  · obtain ⟨enum, hbody⟩ := Decl.exists_enum hkind
    rw [declFiles, hbody] at h
    cases h
    obtain rfl := List.mem_singleton.mp hf
    cases List.mem_singleton.mp hc
  · obtain ⟨defs, hdefs, rfl⟩ := declFiles_of_owner h hkind
    refine ⟨defs, hdefs, ?_⟩
    -- Generic declarations define their constants in the first file, all others in the second.
    rcases List.mem_cons.mp hf with rfl | hf
    · have hmem := mem_of_const_mem_bodyFile hc
      split at hmem
      · cases hmem
      · exact hmem
    · rcases List.mem_append.mp hf with hf | hf
      · split at hf
        · cases hf
        · obtain rfl := List.mem_singleton.mp hf
          obtain ⟨c', hc', heq⟩ := List.mem_map.mp hc
          cases heq
          split at hc'
          · exact hc'
          · cases hc'
      · exact absurd hc (const_notMem_bridgeFiles hf c)

/-! ### Files -/

theorem IsBracketFree.header (he : e.IsBracketFree doc) {refs : References}
    (hrefs : refs.IsBalanced) {items : List Cpp.Item} (hitems : ∀ i ∈ items, i.IsBalanced)
    (stem : String) : (e.header stem refs items).IsBalanced where
  origin := he.origin.balanced
  allIncludes := hrefs.includes
  scope := (he.settings.texts e.settings.nativeNamespace (by simp [Settings.texts])).balanced
  forwards := hrefs.forwards
  items := hitems
  hashed := fun _ => nofun

theorem IsBracketFree.source (he : e.IsBracketFree doc) {stem : String} (hstem : BracketFree stem)
    {includes : List String} (hincludes : ∀ target ∈ includes, Balanced target)
    {items : List Cpp.Item} (hitems : ∀ i ∈ items, i.IsBalanced) :
    (e.source stem includes items).IsBalanced where
  origin := he.origin.balanced
  allIncludes := List.forall_mem_cons.mpr ⟨(he.settings.includeTarget hstem).balanced, hincludes⟩
  scope := (he.settings.texts e.settings.nativeNamespace (by simp [Settings.texts])).balanced
  forwards := fun _ => nofun
  items := hitems
  hashed := fun _ => nofun

theorem IsBracketFree.nativeReferences (he : e.IsBracketFree doc) (role : FileRole)
    (owner : Option String) {types : List TypeExpr} (h : ∀ t ∈ types, AllFree t.idents) :
    (References.collectAll e.native.needs role owner types).IsBalanced := by
  rw [he.native]
  exact References.isBalanced_collectAll
    (fun _ hn => Native.balanced_needs he.settings hn role owner) h

theorem IsBracketFree.componentReferences (he : e.IsBracketFree doc) (role : FileRole)
    (owner : Option String) {types : List TypeExpr} (h : ∀ t ∈ types, AllFree t.idents) :
    (References.collectAll e.component.needs role owner types).IsBalanced := by
  rw [he.component]
  exact References.isBalanced_collectAll
    (fun _ hn => Component.balanced_needs he.settings hn role owner) h

theorem IsBracketFree.enumHeader (he : e.IsBracketFree doc) (h : AllFree d.texts) {enum : Enum}
    (hbody : d.body = .enum enum) : (e.enumHeader d enum).IsBalanced := by
  have hrefs : e.enumReferences.IsBalanced := by
    have hint : (References.empty.addInclude "<cstdint>").IsBalanced :=
      References.isBalanced_empty.addInclude (by decide)
    unfold enumReferences
    split
    · exact hint.addInclude (by decide)
    · exact hint
  have hitems : ∀ i ∈ [Cpp.Item.enumClass (e.enumClass d enum)], i.IsBalanced :=
    List.forall_mem_singleton.mpr (he.enumClass h hbody)
  have hheader := he.header hrefs hitems (e.settings.fileStem d.name)
  refine { hheader with hashed := fun type htype => ?_ }
  simp only [Emitter.enumHeader] at htype
  split at htype
  · cases htype
    exact (he.settings.nativeQualified (Decl.allFree_texts.mp h).1).balanced
  · cases htype

/-- The types that a record uses. -/
theorem allFree_recordTypes {r : Record} (h : AllFree (Body.record r).texts) :
    ∀ t ∈ r.types, AllFree t.idents := by
  obtain ⟨hfields, hconsts⟩ := Body.allFree_record.mp h
  rw [Record.types, List.forall_mem_append]
  exact ⟨List.forall_mem_map.mpr fun f hf => (Field.allFree_texts.mp (hfields f hf)).2.2,
    List.forall_mem_map.mpr fun c hc => (Const.allFree_texts.mp (hconsts c hc)).2.2.1⟩

theorem allFree_interfaceTypes {i : Interface} (h : AllFree (Body.interface i).texts) :
    ∀ t ∈ i.types, AllFree t.idents := by
  obtain ⟨-, hmethods, hconsts⟩ := Body.allFree_interface.mp h
  rw [Interface.types, List.forall_mem_append, List.forall_mem_flatMap]
  refine ⟨fun m hm => ?_,
    List.forall_mem_map.mpr fun c hc => (Const.allFree_texts.mp (hconsts c hc)).2.2.1⟩
  obtain ⟨-, -, hparams, hresult⟩ := Method.allFree_texts.mp (hmethods m hm)
  rw [Method.types, List.forall_mem_append]
  exact ⟨List.forall_mem_map.mpr fun p hp => (Field.allFree_texts.mp (hparams p hp)).2.2,
    fun t ht => hresult t (Option.mem_toList.mp ht)⟩

/-- A file of a declaration has balanced parts if the constants that it defines have. -/
theorem IsBracketFree.of_emits (he : e.IsBracketFree doc) (h : AllFree d.texts) {f : Cpp.SourceFile}
    (hf : e.Emits d f) (hconsts : ∀ c, Cpp.Item.const c ∈ f.items → c.IsBalanced) :
    f.IsBalanced := by
  obtain ⟨hname, -, htexts⟩ := Decl.allFree_texts.mp h
  -- The sources of constants include only their own headers.
  have hnone : ∀ target ∈ ([] : List String), Balanced target := fun _ => nofun
  cases hf with
  | enumHeader hbody => exact he.enumHeader h hbody
  | classHeader consts hbody =>
      rw [hbody] at htexts
      have hrefs := he.nativeReferences .header (some d.name) (allFree_interfaceTypes htexts)
      refine he.header hrefs ?_ _
      refine List.forall_mem_cons.mpr ⟨he.classDef h hbody, List.forall_mem_map.mpr fun c hc => ?_⟩
      exact hconsts c (List.mem_cons_of_mem _ (List.mem_map_of_mem hc))
  | classSource consts hbody =>
      refine he.source (he.settings.fileStem hname) hnone (List.forall_mem_map.mpr fun c hc => ?_)
      exact hconsts c (List.mem_map_of_mem hc)
  | structHeader hbody =>
      rw [hbody] at htexts
      have hrefs := he.nativeReferences .header (some d.name) (allFree_recordTypes htexts)
      refine he.header ?_ ?_ _
      · unfold structReferences
        split
        · exact hrefs
        · exact hrefs.addInclude (by decide)
      · exact List.forall_mem_singleton.mpr (he.structDef h hbody)
  | structSource hbody hsource =>
      obtain ⟨consts, rfl⟩ := structSource_eq_ok hsource
      refine he.source (he.settings.recordFileStem hname _) hnone
        (List.forall_mem_map.mpr fun c hc => ?_)
      exact hconsts c (List.mem_map_of_mem hc)
  | bridgeHeader hbody =>
      have htarget := (he.settings.includeTarget (he.settings.fileStem hname)).balanced
      have hrefs := References.isBalanced_empty.addInclude htarget
      refine he.header (hrefs.addInclude he.settings.projectionHeader) ?_ _
      exact List.forall_mem_singleton.mpr (he.bridgeDecl h _)
  | @bridgeSource r hbody =>
      rw [hbody, Body.allFree_record] at htexts
      have htypes : ∀ t ∈ r.fields.map (·.type), AllFree t.idents :=
        List.forall_mem_map.mpr fun f hf => (Field.allFree_texts.mp (htexts.1 f hf)).2.2
      have hmerged := (he.nativeReferences .source (some d.name) htypes).merge
        (he.componentReferences .source (some d.name) htypes)
      have hrefs : (e.bridgeReferences d r).IsBalanced :=
        (hmerged.addInclude (by decide)).addInclude he.settings.supportTarget.balanced
      refine he.source (he.settings.bridgeFileStem hname _) hrefs.includes ?_
      refine List.forall_mem_cons.mpr ⟨he.toNativeDef h hbody, ?_⟩
      exact List.forall_mem_singleton.mpr (he.toComponentDef h hbody)

end Emitter

/-! ## Runs -/

/-- If neither the settings nor the document has a bracket in a text and the casing styles are
built-in ones, every generated file is properly nested, and the page that it is written on is back
at the left margin at its end. -/
theorem artifacts_nested {s : Settings} {doc : Document} {artifacts : List Artifact}
    (hstyles : ∀ c ∈ s.nativeStyles.casings ++ s.componentStyles.casings, c.isBuiltIn = true)
    (htexts : AllFree (s.texts ++ doc.texts))
    (h : (Generator.standard s).generate doc = .ok artifacts) :
    ∃ files, (Generator.standard s).files doc = .ok files ∧
      artifacts = files.map (·.file.artifact) ∧
      ∀ f ∈ files, f.file.artifact.contents = (writeAll f.file.code {}).text ∧
        Nested f.file.artifact.contents.toList ∧ (writeAll f.file.code {}).level = 0 := by
  obtain ⟨hsettings, hdoc⟩ := allFree_append.mp htexts
  obtain ⟨r, blocks, hrun, hfiles, rfl⟩ := Generator.exists_run h
  refine ⟨_, hfiles, rfl, fun f hf => ?_⟩
  have he : ((Generator.standard s).emitterOf doc r).IsBracketFree doc :=
    ⟨⟨hstyles, hsettings⟩, rfl, rfl, hrun.build, (Document.allFree_texts.mp hdoc).1⟩
  obtain ⟨d, hd, -, hfile⟩ := hrun.exists_owner hf
  have hfs := hrun.declFiles_filesOf hd
  have hbalanced : f.file.IsBalanced := by
    refine he.of_emits ((Document.allFree_texts.mp hdoc).2 d hd) (Emitter.emits_of_mem hfs hfile) ?_
    intro c hc
    obtain ⟨defs, hdefs, hmem⟩ := Emitter.exists_constDefs_of_mem hfs hfile hc
    exact he.constDefs hdoc hd hdefs c hmem
  obtain ⟨hlevel, howed⟩ := hbalanced.closed_code {} (Nat.le_refl 0)
  exact ⟨rfl, nested_iff_owed.mpr howed, hlevel⟩

namespace Sample

/-- A generic interface with a comment, a method and a constant. -/
def watch : Decl :=
  ⟨"watch", ["Tells of changes.", "Ends with */"], .interface {
    typeParams := ["item"]
    methods := [{
      name := "tell"
      params := [⟨"news", [], .node .map [.node (.param "item") [],
        .node .list [.node (.declared ⟨"line", .record⟩) []]]⟩]
      isConst := true }]
    consts := [⟨"limit", [], .node (.primitive .f32) [], .int 5⟩] }⟩

def sketch : Document := { origin := "sketch.idl", decls := [line, dot, color, watch] }

end Sample

open Sample in
theorem sketch_nested :
    AllFree (({} : Settings).texts ++ sketch.texts) ∧
      ∃ files, (Generator.standard {}).files sketch = .ok files ∧ files.length = 10 ∧
        ∀ f ∈ files, Nested f.file.artifact.contents.toList ∧
          (writeAll f.file.code {}).level = 0 := by
  have htexts : AllFree (({} : Settings).texts ++ sketch.texts) := by decide +kernel
  have hrun : ((Generator.standard {}).files sketch).toOption.map List.length = some 10 := by
    decide +kernel
  obtain ⟨files, hfiles, hlength⟩ := toOption_map_eq_some.mp hrun
  have hgenerate : (Generator.standard {}).generate sketch = .ok (files.map (·.file.artifact)) :=
    map_eq_ok.mpr ⟨files, hfiles, rfl⟩
  obtain ⟨files', hfiles', -, hnested⟩ := artifacts_nested (by decide) htexts hgenerate
  obtain rfl : files = files' := Except.ok.inj (hfiles.symm.trans hfiles')
  exact ⟨htexts, files, hfiles, hlength, fun f hf => (hnested f hf).2⟩

end IdlBinder

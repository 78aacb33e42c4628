import IdlBinder.Proofs.DocumentForms

set_option autoImplicit false

/-!
# Reading documents back

The full form of a document is one of its forms (`isDocument_encode`), and it has a text of its own
if no constant is a floating-point number (`isPlain_document`). So a document that is written and
read again comes back, and so does one whose form was changed on the way to another form of it
(`documents_read_back`).
-/

namespace IdlBinder

/-- No part of a literal is a floating-point number. -/
inductive Literal.HasNoFloat : Literal → Prop where
  | record {entries : List (String × Literal)} :
      (∀ p ∈ entries, HasNoFloat p.2) → HasNoFloat (.record entries)
  | other {v : Literal} : (∀ entries, v ≠ .record entries) → (∀ x, v ≠ .float x) → HasNoFloat v

namespace Form

open Json

/-! ## The full form is a form -/

theorem isObject_record {slots : List Slot} {l : List (String × Json)}
    (h : Kept slots (l.map fun m => (some m.1, m.2))) : IsObject slots (.record l) :=
  ⟨_, _, [], rfl, by simp, h, by simp⟩

theorem isArray_map {α : Type} {form : α → Json → Prop} {encode : α → Json} {l : List α}
    (h : ∀ a ∈ l, form a (encode a)) : IsArray form l (.array (l.map encode)) := by
  refine ⟨l.map fun a => (a, encode a), ?_, ?_, ?_⟩
  · simp [Function.comp_def]
  · simp [Function.comp_def]
  · rw [List.forall_mem_map]
    exact h

theorem isArray_texts (lines : List String) :
    IsArray (fun s j => j = .text s) lines (Encode.texts lines) :=
  isArray_map fun _ _ => rfl

theorem isHead_encode (h : TypeHead) : IsHead h (Encode.typeHead h) := by
  cases h with
  | declared d => exact ⟨_, rfl, isObject_record (.keep rfl (.keep rfl .nil))⟩
  | _ => rfl

theorem typeExprs_eq_map (ts : List TypeExpr) : Encode.typeExprs ts = ts.map Encode.typeExpr := by
  induction ts with
  | nil => rfl
  | cons t ts ih => rw [Encode.typeExprs, ih, List.map_cons]

theorem entries_eq_map (entries : List (String × Literal)) :
    Encode.entries entries = entries.map fun p => (some p.1, Encode.literal p.2) := by
  induction entries with
  | nil => rfl
  | cons p entries ih => rw [Encode.entries, ih, List.map_cons]

theorem isType_encode (t : TypeExpr) : IsType t (Encode.typeExpr t) := by
  induction t using TypeExpr.nodeInduction with
  | node h args ih =>
      have hargs : (args.map fun a => (a, Encode.typeExpr a)).map (·.1) = args := by
        simp [Function.comp_def]
      have hitems : (args.map fun a => (a, Encode.typeExpr a)).map (·.2) =
          args.map Encode.typeExpr := by
        simp
      have htype : IsType (.node h ((args.map fun a => (a, Encode.typeExpr a)).map (·.1)))
          (Encode.typeExpr (.node h args)) := by
        refine .node (List.forall_mem_map.mpr ih) ?_
        rw [Encode.typeExpr, typeExprs_eq_map, hitems]
        exact isObject_record (.keep (isHead_encode h) (.keep rfl .nil))
      rwa [hargs] at htype

theorem isLiteral_encode (v : Literal) : IsLiteral v (Encode.literal v) := by
  induction v using Literal.recordInduction with
  | record entries ih =>
      have hentries : (entries.map fun p => (p.1, p.2, Encode.literal p.2)).map
          (fun e => (e.1, e.2.1)) = entries := by
        simp [Function.comp_def]
      have hdata : record ((entries.map fun p => (p.1, p.2, Encode.literal p.2)).map
          fun e => (e.1, e.2.2)) = .object (Encode.entries entries) := by
        simp [record, entries_eq_map]
      have hliteral := IsLiteral.record (List.forall_mem_map.mpr ih)
        (List.Perm.refl (entries.map fun p => (p.1, p.2, Encode.literal p.2)))
      rwa [hentries, hdata] at hliteral
  | other v hother => exact .other hother

theorem isConst_encode (c : Const) : IsConst c (Encode.const c) :=
  isObject_record (.keep rfl (.keep (isArray_texts c.doc) (.keep (isType_encode c.type)
    (.keep (isLiteral_encode c.value) .nil))))

theorem isEnumOption_encode (o : EnumOption) : IsEnumOption o (Encode.enumOption o) :=
  isObject_record (.keep rfl (.keep (isArray_texts o.doc) .nil))

theorem isField_encode (f : Field) : IsField f (Encode.field f) :=
  isObject_record (.keep rfl (.keep (isArray_texts f.doc) (.keep (isType_encode f.type) .nil)))

theorem isExtension_encode (e : Extension) : IsExtension e (Encode.extension e) :=
  isObject_record (.keep rfl (.keep rfl .nil))

theorem isResult_encode (r : Option TypeExpr) : IsResult r (r.elim .null Encode.typeExpr) := by
  cases r with
  | none => rfl
  | some t => exact isType_encode t

theorem isMethod_encode (m : Method) : IsMethod m (Encode.method m) :=
  isObject_record (.keep rfl (.keep (isArray_texts m.doc)
    (.keep (isArray_map fun f _ => isField_encode f) (.keep (isResult_encode m.result)
      (.keep rfl (.keep rfl .nil))))))

theorem kept_bodyMembers (b : Body) :
    Kept (bodySlots b) ((Encode.bodyMembers b).map fun m => (some m.1, m.2)) := by
  cases b with
  | enum e => exact .keep (isArray_map fun o _ => isEnumOption_encode o) .nil
  | record r =>
      exact .keep (isArray_map fun f _ => isField_encode f)
        (.keep (isArray_map fun c _ => isConst_encode c) (.keep (isExtension_encode r.ext) .nil))
  | interface i =>
      exact .keep (isArray_texts i.typeParams) (.keep (isArray_map fun m _ => isMethod_encode m)
        (.keep (isArray_map fun c _ => isConst_encode c) .nil))

theorem isDecl_encode (d : Decl) : IsDecl d (Encode.decl d) :=
  isObject_record (.keep rfl (.keep (isArray_texts d.doc) (.keep rfl (kept_bodyMembers d.body))))

/-- The full form of a document is one of its forms. -/
theorem isDocument_encode (doc : Document) : IsDocument doc (Encode.document doc) :=
  isObject_record (.keep rfl (.keep (isArray_map fun d _ => isDecl_encode d) .nil))

/-! ## The full form has a text -/

theorem isPlain_record {l : List (String × Json)} (h : ∀ m ∈ l, m.2.IsPlain) :
    (record l).IsPlain := by
  refine .object ?_ ?_
  · rw [List.forall_mem_map]
    exact fun m _ => ⟨m.1, rfl⟩
  · rw [List.forall_mem_map]
    exact h

theorem isPlain_map {α : Type} {encode : α → Json} {l : List α}
    (h : ∀ a ∈ l, (encode a).IsPlain) : (Json.array (l.map encode)).IsPlain :=
  .array (List.forall_mem_map.mpr h)

theorem isPlain_texts (lines : List String) : (Encode.texts lines).IsPlain :=
  isPlain_map fun s _ => .text s

theorem isPlain_typeHead (h : TypeHead) : (Encode.typeHead h).IsPlain := by
  cases h with
  | primitive p => exact isPlain_record (by simpa [Encode.prim] using .text p.name)
  | declared d =>
      exact isPlain_record (by simpa using isPlain_record (by simp [IsPlain.text]))
  | param n => exact isPlain_record (by simpa using .text n)
  | _ => exact .text _

theorem isPlain_typeExpr (t : TypeExpr) : (Encode.typeExpr t).IsPlain := by
  induction t using TypeExpr.nodeInduction with
  | node h args ih =>
      rw [Encode.typeExpr, typeExprs_eq_map]
      exact isPlain_record (by simpa using ⟨isPlain_typeHead h, isPlain_map ih⟩)

theorem isPlain_literal {v : Literal} (h : v.HasNoFloat) : (Encode.literal v).IsPlain := by
  induction h with
  | @record entries _ ih =>
      have hdata : (Json.object (Encode.entries entries)).IsPlain := by
        rw [entries_eq_map]
        refine .object ?_ ?_
        · rw [List.forall_mem_map]
          exact fun p _ => ⟨p.1, rfl⟩
        · rw [List.forall_mem_map]
          exact ih
      exact isPlain_record (by simpa using hdata)
  | @other v hrecord hfloat =>
      cases v with
      | record entries => exact absurd rfl (hrecord entries)
      | float x => exact absurd rfl (hfloat x)
      | int i =>
          have hlow := i.le_toInt
          have hhigh : i.toInt < Nat.pow 2 64 := Int.lt_trans i.toInt_lt (by decide)
          exact isPlain_record (by simpa using .int hlow hhigh)
      | bool b => exact isPlain_record (by simpa using .bool b)
      | string s => exact isPlain_record (by simpa using .text s)
      | enumOption n => exact isPlain_record (by simpa using .text n)
      | constRef n => exact isPlain_record (by simpa using .text n)

theorem isPlain_const {c : Const} (h : c.value.HasNoFloat) : (Encode.const c).IsPlain := by
  refine isPlain_record ?_
  simp only [List.forall_mem_cons]
  exact ⟨.text c.name, isPlain_texts c.doc, isPlain_typeExpr c.type, isPlain_literal h, by simp⟩

theorem isPlain_enumOption (o : EnumOption) : (Encode.enumOption o).IsPlain := by
  refine isPlain_record ?_
  simp only [List.forall_mem_cons]
  exact ⟨.text o.name, isPlain_texts o.doc, by simp⟩

theorem isPlain_field (f : Field) : (Encode.field f).IsPlain := by
  refine isPlain_record ?_
  simp only [List.forall_mem_cons]
  exact ⟨.text f.name, isPlain_texts f.doc, isPlain_typeExpr f.type, by simp⟩

theorem isPlain_method (m : Method) : (Encode.method m).IsPlain := by
  have hresult : (m.result.elim .null Encode.typeExpr).IsPlain := by
    cases m.result with
    | none => exact .null
    | some t => exact isPlain_typeExpr t
  refine isPlain_record ?_
  simp only [List.forall_mem_cons]
  exact ⟨.text m.name, isPlain_texts m.doc, isPlain_map fun f _ => isPlain_field f, hresult,
    .bool m.isStatic, .bool m.isConst, by simp⟩

theorem isPlain_decl {d : Decl} (h : ∀ c ∈ d.consts, c.value.HasNoFloat) :
    (Encode.decl d).IsPlain := by
  have hbody : ∀ m ∈ Encode.bodyMembers d.body, m.2.IsPlain := by
    obtain ⟨name, doc, body⟩ := d
    cases body with
    | enum e =>
        simp only [Encode.bodyMembers, List.forall_mem_cons]
        exact ⟨isPlain_map fun o _ => isPlain_enumOption o, by simp⟩
    | record r =>
        have hext : (Encode.extension r.ext).IsPlain := by
          refine isPlain_record ?_
          simp only [List.forall_mem_cons]
          exact ⟨.bool r.ext.native, .bool r.ext.component, by simp⟩
        simp only [Encode.bodyMembers, List.forall_mem_cons]
        exact ⟨isPlain_map fun f _ => isPlain_field f,
          isPlain_map fun c hc => isPlain_const (h c hc), hext, by simp⟩
    | interface i =>
        simp only [Encode.bodyMembers, List.forall_mem_cons]
        exact ⟨isPlain_texts i.typeParams, isPlain_map fun m _ => isPlain_method m,
          isPlain_map fun c hc => isPlain_const (h c hc), by simp⟩
  refine isPlain_record ?_
  simp only [List.forall_mem_append, List.forall_mem_cons]
  exact ⟨⟨.text d.name, isPlain_texts d.doc, .text d.kind.name, by simp⟩, hbody⟩

/-- The full form of a document has a text if no constant is a floating-point number. -/
theorem isPlain_document {doc : Document}
    (h : ∀ d ∈ doc.decls, ∀ c ∈ d.consts, c.value.HasNoFloat) : (Encode.document doc).IsPlain := by
  refine isPlain_record ?_
  simp only [List.forall_mem_cons]
  exact ⟨.text doc.origin, isPlain_map fun d hd => isPlain_decl (h d hd), by simp⟩

end Form

/-- A document comes back from its text. It also comes back from every text that spells one of its
forms: the full form is one of them, and the others differ from it in the order of keys, in fields
that are left out because they have their default, and in keys that are not known. -/
theorem documents_read_back {doc : Document}
    (hmaps : ∀ d ∈ doc.decls, ∀ c ∈ d.consts, c.value.InOrder) :
    ((∀ d ∈ doc.decls, ∀ c ∈ d.consts, c.value.HasNoFloat) →
      (Encode.document doc).nesting ≤ Decode.maxNesting →
      Document.read? (Encode.document doc).render = some doc) ∧
    Form.IsDocument doc (Encode.document doc) ∧
    ∀ j, Form.IsDocument doc j → j.nesting ≤ Decode.maxNesting →
      ∀ text, Json.parse? text = some j → Document.read? text = some doc := by
  have hread : ∀ j, Form.IsDocument doc j → j.nesting ≤ Decode.maxNesting →
      ∀ text, Json.parse? text = some j → Document.read? text = some doc := by
    intro j hj hroom text htext
    rw [Document.read?, Decode.read?, htext]
    exact Form.decode_document hj hmaps hroom
  have hfull := Form.isDocument_encode doc
  refine ⟨fun hfloat hroom => ?_, hfull, hread⟩
  exact hread _ hfull hroom _ (Form.isPlain_document hfloat).parse?_render

namespace Sample

/-- The enum in another form: without comments, in another order, and with a note. -/
def shortColor : Json :=
  .record [("kind", .text "enum"),
    ("options", .array [.record [("ident", .text "red")], .record [("ident", .text "green")]]),
    ("note", .int 1), ("ident", .text "color")]

/-- The document without its origin, and with the enum in that form. -/
def shortDoc : Json :=
  .record [("decls", .array [Encode.decl line, Encode.decl dot, shortColor])]

end Sample

open Sample

theorem Form.isDecl_shortColor : IsDecl color shortColor := by
  have hoptions : IsArray IsEnumOption [⟨"red", []⟩, ⟨"green", []⟩]
      (.array [.record [("ident", .text "red")], .record [("ident", .text "green")]]) := by
    refine ⟨[(⟨"red", []⟩, _), (⟨"green", []⟩, _)], rfl, rfl, ?_⟩
    simp only [List.forall_mem_cons]
    exact ⟨isObject_record (.keep rfl (.leave rfl .nil)),
      isObject_record (.keep rfl (.leave rfl .nil)), by simp⟩
  have hperm : ∀ a b c d : Option String × Json, ([a, b, c] ++ [d]).Perm ([d] ++ [a, b, c]) :=
    fun _ _ _ _ => List.perm_append_comm
  refine ⟨_, [(some "ident", _), (some "kind", _), (some "options", _)], [(some "note", .int 1)],
    rfl, hperm _ _ _ _, .keep rfl (.leave rfl (.keep rfl (.keep hoptions .nil))), ?_⟩
  rw [List.forall_mem_singleton]
  exact ⟨rfl, "note", rfl, by simp [color, bodySlots, textSlot, docSlot, listSlot]⟩

theorem Form.isPlain_shortColor : shortColor.IsPlain := by
  have hoption : ∀ s, (Json.record [("ident", .text s)]).IsPlain :=
    fun s => isPlain_record (by simpa using .text s)
  refine isPlain_record ?_
  simp only [List.forall_mem_cons]
  exact ⟨.text "enum", .array (by simp [hoption]), .int (by decide) (by decide), .text "color",
    by simp⟩

theorem doc_constants :
    ∀ d ∈ doc.decls, ∀ c ∈ d.consts, c.value.InOrder ∧ c.value.HasNoFloat := by
  have hdot : ∀ size tint,
      (Literal.record [("size", .int size), ("tint", .enumOption tint)]).InOrder ∧
        (Literal.record [("size", .int size), ("tint", .enumOption tint)]).HasNoFloat := by
    intro size tint
    refine ⟨.record (show List.Pairwise _ ["size", "tint"] by decide) ?_, .record ?_⟩ <;>
      simp only [List.forall_mem_cons]
    · exact ⟨.other (by simp), .other (by simp), by simp⟩
    · exact ⟨.other (by simp) (by simp), .other (by simp) (by simp), by simp⟩
  have horigin : origin.value.InOrder ∧ origin.value.HasNoFloat := hdot 1 "red"
  have haxis : axis.value.InOrder ∧ axis.value.HasNoFloat := by
    refine ⟨.record (show List.Pairwise _ ["start", "stop"] by decide) ?_, .record ?_⟩ <;>
      simp only [List.forall_mem_cons]
    · exact ⟨.other (by simp), (hdot 2 "green").1, by simp⟩
    · exact ⟨.other (by simp) (by simp), (hdot 2 "green").2, by simp⟩
  simp only [doc, List.forall_mem_cons]
  exact ⟨by simp [line, Decl.consts, horigin, haxis], by simp [dot, Decl.consts],
    by simp [color, Decl.consts], by simp⟩

theorem doc_read_back :
    (∀ d ∈ doc.decls, ∀ c ∈ d.consts, c.value.InOrder) ∧
      (Encode.document doc).nesting ≤ Decode.maxNesting ∧
      Document.read? (Encode.document doc).render = some doc ∧
      Form.IsDocument doc shortDoc ∧ Document.read? shortDoc.render = some doc := by
  have hmaps := fun d hd c hc => (doc_constants d hd c hc).1
  have hfloat := fun d hd c hc => (doc_constants d hd c hc).2
  have hnesting : (Encode.document doc).nesting ≤ Decode.maxNesting := by decide
  have hshort : Form.IsDocument doc shortDoc := by
    refine Form.isObject_record (.leave rfl (.keep ⟨[(line, _), (dot, _), (color, _)], rfl, rfl, ?_⟩
      .nil))
    simp only [List.forall_mem_cons]
    exact ⟨Form.isDecl_encode line, Form.isDecl_encode dot, Form.isDecl_shortColor, by simp⟩
  have hplain : shortDoc.IsPlain := by
    have hdecls : ∀ j ∈ [Encode.decl line, Encode.decl dot, shortColor], j.IsPlain := by
      simp only [List.forall_mem_cons]
      exact ⟨Form.isPlain_decl (hfloat line (by simp [doc])),
        Form.isPlain_decl (hfloat dot (by simp [doc])), Form.isPlain_shortColor, by simp⟩
    exact Form.isPlain_record (by simpa using .array hdecls)
  obtain ⟨hfull, -, hforms⟩ := documents_read_back hmaps
  exact ⟨hmaps, hnesting, hfull hfloat hnesting, hshort,
    hforms shortDoc hshort (by decide) _ hplain.parse?_render⟩

end IdlBinder

import IdlBinder.Idl.Decode
import IdlBinder.Idl.Encode
import IdlBinder.Proofs.JsonText
import IdlBinder.Proofs.LiteralType

set_option autoImplicit false

/-!
# The JSON forms of a document

A document may be written in JSON in many ways. In an object the keys stand in any order, a field
may be left out where it has its default, and keys that are not known may be added (`IsObject`).
What is under the keys has its own forms in turn (`Form`); the choices with one key and the names of
a record literal take no further keys. Every form is read as what it is a form of, as long as it
nests no deeper than there is room: one lemma for each part of a document, up to
`Form.decode_document`.
-/

namespace IdlBinder

namespace Json

/-! ## Objects with known keys -/

/-- A field of an object: its key, what may stand under it, and when it may be left out. -/
structure Slot where
  key : String
  form : Json → Prop
  isDefault : Prop

/-- The members of an object for some fields in order, of which some are left out. -/
inductive Kept : List Slot → List (Option String × Json) → Prop where
  | nil : Kept [] []
  | keep {slot : Slot} {slots : List Slot} {j : Json} {members : List (Option String × Json)} :
      slot.form j → Kept slots members → Kept (slot :: slots) ((some slot.key, j) :: members)
  | leave {slot : Slot} {slots : List Slot} {members : List (Option String × Json)} :
      slot.isDefault → Kept slots members → Kept (slot :: slots) members

/-- Objects with some fields, in any order, and with other keys that are not known. -/
def IsObject (slots : List Slot) (j : Json) : Prop :=
  ∃ members kept extra, j = .object members ∧ members.Perm (kept ++ extra) ∧ Kept slots kept ∧
    ∀ m ∈ extra, m.2.sound = true ∧ ∃ key, m.1 = some key ∧ ∀ slot ∈ slots, key ≠ slot.key

variable {slots : List Slot} {slot : Slot} {members kept : List (Option String × Json)} {j : Json}

/-- What a field of an object may be read as, with the nesting that is allowed below. -/
def Slot.Holds (slot : Slot) (room : Nat) : Option Json → Prop
  | none => slot.isDefault
  | some j => slot.form j ∧ j.nesting ≤ room

theorem Kept.exists_slot (h : Kept slots kept) {m : Option String × Json} (hm : m ∈ kept) :
    ∃ slot ∈ slots, m.1 = some slot.key ∧ slot.form m.2 := by
  induction h with
  | nil => cases hm
  | @keep slot slots j members hform _ ih =>
      rcases List.mem_cons.mp hm with rfl | hm
      · exact ⟨slot, List.mem_cons_self, rfl, hform⟩
      · obtain ⟨slot', hslot, hm⟩ := ih hm
        exact ⟨slot', List.mem_cons_of_mem _ hslot, hm⟩
  | leave _ _ ih =>
      obtain ⟨slot', hslot, hm⟩ := ih hm
      exact ⟨slot', List.mem_cons_of_mem _ hslot, hm⟩

theorem Kept.filter_eq_nil (h : Kept slots kept) {key : String} (hkey : key ∉ slots.map (·.key)) :
    kept.filter (·.1 == some key) = [] := by
  rw [List.filter_eq_nil_iff]
  intro m hm hm'
  obtain ⟨slot, hslot, heq, -⟩ := h.exists_slot hm
  rw [heq, beq_iff_eq, Option.some.injEq] at hm'
  exact hkey (List.mem_map.mpr ⟨slot, hslot, hm'⟩)

/-- Of the members that are kept, one is under the key of a field, or none if it is left out. -/
theorem Kept.filter_eq (h : Kept slots kept) (hapart : (slots.map (·.key)).Nodup)
    (hslot : slot ∈ slots) :
    kept.filter (·.1 == some slot.key) = [] ∧ slot.isDefault ∨
      ∃ j, kept.filter (·.1 == some slot.key) = [(some slot.key, j)] ∧ slot.form j := by
  induction h with
  | nil => cases hslot
  | @keep first slots j members hform hrest ih =>
      rw [List.map_cons, List.nodup_cons] at hapart
      rcases List.mem_cons.mp hslot with rfl | hslot
      · refine Or.inr ⟨j, ?_, hform⟩
        rw [List.filter_cons_of_pos (by simp), hrest.filter_eq_nil hapart.1]
      · have hne : first.key ≠ slot.key := fun heq =>
          hapart.1 (List.mem_map.mpr ⟨slot, hslot, heq.symm⟩)
        rw [List.filter_cons_of_neg (by simp [hne])]
        exact ih hapart.2 hslot
  | @leave first slots members hdefault hrest ih =>
      rw [List.map_cons, List.nodup_cons] at hapart
      rcases List.mem_cons.mp hslot with rfl | hslot
      · exact Or.inl ⟨hrest.filter_eq_nil hapart.1, hdefault⟩
      · exact ih hapart.2 hslot

theorem nestingMembers_le {n : Nat} :
    nestingMembers members ≤ n ↔ ∀ m ∈ members, m.2.nesting ≤ n := by
  induction members with
  | nil => simp [nestingMembers]
  | cons m members ih => rw [nestingMembers, Nat.max_le, ih, List.forall_mem_cons]

theorem nestingItems_le {items : List Json} {n : Nat} :
    nestingItems items ≤ n ↔ ∀ j ∈ items, j.nesting ≤ n := by
  induction items with
  | nil => simp [nestingItems]
  | cons j items ih => rw [nestingItems, Nat.max_le, ih, List.forall_mem_cons]

theorem soundMembers_eq_true :
    soundMembers members = true ↔ ∀ m ∈ members, m.1.isSome = true ∧ m.2.sound = true := by
  induction members with
  | nil => simp [soundMembers]
  | cons m members ih => simp [soundMembers, ih, and_assoc]

theorem soundItems_eq_true {items : List Json} :
    soundItems items = true ↔ ∀ j ∈ items, j.sound = true := by
  induction items with
  | nil => simp [soundItems]
  | cons j items ih => simp [soundItems, ih]

theorem mapM_eq_some {α β : Type} {f : α → Option β} {g : α → β} {l : List α}
    (h : ∀ x ∈ l, f x = some (g x)) : l.mapM f = some (l.map g) := by
  induction l with
  | nil => rfl
  | cons x l ih =>
      obtain ⟨hx, hl⟩ := List.forall_mem_cons.mp h
      simp [hx, ih hl]

/-- The value under the key of a field. -/
theorem Kept.single_eq {extra : List (Option String × Json)} (h : Kept slots kept)
    (hapart : (slots.map (·.key)).Nodup) (hperm : members.Perm (kept ++ extra))
    (hextra : ∀ m ∈ extra, ∃ key, m.1 = some key ∧ ∀ slot ∈ slots, key ≠ slot.key)
    (hslot : slot ∈ slots) :
    single slot.key members = some none ∧ slot.isDefault ∨
      ∃ j, single slot.key members = some (some j) ∧ (some slot.key, j) ∈ members ∧
        slot.form j := by
  have hnone : extra.filter (·.1 == some slot.key) = [] := by
    rw [List.filter_eq_nil_iff]
    intro m hm
    obtain ⟨key, hkey, hne⟩ := hextra m hm
    simp [hkey, hne slot hslot]
  have hfilter := hperm.filter (·.1 == some slot.key)
  rw [List.filter_append, hnone, List.append_nil] at hfilter
  rcases h.filter_eq hapart hslot with ⟨hkept, hdefault⟩ | ⟨j, hkept, hform⟩ <;>
    rw [hkept] at hfilter
  · exact Or.inl ⟨by rw [single, List.perm_nil.mp hfilter], hdefault⟩
  · have hone := List.perm_singleton.mp hfilter
    refine Or.inr ⟨j, by rw [single, hone], ?_, hform⟩
    have hmem : (some slot.key, j) ∈ members.filter (·.1 == some slot.key) := by simp [hone]
    exact (List.mem_filter.mp hmem).1

/-- An object is read by its keys: every field has one value, or none if it may be left out. -/
theorem IsObject.exists_values {room : Nat} (h : IsObject slots j) (keys : List String)
    (hkeys : slots.map (·.key) = keys) (hapart : keys.Nodup) (hroom : j.nesting ≤ room) :
    ∃ (k : Nat) (value : String → Option Json), room = k + 1 ∧
      (∀ slot ∈ slots, slot.Holds k (value slot.key)) ∧
      ∀ known, (∀ key ∈ known, key ∈ keys) → Json.slots known j = some (known.map value) := by
  subst hkeys
  obtain ⟨members, kept, extra, rfl, hperm, hkept, hextra⟩ := h
  rw [nesting] at hroom
  obtain ⟨k, rfl⟩ : ∃ k, room = k + 1 := ⟨room - 1, by omega⟩
  have hbelow : ∀ m ∈ members, m.2.nesting ≤ k := nestingMembers_le.mp (by omega)
  have hsingle := fun slot (hslot : slot ∈ slots) =>
    hkept.single_eq hapart hperm (fun m hm => (hextra m hm).2) hslot
  refine ⟨k, fun key => (single key members).join, rfl, ?_, ?_⟩
  · intro slot hslot
    rcases hsingle slot hslot with ⟨hnone, hdefault⟩ | ⟨j, hsome, hmem, hform⟩
    · simp only [hnone]
      exact hdefault
    · simp only [hsome]
      exact ⟨hform, hbelow _ hmem⟩
  · intro known hknown
    have hall : members.all (·.1.isSome) = true := by
      rw [List.all_eq_true]
      intro m hm
      rcases List.mem_append.mp (hperm.mem_iff.mp hm) with hm | hm
      · obtain ⟨slot, -, hkey, -⟩ := hkept.exists_slot hm
        simp [hkey]
      · obtain ⟨-, key, hkey, -⟩ := hextra m hm
        simp [hkey]
    rw [Json.slots, if_pos hall]
    refine mapM_eq_some fun key hkey => ?_
    obtain ⟨slot, hslot, rfl⟩ := List.mem_map.mp (hknown key hkey)
    rcases hsingle slot hslot with ⟨hnone, -⟩ | ⟨j, hsome, -, -⟩
    · simp [hnone]
    · simp [hsome]

theorem sound_record {l : List (String × Json)} :
    (record l).sound = true ↔ ∀ m ∈ l, m.2.sound = true := by
  rw [record, sound, soundMembers_eq_true, List.forall_mem_map]
  simp

/-- An object is sound if everything under its keys is. -/
theorem IsObject.sound_eq_true (h : IsObject slots j)
    (hslots : ∀ slot ∈ slots, ∀ j, slot.form j → j.sound = true) : j.sound = true := by
  obtain ⟨members, kept, extra, rfl, hperm, hkept, hextra⟩ := h
  rw [sound, soundMembers_eq_true]
  intro m hm
  rcases List.mem_append.mp (hperm.mem_iff.mp hm) with hm | hm
  · obtain ⟨slot, hslot, hkey, hform⟩ := hkept.exists_slot hm
    exact ⟨by simp [hkey], hslots slot hslot _ hform⟩
  · obtain ⟨hsound, key, hkey, -⟩ := hextra m hm
    exact ⟨by simp [hkey], hsound⟩

end Json

/-! ## The forms of the parts of a document -/

namespace Form

open Json

/-- An array of forms. -/
def IsArray {α : Type} (form : α → Json → Prop) (l : List α) (j : Json) : Prop :=
  ∃ items : List (α × Json), l = items.map (·.1) ∧ j = .array (items.map (·.2)) ∧
    ∀ p ∈ items, form p.1 p.2

/-- A text that must be there. -/
def textSlot (key s : String) : Slot := ⟨key, (· = .text s), False⟩

/-- A flag, which is off by default. -/
def flagSlot (key : String) (b : Bool) : Slot := ⟨key, (· = .bool b), b = false⟩

/-- A list, which is empty by default. -/
def listSlot {α : Type} (key : String) (form : α → Json → Prop) (l : List α) : Slot :=
  ⟨key, IsArray form l, l = []⟩

/-- The lines of a comment. -/
def docSlot (lines : Doc) : Slot := listSlot "doc" (fun s j => j = .text s) lines

/-- The forms of the head of a type. -/
def IsHead : TypeHead → Json → Prop
  | .declared d, j => ∃ data, j = .record [("def", data)] ∧
      IsObject [textSlot "name" d.name, textSlot "kind" d.kind.name] data
  | h, j => j = Encode.typeHead h

/-- The forms of a type. -/
inductive IsType : TypeExpr → Json → Prop where
  | node {h : TypeHead} {args : List (TypeExpr × Json)} {j : Json} :
      (∀ p ∈ args, IsType p.1 p.2) →
      IsObject [⟨"base", IsHead h, False⟩, ⟨"args", (· = .array (args.map (·.2))), args = []⟩] j →
      IsType (.node h (args.map (·.1))) j

/-- The forms of a literal. The names of a record literal may be in any order. -/
inductive IsLiteral : Literal → Json → Prop where
  | record {entries spelled : List (String × Literal × Json)} :
      (∀ e ∈ entries, IsLiteral e.2.1 e.2.2) → spelled.Perm entries →
      IsLiteral (.record (entries.map fun e => (e.1, e.2.1)))
        (.record [("record", .record (spelled.map fun e => (e.1, e.2.2)))])
  | other {v : Literal} : (∀ entries, v ≠ .record entries) → IsLiteral v (Encode.literal v)

/-- The forms of a constant. -/
def IsConst (c : Const) : Json → Prop :=
  IsObject [textSlot "ident" c.name, docSlot c.doc, ⟨"ty", IsType c.type, False⟩,
    ⟨"value", IsLiteral c.value, False⟩]

/-- The forms of an option of an enum. -/
def IsEnumOption (o : EnumOption) : Json → Prop :=
  IsObject [textSlot "ident" o.name, docSlot o.doc]

/-- The forms of a field or parameter. -/
def IsField (f : Field) : Json → Prop :=
  IsObject [textSlot "ident" f.name, docSlot f.doc, ⟨"ty", IsType f.type, False⟩]

/-- The forms of the sides on which a record is finished by hand. -/
def IsExtension (e : Extension) : Json → Prop :=
  IsObject [flagSlot "native" e.native, flagSlot "component" e.component]

/-- The forms of the result of a method. -/
def IsResult : Option TypeExpr → Json → Prop
  | none, j => j = .null
  | some t, j => IsType t j

/-- The forms of a method. -/
def IsMethod (m : Method) : Json → Prop :=
  IsObject [textSlot "ident" m.name, docSlot m.doc, listSlot "params" IsField m.params,
    ⟨"ret", IsResult m.result, m.result = none⟩, flagSlot "static" m.isStatic,
    flagSlot "const" m.isConst]

/-- The fields of a declaration that belong to its kind. -/
def bodySlots : Body → List Slot
  | .enum e => [listSlot "options" IsEnumOption e.options]
  | .record r => [listSlot "fields" IsField r.fields, listSlot "consts" IsConst r.consts,
      ⟨"ext", IsExtension r.ext, r.ext = {}⟩]
  | .interface i => [listSlot "type_params" (fun s j => j = .text s) i.typeParams,
      listSlot "methods" IsMethod i.methods, listSlot "consts" IsConst i.consts]

/-- The forms of a declaration. -/
def IsDecl (d : Decl) : Json → Prop :=
  IsObject ([textSlot "ident" d.name, docSlot d.doc, textSlot "kind" d.kind.name] ++
    bodySlots d.body)

/-- The forms of a document. -/
def IsDocument (doc : Document) : Json → Prop :=
  IsObject [⟨"origin", (· = .text doc.origin), doc.origin = ""⟩, listSlot "decls" IsDecl doc.decls]

/-! ## Every form is read as what it is a form of -/

variable {room : Nat} {j : Json} {v : Option Json} {inDecl : Bool}

theorem exists_of_required {key : String} {form : Json → Prop}
    (h : Slot.Holds ⟨key, form, False⟩ room v) : ∃ j, v = some j ∧ form j ∧ j.nesting ≤ room := by
  cases v with
  | none => exact h.elim
  | some j => exact ⟨j, rfl, h⟩

theorem eq_of_textSlot {key s : String} (h : (textSlot key s).Holds room v) :
    v = some (.text s) := by
  obtain ⟨_, rfl, rfl, -⟩ := exists_of_required h
  rfl

/-- A field that may be left out is read as its default if it is. -/
theorem orElse_eq {α : Type} {slot : Slot} {a default : α} {decode : Json → Option α}
    (h : slot.Holds room v) (hdefault : slot.isDefault → a = default)
    (hform : ∀ j, slot.form j → j.nesting ≤ room → decode j = some a) :
    Decode.orElse default decode v = some a := by
  cases v with
  | none => rw [Decode.orElse, hdefault h]
  | some j => exact hform j h.1 h.2

theorem decode_list {α : Type} {form : α → Json → Prop} {decode : Nat → Json → Option α}
    {l : List α} (h : IsArray form l j) (hroom : j.nesting ≤ room)
    (hform : ∀ a ∈ l, ∀ j k, form a j → j.nesting ≤ k → decode k j = some a) :
    Decode.list decode room j = some l := by
  obtain ⟨items, rfl, rfl, hitems⟩ := h
  rw [nesting] at hroom
  obtain ⟨k, rfl⟩ : ∃ k, room = k + 1 := ⟨room - 1, by omega⟩
  have hbelow := nestingItems_le.mp (show nestingItems (items.map (·.2)) ≤ k by omega)
  simp only [Decode.list, asItems, Option.bind_some]
  rw [List.mapM_map]
  refine mapM_eq_some fun p hp => ?_
  have hmem : p.1 ∈ items.map (·.1) := List.mem_map_of_mem hp
  exact hform p.1 hmem p.2 k (hitems p hp) (hbelow p.2 (List.mem_map_of_mem hp))

theorem orElse_list {α : Type} {key : String} {form : α → Json → Prop}
    {decode : Nat → Json → Option α} {l : List α} (h : (listSlot key form l).Holds room v)
    (hform : ∀ a ∈ l, ∀ j k, form a j → j.nesting ≤ k → decode k j = some a) :
    Decode.orElse [] (Decode.list decode room) v = some l :=
  orElse_eq h id fun _ hj hroom => decode_list hj hroom hform

theorem orElse_doc {lines : Doc} (h : (docSlot lines).Holds room v) :
    Decode.orElse [] (Decode.doc room) v = some lines :=
  orElse_list h (by rintro s - _ k rfl -; rfl)

theorem orElse_flag {key : String} {b : Bool} (h : (flagSlot key b).Holds room v) :
    Decode.orElse false asBool v = some b :=
  orElse_eq h id (by rintro _ rfl -; rfl)

theorem decode_named {α : Type} (ofName? : String → Option α) (s : String) :
    Decode.named inDecl ofName? room (.text s) = ofName? s := by
  cases room <;> rfl

theorem ofName?_prim (p : Prim) : Prim.ofName? p.name = some p := by
  cases p <;> decide

theorem ofName?_kind (k : Kind) : Kind.ofName? k.name = some k := by
  cases k <;> decide

theorem asText_text (s : String) : asText (.text s) = some s := rfl

theorem decode_defRef {d : DefRef}
    (h : IsObject [textSlot "name" d.name, textSlot "kind" d.kind.name] j)
    (hroom : j.nesting ≤ room) : Decode.defRef inDecl room j = some d := by
  obtain ⟨k, value, rfl, hholds, hslots⟩ :=
    h.exists_values ["name", "kind"] rfl (by decide) hroom
  have hname : value "name" = some (.text d.name) :=
    eq_of_textSlot (hholds (textSlot "name" d.name) (by simp))
  have hkind : value "kind" = some (.text d.kind.name) :=
    eq_of_textSlot (hholds (textSlot "kind" d.kind.name) (by simp))
  have hvalues := hslots ["name", "kind"] (by simp)
  simp only [List.map_cons, List.map_nil, hname, hkind] at hvalues
  simp [Decode.defRef, hvalues, asText_text, decode_named, ofName?_kind]

/-- A choice with data takes a level. -/
theorem exists_room_of_choice {key : String} {data : Json}
    (h : (record [(key, data)]).nesting ≤ room) : ∃ k, room = k + 1 ∧ data.nesting ≤ k := by
  simp only [record, List.map_cons, List.map_nil, nesting, nestingMembers] at h
  exact ⟨room - 1, by omega, by omega⟩

theorem decode_head {head : TypeHead} (h : IsHead head j) (hroom : j.nesting ≤ room) :
    Decode.typeHead inDecl room j = some head := by
  cases head with
  | primitive p =>
      obtain rfl : j = .record [("primitive", .text p.name)] := h
      obtain ⟨k, rfl, -⟩ := exists_room_of_choice hroom
      show (Decode.named inDecl Prim.ofName? k (.text p.name)).map _ = _
      rw [decode_named, ofName?_prim]
      rfl
  | declared d =>
      obtain ⟨data, rfl, hdata⟩ := h
      obtain ⟨k, rfl, hk⟩ := exists_room_of_choice hroom
      show (Decode.defRef inDecl k data).map _ = _
      rw [decode_defRef hdata hk]
      rfl
  | param n =>
      obtain rfl : j = .record [("param", .text n)] := h
      obtain ⟨k, rfl, -⟩ := exists_room_of_choice hroom
      rfl
  | _ =>
      obtain rfl := h
      cases room <;> rfl

theorem typeExprs_eq (room : Nat) (j : Json) :
    Decode.typeExprs inDecl room j = Decode.list (Decode.typeExpr inDecl) room j := by
  cases room <;> simp [Decode.typeExprs, Decode.list]

theorem decode_type {t : TypeExpr} (h : IsType t j) (hroom : j.nesting ≤ room) :
    Decode.typeExpr inDecl room j = some t := by
  induction h generalizing room with
  | @node head args j _ hj ih =>
      obtain ⟨k, value, rfl, hholds, hslots⟩ :=
        hj.exists_values ["base", "args"] rfl (by decide) hroom
      obtain ⟨base, hbase, hhead, hbelow⟩ : ∃ base, value "base" = some base ∧ _ :=
        exists_of_required (hholds ⟨"base", IsHead head, False⟩ (by simp))
      have hvalues := hslots ["base", "args"] (by simp)
      simp only [List.map_cons, List.map_nil, hbase] at hvalues
      have hargs : Slot.Holds _ k (value "args") :=
        hholds ⟨"args", (· = .array (args.map (·.2))), args = []⟩ (by simp)
      rw [Decode.typeExpr, hvalues]
      cases hvalue : value "args" with
      | none =>
          rw [hvalue] at hargs
          obtain rfl : args = [] := hargs
          simp [decode_head hhead hbelow]
      | some items =>
          rw [hvalue] at hargs
          obtain ⟨rfl, hitems⟩ := hargs
          have harray : IsArray (fun t j => (t, j) ∈ args) (args.map (·.1))
              (.array (args.map (·.2))) := ⟨args, rfl, rfl, fun _ hp => hp⟩
          have hlist := decode_list harray hitems fun t _ j k hp hk => ih (t, j) hp hk
          simp [decode_head hhead hbelow, typeExprs_eq, hlist]

/-! ### Literals -/

theorem decode_int64 (i : Int64) : Decode.int64 (.int i.toInt) = some i := by
  have hlow : Int64.minValue.toInt ≤ i.toInt := i.minValue_le_toInt
  have hhigh : i.toInt ≤ Int64.maxValue.toInt := i.toInt_le
  simp only [Decode.int64, Json.int, hlow, hhigh, decide_true, Bool.and_self, if_true]
  rw [Int64.ofInt_toInt]

/-- Entries that are put into a map by and by can be found there. -/
theorem find?_foldl_insert {α : Type} {l : List (String × α)} (hapart : (NameMap.names l).Nodup)
    (done : List (String × α)) :
    let m := l.foldl (fun done p => NameMap.insert p.1 p.2 done) done
    (∀ p ∈ l, NameMap.find? p.1 m = some p.2) ∧
      ∀ key, key ∉ NameMap.names l → NameMap.find? key m = NameMap.find? key done := by
  induction l generalizing done with
  | nil => simp
  | cons p l ih =>
      rw [NameMap.names, List.map_cons, List.nodup_cons] at hapart
      obtain ⟨hin, hout⟩ := ih hapart.2 (NameMap.insert p.1 p.2 done)
      refine ⟨List.forall_mem_cons.mpr ⟨?_, hin⟩, ?_⟩
      · rw [List.foldl_cons, hout p.1 hapart.1, NameMap.find?_insert, if_pos rfl]
      · intro key hkey
        rw [NameMap.names, List.map_cons, List.mem_cons, not_or] at hkey
        rw [List.foldl_cons, hout key hkey.2, NameMap.find?_insert, if_neg (Ne.symm hkey.1)]

theorem ordered_foldl_insert {α : Type} (l : List (String × α)) {done : List (String × α)}
    (h : NameMap.Ordered done) :
    NameMap.Ordered (l.foldl (fun done p => NameMap.insert p.1 p.2 done) done) := by
  induction l generalizing done with
  | nil => exact h
  | cons p l ih => exact ih (NameMap.ordered_insert h)

/-- A map is made up of its entries in any order. -/
theorem foldl_insert_eq {α : Type} {l m : List (String × α)} (hm : NameMap.Ordered m)
    (hperm : l.Perm m) : l.foldl (fun done p => NameMap.insert p.1 p.2 done) [] = m := by
  have hnames : (NameMap.names l).Perm (NameMap.names m) := hperm.map _
  have hapart : (NameMap.names l).Nodup := hnames.nodup_iff.mpr hm.nodup
  have hempty : NameMap.Ordered ([] : List (String × α)) := List.Pairwise.nil
  obtain ⟨hin, hout⟩ := find?_foldl_insert hapart []
  refine NameMap.eq_of_find?_eq (ordered_foldl_insert l hempty) hm fun name => ?_
  cases hfind : NameMap.find? name m with
  | some v => exact hin (name, v) (hperm.mem_iff.mpr (NameMap.mem_of_find? hfind))
  | none =>
      have hname : name ∉ NameMap.names m := by
        rw [← NameMap.exists_find?_iff]
        simp [hfind]
      exact hout name fun hmem => hname (hnames.mem_iff.mp hmem)

theorem foldlM_entries {room : Nat} {spelled : List (String × Literal × Json)}
    (h : ∀ e ∈ spelled, Decode.literal room e.2.2 = some e.2.1) (done : List (String × Literal)) :
    (spelled.map fun e => (some e.1, e.2.2)).foldlM
        (fun done m => m.1.bind fun name =>
          (Decode.literal room m.2).map fun value => NameMap.insert name value done) done =
      some ((spelled.map fun e => (e.1, e.2.1)).foldl
        (fun done p => NameMap.insert p.1 p.2 done) done) := by
  induction spelled generalizing done with
  | nil => rfl
  | cons e spelled ih =>
      obtain ⟨he, hrest⟩ := List.forall_mem_cons.mp h
      simp [he, ih hrest]

theorem decode_literal {value : Literal} (h : IsLiteral value j) (horder : value.InOrder)
    (hroom : j.nesting ≤ room) : Decode.literal room j = some value := by
  induction h generalizing room with
  | @record entries spelled _ hperm ih =>
      obtain ⟨hordered, hvalues⟩ : NameMap.Ordered (entries.map fun e => (e.1, e.2.1)) ∧
          ∀ e ∈ entries, e.2.1.InOrder := by
        cases horder with
        | record hordered hvalues =>
            exact ⟨hordered, fun e he => hvalues (e.1, e.2.1) (List.mem_map_of_mem he)⟩
        | other hother => exact absurd rfl (hother _)
      obtain ⟨k, rfl, hk⟩ := exists_room_of_choice hroom
      have hdata : record (spelled.map fun e => (e.1, e.2.2)) =
          .object (spelled.map fun e => (some e.1, e.2.2)) := by
        rw [record, List.map_map]
        rfl
      rw [hdata, nesting] at hk
      obtain ⟨k, rfl⟩ : ∃ k', k = k' + 1 := ⟨k - 1, by omega⟩
      have hbelow := nestingMembers_le.mp (Nat.le_of_succ_le_succ hk)
      have hread : ∀ e ∈ spelled, Decode.literal k e.2.2 = some e.2.1 := by
        intro e he
        have hentry := hperm.mem_iff.mp he
        exact ih e hentry (hvalues e hentry) (hbelow (some e.1, e.2.2) (List.mem_map_of_mem he))
      have hall : Decode.entries (k + 1) (record (spelled.map fun e => (e.1, e.2.2))) =
          some (entries.map fun e => (e.1, e.2.1)) := by
        rw [hdata, Decode.entries, foldlM_entries hread, foldl_insert_eq hordered (hperm.map _)]
      show (Decode.entries (k + 1) _).map _ = _
      rw [hall]
      rfl
  | @other v hother =>
      cases v with
      | record entries => exact absurd rfl (hother entries)
      | int i =>
          obtain ⟨k, rfl, -⟩ := exists_room_of_choice hroom
          show (Decode.int64 (.int i.toInt)).map _ = _
          rw [decode_int64]
          rfl
      | _ =>
          obtain ⟨k, rfl, -⟩ := exists_room_of_choice hroom
          rfl

/-! ### Members -/

theorem decode_const {c : Const} (h : IsConst c j) (horder : c.value.InOrder)
    (hroom : j.nesting ≤ room) : Decode.const inDecl room j = some c := by
  obtain ⟨k, value, rfl, hholds, hslots⟩ :=
    h.exists_values ["ident", "doc", "ty", "value"] rfl (by decide) hroom
  have hname : value "ident" = some (.text c.name) :=
    eq_of_textSlot (hholds (textSlot "ident" c.name) (by simp))
  have hdoc : Decode.orElse [] (Decode.doc k) (value "doc") = some c.doc :=
    orElse_doc (hholds (docSlot c.doc) (by simp))
  obtain ⟨t, hty, htype, ht⟩ : ∃ t, value "ty" = some t ∧ _ :=
    exists_of_required (hholds ⟨"ty", IsType c.type, False⟩ (by simp))
  obtain ⟨v, hv, hliteral, hn⟩ : ∃ v, value "value" = some v ∧ _ :=
    exists_of_required (hholds ⟨"value", IsLiteral c.value, False⟩ (by simp))
  have hvalues := hslots ["ident", "doc", "ty", "value"] (by simp)
  simp only [List.map_cons, List.map_nil, hname, hty, hv] at hvalues
  simp [Decode.const, hvalues, asText_text, hdoc, decode_type htype ht,
    decode_literal hliteral horder hn]

theorem decode_enumOption {o : EnumOption} (h : IsEnumOption o j) (hroom : j.nesting ≤ room) :
    Decode.enumOption room j = some o := by
  obtain ⟨k, value, rfl, hholds, hslots⟩ :=
    h.exists_values ["ident", "doc"] rfl (by decide) hroom
  have hname : value "ident" = some (.text o.name) :=
    eq_of_textSlot (hholds (textSlot "ident" o.name) (by simp))
  have hdoc : Decode.orElse [] (Decode.doc k) (value "doc") = some o.doc :=
    orElse_doc (hholds (docSlot o.doc) (by simp))
  have hvalues := hslots ["ident", "doc"] (by simp)
  simp only [List.map_cons, List.map_nil, hname] at hvalues
  simp [Decode.enumOption, hvalues, asText_text, hdoc]

theorem decode_field {f : Field} (h : IsField f j) (hroom : j.nesting ≤ room) :
    Decode.field inDecl room j = some f := by
  obtain ⟨k, value, rfl, hholds, hslots⟩ :=
    h.exists_values ["ident", "doc", "ty"] rfl (by decide) hroom
  have hname : value "ident" = some (.text f.name) :=
    eq_of_textSlot (hholds (textSlot "ident" f.name) (by simp))
  have hdoc : Decode.orElse [] (Decode.doc k) (value "doc") = some f.doc :=
    orElse_doc (hholds (docSlot f.doc) (by simp))
  obtain ⟨t, hty, htype, ht⟩ : ∃ t, value "ty" = some t ∧ _ :=
    exists_of_required (hholds ⟨"ty", IsType f.type, False⟩ (by simp))
  have hvalues := hslots ["ident", "doc", "ty"] (by simp)
  simp only [List.map_cons, List.map_nil, hname, hty] at hvalues
  simp [Decode.field, hvalues, asText_text, hdoc, decode_type htype ht]

theorem decode_extension {e : Extension} (h : IsExtension e j) (hroom : j.nesting ≤ room) :
    Decode.extension room j = some e := by
  obtain ⟨k, value, rfl, hholds, hslots⟩ :=
    h.exists_values ["native", "component"] rfl (by decide) hroom
  have hnative : Decode.orElse false asBool (value "native") = some e.native :=
    orElse_flag (hholds (flagSlot "native" e.native) (by simp))
  have hcomponent : Decode.orElse false asBool (value "component") = some e.component :=
    orElse_flag (hholds (flagSlot "component" e.component) (by simp))
  have hvalues := hslots ["native", "component"] (by simp)
  simp [Decode.extension, hvalues, hnative, hcomponent]

theorem decode_result {r : Option TypeExpr} (h : IsResult r j) (hroom : j.nesting ≤ room) :
    Decode.result inDecl room j = some r := by
  cases r with
  | none =>
      obtain rfl : j = .null := h
      rfl
  | some t =>
      have htype : IsType t j := h
      -- A type is an object, so its form is not the null that stands for no result.
      have hobject : ∃ members, j = .object members := by
        cases htype with
        | node _ hj =>
            obtain ⟨members, _, _, rfl, -⟩ := hj
            exact ⟨members, rfl⟩
      obtain ⟨members, rfl⟩ := hobject
      simp [Decode.result, decode_type htype hroom]

theorem decode_method {m : Method} (h : IsMethod m j) (hroom : j.nesting ≤ room) :
    Decode.method inDecl room j = some m := by
  obtain ⟨k, value, rfl, hholds, hslots⟩ :=
    h.exists_values ["ident", "doc", "params", "ret", "static", "const"] rfl (by decide) hroom
  have hname : value "ident" = some (.text m.name) :=
    eq_of_textSlot (hholds (textSlot "ident" m.name) (by simp))
  have hdoc : Decode.orElse [] (Decode.doc k) (value "doc") = some m.doc :=
    orElse_doc (hholds (docSlot m.doc) (by simp))
  have hparams : Decode.orElse [] (Decode.list (Decode.field inDecl) k) (value "params") =
      some m.params :=
    orElse_list (hholds (listSlot "params" IsField m.params) (by simp))
      fun _ _ _ _ hf hn => decode_field hf hn
  have hresult : Decode.orElse none (Decode.result inDecl k) (value "ret") = some m.result :=
    orElse_eq (hholds ⟨"ret", IsResult m.result, m.result = none⟩ (by simp)) id
      fun _ hr hn => decode_result hr hn
  have hstatic : Decode.orElse false asBool (value "static") = some m.isStatic :=
    orElse_flag (hholds (flagSlot "static" m.isStatic) (by simp))
  have hconst : Decode.orElse false asBool (value "const") = some m.isConst :=
    orElse_flag (hholds (flagSlot "const" m.isConst) (by simp))
  have hvalues := hslots ["ident", "doc", "params", "ret", "static", "const"] (by simp)
  simp only [List.map_cons, List.map_nil, hname] at hvalues
  simp [Decode.method, hvalues, asText_text, hdoc, hparams, hresult, hstatic, hconst]

/-! ### Soundness -/

theorem IsArray.sound_eq_true {α : Type} {form : α → Json → Prop} {l : List α}
    (h : IsArray form l j) (hform : ∀ a j, form a j → j.sound = true) : j.sound = true := by
  obtain ⟨items, -, rfl, hitems⟩ := h
  rw [sound, soundItems_eq_true, List.forall_mem_map]
  exact fun p hp => hform p.1 p.2 (hitems p hp)

theorem sound_of_eq_text {s : String} (h : j = .text s) : j.sound = true := by
  rw [h]
  rfl

theorem sound_of_texts {lines : List String} (h : IsArray (fun s j => j = .text s) lines j) :
    j.sound = true :=
  h.sound_eq_true fun _ _ hj => sound_of_eq_text hj

theorem sound_of_eq_bool {b : Bool} (h : j = .bool b) : j.sound = true := by
  rw [h]
  rfl

theorem IsHead.sound_eq_true {head : TypeHead} (h : IsHead head j) : j.sound = true := by
  cases head with
  | declared d =>
      obtain ⟨data, rfl, hdata⟩ := h
      have hsound : data.sound = true := by
        refine hdata.sound_eq_true ?_
        simp only [List.forall_mem_cons]
        exact ⟨fun _ => sound_of_eq_text, fun _ => sound_of_eq_text, by simp⟩
      simp [sound_record, hsound]
  | _ =>
      obtain rfl := h
      rfl

theorem IsType.sound_eq_true {t : TypeExpr} (h : IsType t j) : j.sound = true := by
  induction h with
  | @node head args j _ hj ih =>
      refine hj.sound_eq_true ?_
      simp only [List.forall_mem_cons]
      refine ⟨fun _ => IsHead.sound_eq_true, ?_, by simp⟩
      rintro _ rfl
      rw [sound, soundItems_eq_true, List.forall_mem_map]
      exact ih

theorem IsLiteral.sound_eq_true {value : Literal} (h : IsLiteral value j) : j.sound = true := by
  induction h with
  | @record entries spelled _ hperm ih =>
      simp only [sound_record, List.forall_mem_singleton, List.forall_mem_map]
      exact fun e he => ih e (hperm.mem_iff.mp he)
  | @other v hother =>
      cases v with
      | record entries => exact absurd rfl (hother entries)
      | _ => rfl

theorem IsConst.sound_eq_true {c : Const} (h : IsConst c j) : j.sound = true := by
  refine IsObject.sound_eq_true h ?_
  simp only [List.forall_mem_cons]
  exact ⟨fun _ => sound_of_eq_text, fun _ => sound_of_texts, fun _ => IsType.sound_eq_true,
    fun _ => IsLiteral.sound_eq_true, by simp⟩

theorem IsEnumOption.sound_eq_true {o : EnumOption} (h : IsEnumOption o j) : j.sound = true := by
  refine IsObject.sound_eq_true h ?_
  simp only [List.forall_mem_cons]
  exact ⟨fun _ => sound_of_eq_text, fun _ => sound_of_texts, by simp⟩

theorem IsField.sound_eq_true {f : Field} (h : IsField f j) : j.sound = true := by
  refine IsObject.sound_eq_true h ?_
  simp only [List.forall_mem_cons]
  exact ⟨fun _ => sound_of_eq_text, fun _ => sound_of_texts, fun _ => IsType.sound_eq_true, by simp⟩

theorem IsExtension.sound_eq_true {e : Extension} (h : IsExtension e j) : j.sound = true := by
  refine IsObject.sound_eq_true h ?_
  simp only [List.forall_mem_cons]
  exact ⟨fun _ => sound_of_eq_bool, fun _ => sound_of_eq_bool, by simp⟩

theorem IsResult.sound_eq_true {r : Option TypeExpr} (h : IsResult r j) : j.sound = true := by
  cases r with
  | none =>
      obtain rfl := h
      rfl
  | some t => exact IsType.sound_eq_true h

theorem IsMethod.sound_eq_true {m : Method} (h : IsMethod m j) : j.sound = true := by
  refine IsObject.sound_eq_true h ?_
  simp only [List.forall_mem_cons]
  exact ⟨fun _ => sound_of_eq_text, fun _ => sound_of_texts,
    fun _ hparams => IsArray.sound_eq_true hparams fun _ _ => IsField.sound_eq_true,
    fun _ => IsResult.sound_eq_true, fun _ => sound_of_eq_bool, fun _ => sound_of_eq_bool, by simp⟩

theorem sound_of_bodySlots {b : Body} {slot : Slot} (hslot : slot ∈ bodySlots b)
    (h : slot.form j) : j.sound = true := by
  have hall : ∀ slot ∈ bodySlots b, ∀ j, slot.form j → j.sound = true := by
    cases b with
    | enum e =>
        simp only [bodySlots, List.forall_mem_cons]
        exact ⟨fun _ h => IsArray.sound_eq_true h fun _ _ => IsEnumOption.sound_eq_true, by simp⟩
    | record r =>
        simp only [bodySlots, List.forall_mem_cons]
        exact ⟨fun _ h => IsArray.sound_eq_true h fun _ _ => IsField.sound_eq_true,
          fun _ h => IsArray.sound_eq_true h fun _ _ => IsConst.sound_eq_true,
          fun _ => IsExtension.sound_eq_true, by simp⟩
    | interface i =>
        simp only [bodySlots, List.forall_mem_cons]
        exact ⟨fun _ => sound_of_texts,
          fun _ h => IsArray.sound_eq_true h fun _ _ => IsMethod.sound_eq_true,
          fun _ h => IsArray.sound_eq_true h fun _ _ => IsConst.sound_eq_true, by simp⟩
  exact hall slot hslot j h

theorem IsDecl.sound_eq_true {d : Decl} (h : IsDecl d j) : j.sound = true := by
  refine IsObject.sound_eq_true h ?_
  simp only [List.forall_mem_append, List.forall_mem_cons]
  exact ⟨⟨fun _ => sound_of_eq_text, fun _ => sound_of_texts, fun _ => sound_of_eq_text, by simp⟩,
    fun slot hslot _ => sound_of_bodySlots hslot⟩

/-! ### Declarations and documents -/

/-- The keys of a declaration that belong to its kind. -/
def bodyKeys : Kind → List String
  | .enum => ["options"]
  | .record => ["fields", "consts", "ext"]
  | .interface => ["type_params", "methods", "consts"]

theorem keys_bodySlots (d : Decl) : (bodySlots d.body).map (·.key) = bodyKeys d.kind := by
  obtain ⟨name, doc, body⟩ := d
  cases body <;> rfl

theorem decode_body {d : Decl} {value : String → Option Json}
    (hholds : ∀ slot ∈ bodySlots d.body, slot.Holds room (value slot.key))
    (hslots : Json.slots (bodyKeys d.kind) j = some ((bodyKeys d.kind).map value))
    (horder : ∀ c ∈ d.consts, c.value.InOrder) : Decode.body room j d.kind = some d.body := by
  obtain ⟨name, doc, body⟩ := d
  cases body with
  | enum e =>
      have hoptions : Decode.orElse [] (Decode.list Decode.enumOption room) (value "options") =
          some e.options :=
        orElse_list (hholds (listSlot "options" IsEnumOption e.options) (by simp [bodySlots]))
          fun _ _ _ _ ho hn => decode_enumOption ho hn
      have hvalues : Json.slots ["options"] j = some [value "options"] := hslots
      simp [Decl.kind, Body.kind, Decode.body, hvalues, hoptions]
  | record r =>
      have hfields : Decode.orElse [] (Decode.list (Decode.field true) room) (value "fields") =
          some r.fields :=
        orElse_list (hholds (listSlot "fields" IsField r.fields) (by simp [bodySlots]))
          fun _ _ _ _ hf hn => decode_field hf hn
      have hconsts : Decode.orElse [] (Decode.list (Decode.const true) room) (value "consts") =
          some r.consts :=
        orElse_list (hholds (listSlot "consts" IsConst r.consts) (by simp [bodySlots]))
          fun c hc _ _ hj hn => decode_const hj (horder c hc) hn
      have hext : Decode.orElse {} (Decode.extension room) (value "ext") = some r.ext :=
        orElse_eq (hholds ⟨"ext", IsExtension r.ext, r.ext = {}⟩ (by simp [bodySlots])) id
          fun _ hj hn => decode_extension hj hn
      have hvalues : Json.slots ["fields", "consts", "ext"] j =
          some [value "fields", value "consts", value "ext"] := hslots
      simp [Decl.kind, Body.kind, Decode.body, hvalues, hfields, hconsts, hext]
  | interface i =>
      have hparams : Decode.orElse [] (Decode.list (fun _ => asText) room)
          (value "type_params") = some i.typeParams :=
        orElse_list (hholds (listSlot "type_params" (fun s j => j = .text s) i.typeParams)
          (by simp [bodySlots])) (by rintro s - _ k rfl -; rfl)
      have hmethods : Decode.orElse [] (Decode.list (Decode.method true) room)
          (value "methods") = some i.methods :=
        orElse_list (hholds (listSlot "methods" IsMethod i.methods) (by simp [bodySlots]))
          fun _ _ _ _ hm hn => decode_method hm hn
      have hconsts : Decode.orElse [] (Decode.list (Decode.const true) room) (value "consts") =
          some i.consts :=
        orElse_list (hholds (listSlot "consts" IsConst i.consts) (by simp [bodySlots]))
          fun c hc _ _ hj hn => decode_const hj (horder c hc) hn
      have hvalues : Json.slots ["type_params", "methods", "consts"] j =
          some [value "type_params", value "methods", value "consts"] := hslots
      simp [Decl.kind, Body.kind, Decode.body, hvalues, hparams, hmethods, hconsts]

theorem decode_decl {d : Decl} (h : IsDecl d j) (horder : ∀ c ∈ d.consts, c.value.InOrder)
    (hroom : j.nesting ≤ room) : Decode.decl room j = some d := by
  have hapart : ∀ kind, (["ident", "doc", "kind"] ++ bodyKeys kind).Nodup := by
    intro kind
    cases kind <;> decide
  have hkeys : ([textSlot "ident" d.name, docSlot d.doc, textSlot "kind" d.kind.name] ++
      bodySlots d.body).map (·.key) = ["ident", "doc", "kind"] ++ bodyKeys d.kind := by
    rw [List.map_append, keys_bodySlots]
    rfl
  obtain ⟨k, value, rfl, hholds, hslots⟩ := h.exists_values _ hkeys (hapart d.kind) hroom
  have hname : value "ident" = some (.text d.name) :=
    eq_of_textSlot (hholds (textSlot "ident" d.name) (by simp))
  have hdoc : Decode.orElse [] (Decode.doc k) (value "doc") = some d.doc :=
    orElse_doc (hholds (docSlot d.doc) (by simp))
  have hkind : value "kind" = some (.text d.kind.name) :=
    eq_of_textSlot (hholds (textSlot "kind" d.kind.name) (by simp))
  have hbody : Decode.body k j d.kind = some d.body :=
    decode_body (fun slot hslot => hholds slot (List.mem_append_right _ hslot))
      (hslots _ fun key hkey => List.mem_append_right _ hkey) horder
  have hvalues := hslots ["ident", "doc", "kind"] (fun key hkey => List.mem_append_left _ hkey)
  simp only [List.map_cons, List.map_nil, hname, hkind] at hvalues
  have hmembers : Decode.declMembers k j = some d := by
    have hkind' : Decode.kind (.text d.kind.name) = some d.kind := ofName?_kind d.kind
    simp [Decode.declMembers, hvalues, asText_text, hdoc, hkind', hbody]
  have hsound := h.sound_eq_true
  obtain ⟨members, _, _, rfl, -⟩ := h
  simp [Decode.decl, hsound, hroom, hmembers]

/-- Every form of a document within the room is read as the document. -/
theorem decode_document {doc : Document} (h : IsDocument doc j)
    (horder : ∀ d ∈ doc.decls, ∀ c ∈ d.consts, c.value.InOrder) (hroom : j.nesting ≤ room) :
    Decode.document room j = some doc := by
  obtain ⟨k, value, rfl, hholds, hslots⟩ :=
    h.exists_values ["origin", "decls"] rfl (by decide) hroom
  have horigin : Decode.orElse "" asText (value "origin") = some doc.origin :=
    orElse_eq (hholds ⟨"origin", (· = .text doc.origin), doc.origin = ""⟩ (by simp)) id
      (by rintro _ rfl -; rfl)
  have hdecls : Decode.orElse [] (Decode.list Decode.decl k) (value "decls") = some doc.decls :=
    orElse_list (hholds (listSlot "decls" IsDecl doc.decls) (by simp))
      fun d hd _ _ hj hn => decode_decl hj (horder d hd) hn
  have hvalues := hslots ["origin", "decls"] (by simp)
  simp [Decode.document, hvalues, horigin, hdecls]

end Form

end IdlBinder

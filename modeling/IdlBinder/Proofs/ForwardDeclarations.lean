import IdlBinder.Proofs.NativeNeeds
import IdlBinder.Proofs.OwnerFiles
import IdlBinder.Proofs.References

set_option autoImplicit false

/-!
# Forward declarations and definitions

A header declares in advance the interfaces that its types name, and a record that names itself. The
number of type parameters in such a line is counted off the arguments at the place of use, that of
the definition off the declaration; the check of types is all that ties them together.
`forward_declarations_agree`: what a forward declaration says of a class, its definition says too.
-/

namespace IdlBinder

open Traversal Code

/-! ## What is declared in advance -/

/-- The words that introduce a type of a kind. -/
def Kind.classKey : Kind → String
  | enum => "enum class"
  | record => "struct"
  | interface => "class"

/-- The forward declaration of a class or of a template with so many parameters. -/
def forwardText (key name : String) (arity : Nat) : String :=
  (if arity = 0 then ""
    else "template <" ++ ", ".intercalate (List.replicate arity "typename") ++ "> ") ++
    key ++ " " ++ name ++ ";"

/-- The header of `d` declares `named` in advance with so many parameters, because a type of `d` has
it with so many arguments. Only other interfaces are so declared, and `d` itself if it is a record.
-/
structure Forwards (doc : Document) (d named : Decl) (arity : Nat) : Prop where
  mem : named ∈ doc.decls
  node : ∃ t ∈ d.types, ∃ n ∈ t.nodes,
    n.head = .declared ⟨named.name, named.kind⟩ ∧ n.args.length = arity
  which : (named.kind = .interface ∧ d.name ≠ named.name) ∨
    (named.kind = .record ∧ d.name = named.name)

/-- A record has no arguments. -/
theorem WellFormed.length_args_of_record {doc : Document} {params : List String} {n : TypeExpr}
    {name : String} (hw : WellFormed doc params n) (hhead : n.head = .declared ⟨name, .record⟩) :
    n.args.length = 0 := by
  obtain ⟨head, args⟩ := n
  obtain rfl : head = .declared ⟨name, .record⟩ := hhead
  rw [TypeExpr.args, hw.args_eq_nil (by simp)]
  rfl

namespace Native

variable {s : Settings} {text : String}

theorem forwardDecl_record (name : String) :
    forwardDecl s ⟨name, .record⟩ 0 = forwardText "struct" (s.nativeType name) 0 := by
  simp [forwardDecl, forwardText]

theorem forwardDecl_interface (name : String) (arity : Nat) :
    forwardDecl s ⟨name, .interface⟩ arity = forwardText "class" (s.nativeType name) arity := by
  by_cases harity : arity = 0
  · simp [forwardDecl, forwardText, harity]
  · simp [forwardDecl, forwardText, harity, String.append_assoc]

/-- In a header, a node needs a forward declaration if it names another interface, or the owner if
this is a record. -/
theorem forward_mem_needs_iff {n : TypeExpr} {owner : String} :
    .forward text ∈ needs s n .header (some owner) ↔
      ∃ ref, n.head = .declared ref ∧
        ((ref.kind = .interface ∧ owner ≠ ref.name ∧ text = forwardDecl s ref n.args.length) ∨
          (ref.kind = .record ∧ owner = ref.name ∧ text = forwardDecl s ref 0)) := by
  rw [mem_needs_iff]
  simp only [Need.forward.injEq, reduceCtorEq, and_false, exists_false, false_or]
  refine exists_congr fun ref => and_congr_right fun _ => ?_
  rw [DefRef.IsForwarded]
  cases hkind : ref.kind with
  | enum => simp
  | record => simp [forwardDecl, hkind]
  | interface => simp

/-- The types of a declaration need the forward declarations of `Forwards` and no others. -/
theorem forward_mem_collectAll_iff {doc : Document} {d : Decl}
    (hw : ∀ t ∈ d.types, WellFormed doc d.typeParams t) :
    .forward text ∈ References.collectAll (needs s) .header (some d.name) d.types ↔
      ∃ named arity, Forwards doc d named arity ∧
        text = forwardText named.kind.classKey (s.nativeType named.name) arity := by
  rw [References.mem_collectAll]
  constructor
  · rintro ⟨-, t, ht, n, hn, hneed⟩
    obtain ⟨⟨name, kind⟩, hhead, href⟩ := forward_mem_needs_iff.mp hneed
    have hnode := (hw t ht).of_mem_nodes hn
    obtain ⟨named, hnamed, rfl, rfl, -⟩ := hnode.exists_decl hhead
    refine ⟨named, n.args.length, ⟨hnamed, ⟨t, ht, n, hn, hhead, rfl⟩, ?_⟩, ?_⟩
    · rcases href with ⟨hkind, howner, -⟩ | ⟨hkind, howner, -⟩
      · exact Or.inl ⟨hkind, howner⟩
      · exact Or.inr ⟨hkind, howner⟩
    · rcases href with ⟨hkind, -, rfl⟩ | ⟨hkind, -, rfl⟩
      · rw [show named.kind = .interface from hkind]
        exact forwardDecl_interface _ _
      · rw [show named.kind = .record from hkind] at hhead ⊢
        rw [hnode.length_args_of_record hhead]
        exact forwardDecl_record _
  · rintro ⟨named, arity, ⟨hnamed, ⟨t, ht, n, hn, hhead, rfl⟩, hwhich⟩, rfl⟩
    have hnode := (hw t ht).of_mem_nodes hn
    refine ⟨rfl, t, ht, n, hn, forward_mem_needs_iff.mpr ⟨_, hhead, ?_⟩⟩
    rcases hwhich with ⟨hkind, howner⟩ | ⟨hkind, howner⟩
    · refine Or.inl ⟨hkind, howner, ?_⟩
      rw [hkind]
      exact (forwardDecl_interface _ _).symm
    · refine Or.inr ⟨hkind, howner, ?_⟩
      rw [hkind] at hhead ⊢
      rw [hnode.length_args_of_record hhead]
      exact (forwardDecl_record _).symm

end Native

/-! ## Which files declare something in advance -/

namespace Emitter

variable {e : Emitter} {d : Decl} {text : String}

/-- The header with the body declares in advance what the types of the declaration need. -/
theorem mem_forwards_bodyFile (defs : List Cpp.ConstDef) :
    text ∈ (e.bodyFile d defs).forwards ↔
      .forward text ∈ References.collectAll e.native.needs .header (some d.name) d.types := by
  cases hbody : d.body with
  | enum enum =>
      have hnone : .forward text ∉ e.enumReferences := by
        rw [enumReferences]
        split <;> simp
      simp only [bodyFile, Decl.types, hbody]
      exact ⟨fun h => absurd h hnone, fun h => absurd h (References.notMem_empty _)⟩
  | record r =>
      simp only [bodyFile, Decl.types, hbody]
      show .forward text ∈ e.structReferences d r ↔ _
      rw [structReferences]
      split
      · rfl
      · simp
  | interface i =>
      simp only [bodyFile, Decl.types, hbody]
      rfl

/-- No other file declares anything in advance. -/
theorem Emits.eq_bodyFile {f : Cpp.SourceFile} (h : e.Emits d f) (htext : text ∈ f.forwards) :
    ∃ defs, f = e.bodyFile d defs := by
  cases h with
  | enumHeader hbody => exact ⟨[], by simp [bodyFile, hbody]⟩
  | classHeader consts hbody => exact ⟨consts, by simp [bodyFile, hbody]⟩
  | structHeader hbody => exact ⟨[], by simp [bodyFile, hbody]⟩
  | classSource consts hbody => cases htext
  | structSource hbody hsource =>
      obtain ⟨consts, rfl⟩ := structSource_eq_ok hsource
      cases htext
  | bridgeHeader hbody =>
      have hmem : .forward text ∈ e.bridgeDeclReferences d := htext
      simp [bridgeDeclReferences] at hmem
  | bridgeSource hbody => cases htext

/-- The forward declarations come first in the namespace of the file. -/
theorem exists_outline_bodyFile (hkind : d.kind ≠ .enum) (defs : List Cpp.ConstDef) :
    ∃ rest, outline e.settings.nativeNamespace (e.bodyFile d defs).code =
      (e.bodyFile d defs).forwards.map .line ++ rest := by
  cases hbody : d.body with
  | enum enum => exact absurd (congrArg Body.kind hbody) hkind
  | record r =>
      simp only [bodyFile, hbody]
      exact ⟨_, Cpp.SourceFile.outline_code (f := e.structHeader d r) rfl⟩
  | interface i =>
      simp only [bodyFile, hbody]
      exact ⟨_, Cpp.SourceFile.outline_code (f := e.classHeader d i defs) rfl⟩

end Emitter

/-! ## Declarations and definitions of a run -/

/-- A header defines a declaration under its plain name, with so many type parameters. -/
structure Defines (s : Settings) (named : Decl) (arity : Nat) (f : Cpp.SourceFile) : Prop where
  path : f.path = s.headerPath (s.fileStem named.name)
  outline : ∃ params suffix after, params.length = arity ∧ suffix ∈ ["", " final"] ∧
    outline s.nativeNamespace f.code =
      f.forwards.map .line ++ (templateLines params).map .line ++
        .opening (named.kind.classKey ++ " " ++ s.nativeType named.name ++ suffix) :: after

/-- The body of a declaration that is not finished by hand is opened under the plain name. -/
theorem Settings.bodyHead_of_plain {s : Settings} {d : Decl} (hkind : d.kind ≠ .enum)
    (hplain : ∀ b, d.body = .record b → b.ext.native = false) :
    s.bodyStem d = s.fileStem d.name ∧
      ∃ suffix ∈ ["", " final"],
        s.bodyHead d = d.kind.classKey ++ " " ++ s.nativeType d.name ++ suffix := by
  cases hbody : d.body with
  | enum enum => exact absurd (congrArg Body.kind hbody) hkind
  | record b =>
      have hnative := hplain b hbody
      refine ⟨?_, " final", by simp, ?_⟩
      · simp [bodyStem, recordFileStem, recordBase, fileStem, hbody, hnative]
      · simp [bodyHead, bodyName, structName, recordBase, nativeType, Decl.kind, Body.kind,
          Kind.classKey, hbody, hnative, String.append_assoc]
  | interface i =>
      refine ⟨by simp [bodyStem, hbody], "", by simp, ?_⟩
      simp [bodyHead, bodyName, Decl.kind, Body.kind, Kind.classKey, hbody]

namespace Generator.Run

variable {s : Settings} {doc : Document} {r : Registry}
variable {blocks : List (Decl × List Cpp.SourceFile)} {d named : Decl}
variable (hrun : (standard s).Run doc r blocks)
include hrun

/-- The number of arguments at a place of use is the number of type parameters. -/
theorem arity_eq_of_forwards {arity : Nat} (hd : d ∈ doc.decls)
    (h : Forwards doc d named arity) : arity = named.typeParams.length := by
  obtain ⟨t, ht, n, hn, hhead, rfl⟩ := h.node
  have hw := (hrun.checked.types d hd t ht).of_mem_nodes hn
  obtain ⟨found, hfound, hname, -, hlength⟩ := hw.exists_decl hhead
  obtain rfl : found = named :=
    eq_of_nodup_map (Registry.indexes_of_build hrun.build).2 hfound h.mem hname
  exact hlength

/-- A declaration that is not finished by hand is defined in its header. -/
theorem exists_defines (hnamed : named ∈ doc.decls) (hkind : named.kind ≠ .enum)
    (hplain : ∀ b, named.body = .record b → b.ext.native = false) :
    ∃ f ∈ filesOf named.name (ownedFiles blocks), Defines s named named.typeParams.length f := by
  obtain ⟨hstem, suffix, hsuffix, hhead⟩ := s.bodyHead_of_plain hkind hplain
  obtain ⟨defs, hdefs, hfile⟩ := hrun.exists_bodyFile hnamed
  have houtline := Emitter.outline_bodyFile (e := (standard s).emitterOf doc r) hkind defs hdefs
  rw [settings_emitterOf, settings_standard, hhead] at houtline
  refine ⟨_, hfile, ?_, s.paramNames named, suffix, _, List.length_map _, hsuffix, houtline⟩
  rw [Emitter.path_bodyFile]
  exact congrArg s.headerPath hstem

/-- The files of a declaration declare in advance what `Forwards` says, inside the namespace. -/
theorem forwards_of_mem (hd : d ∈ doc.decls) {f : Cpp.SourceFile}
    (hf : f ∈ filesOf d.name (ownedFiles blocks)) {text : String} (htext : text ∈ f.forwards) :
    (∃ named arity, Forwards doc d named arity ∧
      text = forwardText named.kind.classKey (s.nativeType named.name) arity) ∧
    ∃ rest, outline s.nativeNamespace f.code = f.forwards.map .line ++ rest := by
  obtain ⟨defs, rfl⟩ :=
    (Emitter.emits_of_mem (hrun.declFiles_filesOf hd) hf).eq_bodyFile htext
  have hneed := (Emitter.mem_forwards_bodyFile defs).mp htext
  obtain ⟨named, arity, hforwards, rfl⟩ :=
    (Native.forward_mem_collectAll_iff (hrun.checked.types d hd)).mp hneed
  have hkind : d.kind ≠ .enum := by
    intro henum
    obtain ⟨enum, hbody⟩ := Decl.exists_enum henum
    -- An enum has no types that could name anything.
    obtain ⟨t, ht, -⟩ := hforwards.node
    simp [Decl.types, hbody] at ht
  exact ⟨⟨named, arity, hforwards, rfl⟩,
    Emitter.exists_outline_bodyFile (e := (standard s).emitterOf doc r) hkind defs⟩

end Generator.Run

/-- In a run with the standard marshals, the forward declarations are those of `Forwards`. Their
class key, their name, their namespace and their number of parameters are those of the definition,
which is in the header of the declaration unless this is finished by hand. So no declaration is
declared in advance with two numbers of parameters, and no interface in its own header. -/
theorem forward_declarations_agree (s : Settings) {doc : Document} {artifacts : List Artifact}
    (h : (Generator.standard s).generate doc = .ok artifacts) :
    ∃ files, (Generator.standard s).files doc = .ok files ∧
      artifacts = files.map (·.file.artifact) ∧
      (∀ f ∈ files, ∃ d ∈ doc.decls, f.owner = d.name ∧ ∀ text ∈ f.file.forwards,
        (∃ named arity, Forwards doc d named arity ∧
          text = forwardText named.kind.classKey (s.nativeType named.name) arity) ∧
        ∃ rest, outline s.nativeNamespace f.file.code = f.file.forwards.map .line ++ rest) ∧
      (∀ d ∈ doc.decls, ∀ named arity, Forwards doc d named arity →
        (∃ f ∈ filesOf d.name files,
          forwardText named.kind.classKey (s.nativeType named.name) arity ∈ f.forwards) ∧
        ((∀ b, named.body = .record b → b.ext.native = false) →
          ∃ f ∈ filesOf named.name files, Defines s named arity f) ∧
        (∀ other, Forwards doc d named other → arity = other) ∧
        (named.kind = .interface → named ≠ d)) := by
  obtain ⟨r, blocks, hrun, hfiles, rfl⟩ := Generator.exists_run h
  refine ⟨_, hfiles, rfl, fun f hf => ?_, fun d hd named arity hforwards => ?_⟩
  · obtain ⟨d, hd, howner, hfile⟩ := hrun.exists_owner hf
    exact ⟨d, hd, howner, fun text htext => hrun.forwards_of_mem hd hfile htext⟩
  have harity := hrun.arity_eq_of_forwards hd hforwards
  refine ⟨?_, fun hplain => ?_, fun other hother => ?_, fun hkind hself => ?_⟩
  · obtain ⟨defs, -, hfile⟩ := hrun.exists_bodyFile hd
    refine ⟨_, hfile, (Emitter.mem_forwards_bodyFile defs).mpr ?_⟩
    exact (Native.forward_mem_collectAll_iff (hrun.checked.types d hd)).mpr
      ⟨named, arity, hforwards, rfl⟩
  · rw [harity]
    refine hrun.exists_defines hforwards.mem (fun henum => ?_) hplain
    rcases hforwards.which with ⟨hkind, -⟩ | ⟨hkind, -⟩
    · rw [henum] at hkind
      cases hkind
    · rw [henum] at hkind
      cases hkind
  · rw [harity, hrun.arity_eq_of_forwards hd hother]
  · rcases hforwards.which with ⟨-, hne⟩ | ⟨hrecord, -⟩
    · exact hne (congrArg Decl.name hself.symm)
    · rw [hkind] at hrecord
      cases hrecord

namespace Sample

def relay : Decl := ⟨"relay", [], .interface { typeParams := ["item", "key"] }⟩

/-- A record that names a generic interface inside a list, and itself. -/
def desk : Decl :=
  ⟨"desk", [], .record {
    fields := [⟨"feeds", [], .node .list [.node (.declared ⟨"relay", .interface⟩)
        [.prim .i32, .prim .string]]⟩,
      ⟨"next", [], .node .optional [.node (.declared ⟨"desk", .record⟩) []]⟩] }⟩

def desks : Document := { decls := [desk, relay] }

end Sample

open Sample in
theorem desks_forwards_agree :
    ∃ files, (Generator.standard {}).files desks = .ok files ∧
      (filesOf "desk" files).map (·.forwards) =
        [["struct Desk;", "template <typename, typename> class Relay;"], [], []] ∧
      (filesOf "relay" files).map (fun f => outline "bridge" f.code) =
        [[.line "template <typename Item, typename Key>", .opening "class Relay"]] ∧
      Forwards desks desk relay 2 ∧ (∃ f ∈ filesOf "relay" files, Defines {} relay 2 f) ∧
      Forwards desks desk desk 0 ∧ ∃ f ∈ filesOf "desk" files, Defines {} desk 0 f := by
  have hrun : ((Generator.standard {}).files desks).toOption.map (fun files =>
      ((filesOf "desk" files).map (·.forwards),
        (filesOf "relay" files).map fun f => outline "bridge" f.code)) =
      some ([["struct Desk;", "template <typename, typename> class Relay;"], [], []],
        [[.line "template <typename Item, typename Key>", .opening "class Relay"]]) := by
    decide +kernel
  obtain ⟨files, hfiles, hvalues⟩ := toOption_map_eq_some.mp hrun
  obtain ⟨hdesk, hrelay⟩ := Prod.mk.inj hvalues
  have hgenerate : (Generator.standard {}).generate desks = .ok (files.map (·.file.artifact)) :=
    map_eq_ok.mpr ⟨files, hfiles, rfl⟩
  obtain ⟨files', hfiles', -, -, hagree⟩ := forward_declarations_agree {} hgenerate
  obtain rfl : files = files' := Except.ok.inj (hfiles.symm.trans hfiles')
  have hmem : desk ∈ desks.decls := by simp [desks]
  have hother : Forwards desks desk relay 2 :=
    ⟨by simp [desks], ⟨_, List.mem_cons_self, .node (.declared ⟨"relay", .interface⟩)
      [.prim .i32, .prim .string], by decide, rfl, rfl⟩, Or.inl ⟨rfl, by decide⟩⟩
  have hself : Forwards desks desk desk 0 :=
    ⟨hmem, ⟨_, List.mem_cons_of_mem _ List.mem_cons_self, .node (.declared ⟨"desk", .record⟩) [],
      by decide, rfl, rfl⟩, Or.inr ⟨rfl, rfl⟩⟩
  refine ⟨files, hfiles, hdesk, hrelay, hother, ?_, hself, ?_⟩
  · exact (hagree desk hmem relay 2 hother).2.1 fun b hbody => by cases hbody
  · exact (hagree desk hmem desk 0 hself).2.1 fun b hbody => by cases hbody; rfl

end IdlBinder

import IdlBinder.Proofs.Inclusion
import Mathlib.Logic.Relation

set_option autoImplicit false

/-!
# Circles of include lines

Headers name enums and records by including them, and only a record that names itself is spared the
include line. The header of an enum includes no generated header, and nothing includes the header of
an interface or of a bridge, so the headers of a circle belong to records. `headers_acyclic_iff`:
the headers of a run include each other in a circle exactly if records of the document refer to each
other in one. `pair_in_circle` is the smallest such document.
-/

namespace IdlBinder

open Traversal

/-! ## The two graphs -/

/-- One header of a run includes another. -/
structure Includes (s : Settings) (files : List OwnedFile) (f g : OwnedFile) : Prop where
  mem : f ∈ files
  isHeader : f.file.ownHeader = none
  target_mem : g ∈ files
  target_isHeader : g.file.ownHeader = none
  line : ∃ stem, s.includeTarget stem ∈ Code.targetsAll f.file.code ∧
    g.file.path.components = (s.headerPath stem).components

/-- A record whose struct has the plain name, because it is not finished by hand. -/
def Decl.IsPlainRecord (d : Decl) : Prop := ∃ r, d.body = .record r ∧ r.ext.native = false

/-- A record of a document has another one in the type of a field or of a constant. -/
structure Refers (doc : Document) (d d' : Decl) : Prop where
  mem : d ∈ doc.decls
  isRecord : d.IsPlainRecord
  target_mem : d' ∈ doc.decls
  target_isRecord : d'.IsPlainRecord
  name_ne : d.name ≠ d'.name
  node : ∃ t ∈ d.types, ∃ n ∈ t.nodes, n.head = .declared ⟨d'.name, .record⟩

/-- No artifact lies where the plain header of a record is written by hand. -/
def LeavesHandHeaders (s : Settings) (doc : Document) (artifacts : List Artifact) : Prop :=
  ∀ d ∈ doc.decls, ∀ r, d.body = .record r → r.ext.native = true →
    ∀ a ∈ artifacts, a.path.components ≠ (s.headerPath (s.fileStem d.name)).components

/-! ## Include lines between headers -/

namespace Native

variable {s : Settings} {n : TypeExpr} {owner : Option String}

/-- In a header, enums and other records are named by an include line, and nothing else is. -/
theorem mem_header_needs_iff {stem : String} :
    .inclusion (s.includeTarget stem) ∈ needs s n .header owner ↔
      ∃ ref, n.head = .declared ref ∧ stem = s.fileStem ref.name ∧ ref.kind ≠ .interface ∧
        (ref.kind = .record → owner ≠ some ref.name) := by
  rw [quoted_mem_needs_iff (s.quoted_includeTarget stem)]
  refine exists_congr fun ref => and_congr_right fun _ => ?_
  have htarget : s.includeTarget stem = s.includeTarget (s.fileStem ref.name) ↔
      stem = s.fileStem ref.name := ⟨Settings.includeTarget_inj, congrArg _⟩
  rw [htarget, and_comm, DefRef.IsIncluded]
  cases ref.kind <;> simp

end Native

namespace Emitter

theorem mem_structReferences_of_mem_collectAll {e : Emitter} {d : Decl} {b : Record} {x : Need}
    (h : x ∈ References.collectAll e.native.needs .header (some d.name) b.types) :
    x ∈ e.structReferences d b := by
  rw [structReferences]
  split
  · exact h
  · exact References.mem_addInclude.mpr (Or.inr h)

/-- The plain header of an enum, or of a record that is not finished by hand. -/
inductive PlainHeader (e : Emitter) (d : Decl) : Cpp.SourceFile → Prop where
  | enum {enum : Enum} : d.body = .enum enum → PlainHeader e d (e.enumHeader d enum)
  | struct {r : Record} :
      d.body = .record r → r.ext.native = false → PlainHeader e d (e.structHeader d r)

/-- The file that holds the struct of a record with the plain name. -/
def HoldsStruct (e : Emitter) (f : OwnedFile) (d : Decl) : Prop :=
  ∃ b, d.body = .record b ∧ b.ext.native = false ∧ f = ownedBy d.name (e.structHeader d b)

end Emitter

namespace Generator.Run

variable {s : Settings} {doc : Document} {r : Registry}
variable {blocks : List (Decl × List Cpp.SourceFile)} {d : Decl} {f g : OwnedFile}
variable (hrun : (standard s).Run doc r blocks)
include hrun

theorem eq_of_name_eq {d' : Decl} (hd : d ∈ doc.decls) (hd' : d' ∈ doc.decls)
    (hname : d.name = d'.name) : d = d' :=
  eq_of_nodup_map (Registry.indexes_of_build hrun.build).2 hd hd' hname

theorem eq_of_place_eq (hf : f ∈ ownedFiles blocks) (hg : g ∈ ownedFiles blocks)
    (hplace : f.file.path.components = g.file.path.components) : f = g :=
  eq_of_nodup_map hrun.nodup_places hf hg hplace

/-- The plain header of an enum or of a record that is not finished by hand is a file of the run. -/
theorem exists_plainHeader (hd : d ∈ doc.decls) (hkind : d.kind ≠ .interface)
    (hplain : ∀ b, d.body = .record b → b.ext.native = false) :
    ∃ file, ((standard s).emitterOf doc r).PlainHeader d file ∧
      ownedBy d.name file ∈ ownedFiles blocks ∧
      file.path = s.headerPath (s.fileStem d.name) := by
  obtain ⟨fs, hb⟩ := hrun.exists_block hd
  have hfs : ((standard s).emitterOf doc r).declFiles d = .ok fs := hrun.yields.files_eq _ hb
  have hmem : ∀ file ∈ fs, ownedBy d.name file ∈ ownedFiles blocks :=
    fun file hfile => List.mem_flatMap.mpr ⟨_, hb, List.mem_map_of_mem hfile⟩
  rw [Emitter.declFiles] at hfs
  cases hbody : d.body with
  | enum enum =>
      rw [hbody] at hfs
      cases hfs
      exact ⟨_, .enum hbody, hmem _ (List.mem_singleton_self _), rfl⟩
  | interface i => exact absurd (by simp [Decl.kind, hbody, Body.kind]) hkind
  | record b =>
      rw [hbody] at hfs
      obtain ⟨sources, rfl, -⟩ := Emitter.recordFiles_eq_ok hfs
      have hnative := hplain b hbody
      refine ⟨_, .struct hbody hnative, hmem _ List.mem_cons_self, ?_⟩
      simp [Emitter.structHeader, Emitter.header, Settings.recordFileStem, Settings.recordBase,
        Settings.fileStem, hnative]

/-- What lies at the place of a plain header is this header. -/
theorem eq_plainHeader (hhand : LeavesHandHeaders s doc ((ownedFiles blocks).map (·.file.artifact)))
    (hg : g ∈ ownedFiles blocks) (hd : d ∈ doc.decls) (hkind : d.kind ≠ .interface)
    (hplace : g.file.path.components = (s.headerPath (s.fileStem d.name)).components) :
    ∃ file, ((standard s).emitterOf doc r).PlainHeader d file ∧ g = ownedBy d.name file := by
  -- The plain header of a record that is finished by hand is no file of the run.
  have hplain : ∀ b, d.body = .record b → b.ext.native = false := by
    intro b hbody
    cases hnative : b.ext.native with
    | false => rfl
    | true =>
        have hne := hhand d hd b hbody hnative g.file.artifact (List.mem_map_of_mem hg)
        exact absurd hplace hne
  obtain ⟨file, hfile, hmem, hpath⟩ := hrun.exists_plainHeader hd hkind hplain
  refine ⟨file, hfile, hrun.eq_of_place_eq hg hmem ?_⟩
  rw [hplace, ← hpath]
  rfl

/-- A generated header that a type is included by belongs to a declaration that the type names. -/
theorem exists_decl_of_mem_collectAll (hd : d ∈ doc.decls) {types : List TypeExpr}
    (htypes : ∀ t ∈ types, t ∈ d.types) {stem : String}
    (h : .inclusion (s.includeTarget stem) ∈
      References.collectAll (Native.needs s) .header (some d.name) types) :
    ∃ named ∈ doc.decls, stem = s.fileStem named.name ∧ named.kind ≠ .interface ∧
      (named.kind = .record → d.name ≠ named.name ∧
        ∃ t ∈ d.types, ∃ n ∈ t.nodes, n.head = .declared ⟨named.name, .record⟩) := by
  obtain ⟨-, t, ht, n, hn, hneed⟩ := References.mem_collectAll.mp h
  obtain ⟨ref, hhead, rfl, hkind, howner⟩ := Native.mem_header_needs_iff.mp hneed
  have hw := (hrun.checked.types d hd t (htypes t ht)).of_mem_nodes hn
  obtain ⟨named, hnamed, hname, hnamedKind, -⟩ := hw.exists_decl hhead
  rw [← hnamedKind] at hkind howner
  rw [← hname] at howner ⊢
  refine ⟨named, hnamed, rfl, hkind, fun hrecord => ⟨?_, t, htypes t ht, n, hn, ?_⟩⟩
  · exact fun hself => howner hrecord (congrArg some hself)
  · rw [hhead, hname, ← hrecord, hnamedKind]

/-- Only the plain headers of enums and records are included by other headers. -/
theorem exists_plainHeader_of_includes
    (hhand : LeavesHandHeaders s doc ((ownedFiles blocks).map (·.file.artifact)))
    (h : Includes s (ownedFiles blocks) f g) :
    ∃ d ∈ doc.decls, ∃ file,
      ((standard s).emitterOf doc r).PlainHeader d file ∧ g = ownedBy d.name file := by
  obtain ⟨stem, hline, hplace⟩ := h.line
  rw [Cpp.SourceFile.targetsAll_code] at hline
  have hq := s.quoted_includeTarget stem
  obtain ⟨d, hd, hemits⟩ := hrun.exists_emits h.mem
  have hheader := h.isHeader
  have hnamed : (∃ named ∈ doc.decls, stem = s.fileStem named.name ∧ named.kind ≠ .interface) := by
    -- By the kind of the file that the line stands in; sources are no headers.
    generalize hfile : f.file = file at hline hemits hheader
    cases hemits with
    | enumHeader hbody => exact absurd hq (Emitter.not_quoted_of_mem_enumReferences hline)
    | classHeader consts hbody =>
        obtain ⟨named, hnamed, hstem, hkind, -⟩ := hrun.exists_decl_of_mem_collectAll hd
          (fun t h => by simpa [Decl.types, hbody] using h)
          (Emitter.mem_allIncludes_header.mp hline)
        exact ⟨named, hnamed, hstem, hkind⟩
    | structHeader hbody =>
        have hneed := Emitter.mem_collectAll_of_mem_structReferences
          (Emitter.mem_allIncludes_header.mp hline) hq
        obtain ⟨named, hnamed, hstem, hkind, -⟩ := hrun.exists_decl_of_mem_collectAll hd
          (fun t h => by simpa [Decl.types, hbody] using h) hneed
        exact ⟨named, hnamed, hstem, hkind⟩
    | bridgeHeader hbody =>
        replace hline := Emitter.mem_allIncludes_header.mp hline
        simp only [Emitter.bridgeDeclReferences, References.mem_addInclude,
          References.notMem_empty, Need.inclusion.injEq, or_false] at hline
        rcases hline with hprojection | hown
        · exact absurd (hprojection ▸ hq) s.not_quoted_projectionHeader
        · exact ⟨d, hd, Settings.includeTarget_inj hown, by simp [Decl.kind, hbody, Body.kind]⟩
    | classSource consts hbody => cases hheader
    | structSource hbody hsource =>
        obtain ⟨consts, rfl⟩ := Emitter.structSource_eq_ok hsource
        cases hheader
    | bridgeSource hbody => cases hheader
  obtain ⟨named, hnamed, rfl, hkind⟩ := hnamed
  exact ⟨named, hnamed, hrun.eq_plainHeader hhand h.target_mem hnamed hkind hplace⟩

/-- A header that includes a header and is included by one holds the struct of a record. -/
theorem exists_holdsStruct {before after : OwnedFile}
    (hhand : LeavesHandHeaders s doc ((ownedFiles blocks).map (·.file.artifact)))
    (hin : Includes s (ownedFiles blocks) before f)
    (hout : Includes s (ownedFiles blocks) f after) :
    ∃ d ∈ doc.decls, ((standard s).emitterOf doc r).HoldsStruct f d := by
  obtain ⟨d, hd, file, hfile, rfl⟩ := hrun.exists_plainHeader_of_includes hhand hin
  cases hfile with
  | struct hbody hnative => exact ⟨d, hd, _, hbody, hnative, rfl⟩
  | enum hbody =>
      -- The header of an enum includes nothing that is generated.
      obtain ⟨stem, hline, -⟩ := hout.line
      rw [Cpp.SourceFile.targetsAll_code] at hline
      exact absurd (s.quoted_includeTarget stem) (Emitter.not_quoted_of_mem_enumReferences hline)

/-- If the header of a record includes that of another, the record refers to it. -/
theorem refers_of_includes {d' : Decl}
    (hhand : LeavesHandHeaders s doc ((ownedFiles blocks).map (·.file.artifact)))
    (hd : d ∈ doc.decls) (hf : ((standard s).emitterOf doc r).HoldsStruct f d)
    (hd' : d' ∈ doc.decls) (hg : ((standard s).emitterOf doc r).HoldsStruct g d')
    (h : Includes s (ownedFiles blocks) f g) : Refers doc d d' := by
  obtain ⟨b, hbody, hnative, rfl⟩ := hf
  obtain ⟨stem, hline, hplace⟩ := h.line
  rw [Cpp.SourceFile.targetsAll_code] at hline
  have hneed := Emitter.mem_collectAll_of_mem_structReferences
    (Emitter.mem_allIncludes_header.mp hline) (s.quoted_includeTarget stem)
  obtain ⟨named, hnamed, rfl, hkind, hrecord⟩ := hrun.exists_decl_of_mem_collectAll hd
    (fun t h => by simpa [Decl.types, hbody] using h) hneed
  obtain ⟨file, -, hsame⟩ := hrun.eq_plainHeader hhand h.target_mem hnamed hkind hplace
  obtain ⟨b', hbody', hnative', rfl⟩ := hg
  obtain rfl : named = d' := hrun.eq_of_name_eq hnamed hd' (congrArg OwnedFile.owner hsame).symm
  obtain ⟨hne, hnode⟩ := hrecord (by simp [Decl.kind, hbody', Body.kind])
  exact ⟨hd, ⟨b, hbody, hnative⟩, hnamed, ⟨b', hbody', hnative'⟩, hne, hnode⟩

/-- The struct of a record with the plain name is in a file of the run. -/
theorem holdsStruct_mem (hd : d ∈ doc.decls)
    (hf : ((standard s).emitterOf doc r).HoldsStruct f d) :
    f ∈ ownedFiles blocks ∧ f.file.path = s.headerPath (s.fileStem d.name) := by
  obtain ⟨b, hbody, hnative, rfl⟩ := hf
  have hplain : ∀ b', d.body = .record b' → b'.ext.native = false := by
    intro b' hbody'
    cases hbody.symm.trans hbody'
    exact hnative
  obtain ⟨file, hfile, hmem, hpath⟩ :=
    hrun.exists_plainHeader hd (by simp [Decl.kind, hbody, Body.kind]) hplain
  cases hfile with
  | enum hbody' => cases hbody.symm.trans hbody'
  | struct hbody' _ =>
      cases hbody.symm.trans hbody'
      exact ⟨hmem, hpath⟩

/-- If a record refers to another, its header includes the header of this one. -/
theorem includes_of_refers {d' : Decl} (h : Refers doc d d')
    (hf : ((standard s).emitterOf doc r).HoldsStruct f d)
    (hg : ((standard s).emitterOf doc r).HoldsStruct g d') :
    Includes s (ownedFiles blocks) f g := by
  obtain ⟨hfmem, -⟩ := hrun.holdsStruct_mem h.mem hf
  obtain ⟨hgmem, hgpath⟩ := hrun.holdsStruct_mem h.target_mem hg
  obtain ⟨b, hbody, -, rfl⟩ := hf
  obtain ⟨b', hbody', -, rfl⟩ := hg
  refine ⟨hfmem, rfl, hgmem, rfl, s.fileStem d'.name, ?_, congrArg Path.components hgpath⟩
  obtain ⟨t, ht, n, hn, hhead⟩ := h.node
  have htypes : t ∈ b.types := by simpa [Decl.types, hbody] using ht
  have howner : some d.name ≠ some d'.name := fun heq => h.name_ne (Option.some.inj heq)
  rw [Cpp.SourceFile.targetsAll_code]
  refine Emitter.mem_allIncludes_header.mpr (Emitter.mem_structReferences_of_mem_collectAll ?_)
  exact References.mem_collectAll.mpr ⟨rfl, t, htypes, n, hn,
    Native.mem_header_needs_iff.mpr ⟨_, hhead, rfl, by simp, fun _ => howner⟩⟩

end Generator.Run

/-! ## Circles -/

section Circles

open Relation

variable {s : Settings} {doc : Document} {r : Registry}
variable {blocks : List (Decl × List Cpp.SourceFile)} {d : Decl} {f g : OwnedFile}

/-- A way along include lines from the header of a record to a header that includes another one is a
way along references. -/
theorem Generator.Run.transGen_refers (hrun : (standard s).Run doc r blocks)
    (hhand : LeavesHandHeaders s doc ((ownedFiles blocks).map (·.file.artifact)))
    {after : OwnedFile} (hd : d ∈ doc.decls) (hf : ((standard s).emitterOf doc r).HoldsStruct f d)
    (hway : TransGen (Includes s (ownedFiles blocks)) f g)
    (hout : Includes s (ownedFiles blocks) g after) :
    ∃ d' ∈ doc.decls, ((standard s).emitterOf doc r).HoldsStruct g d' ∧
      TransGen (Refers doc) d d' := by
  induction hway generalizing after with
  | single hstep =>
      obtain ⟨d', hd', hg⟩ := hrun.exists_holdsStruct hhand hstep hout
      exact ⟨d', hd', hg, .single (hrun.refers_of_includes hhand hd hf hd' hg hstep)⟩
  | tail _ hstep ih =>
      obtain ⟨mid, hmid, hheld, hrefers⟩ := ih hstep
      obtain ⟨d', hd', hg⟩ := hrun.exists_holdsStruct hhand hstep hout
      exact ⟨d', hd', hg, hrefers.tail (hrun.refers_of_includes hhand hmid hheld hd' hg hstep)⟩

/-- A way along references is a way along include lines. -/
theorem Generator.Run.transGen_includes (hrun : (standard s).Run doc r blocks) {d' : Decl}
    (hway : TransGen (Refers doc) d d') (hf : ((standard s).emitterOf doc r).HoldsStruct f d)
    (hg : ((standard s).emitterOf doc r).HoldsStruct g d') :
    TransGen (Includes s (ownedFiles blocks)) f g := by
  induction hway generalizing g with
  | single hstep => exact .single (hrun.includes_of_refers hstep hf hg)
  | tail _ hstep ih =>
      obtain ⟨b, hbody, hnative⟩ := hstep.isRecord
      -- What is passed on the way is a record too, and its struct is in a header.
      have hmid : ((standard s).emitterOf doc r).HoldsStruct _ _ := ⟨b, hbody, hnative, rfl⟩
      exact .tail (ih hmid) (hrun.includes_of_refers hstep hmid hg)

/-- In a run that leaves headers written by hand alone, no header includes itself, and headers
include each other in a circle exactly if records refer to each other in one. -/
theorem headers_acyclic_iff {artifacts : List Artifact}
    (h : (Generator.standard s).generate doc = .ok artifacts)
    (hhand : LeavesHandHeaders s doc artifacts) :
    ∃ files, (Generator.standard s).files doc = .ok files ∧
      artifacts = files.map (·.file.artifact) ∧
      (∀ f, ¬ Includes s files f f) ∧
      ((∀ f, ¬ TransGen (Includes s files) f f) ↔ ∀ d, ¬ TransGen (Refers doc) d d) := by
  rw [Generator.generate, map_eq_ok] at h
  obtain ⟨files, hfiles, rfl⟩ := h
  refine ⟨files, hfiles, rfl, ?_⟩
  obtain ⟨r, blocks, hrun, rfl⟩ := Generator.files_eq_ok_iff.mp hfiles
  refine ⟨fun f hself => ?_, ?_, ?_⟩
  · obtain ⟨d, hd, hf⟩ := hrun.exists_holdsStruct hhand hself hself
    exact (hrun.refers_of_includes hhand hd hf hd hf hself).name_ne rfl
  · intro hacyclic d hcircle
    obtain ⟨before, -, hlast⟩ := TransGen.tail'_iff.mp hcircle
    obtain ⟨b, hbody, hnative⟩ := hlast.target_isRecord
    exact hacyclic _ (hrun.transGen_includes hcircle ⟨b, hbody, hnative, rfl⟩
      ⟨b, hbody, hnative, rfl⟩)
  · intro hacyclic f hcircle
    -- Both neighbours of `f` on the circle show that it belongs to a record.
    obtain ⟨before, -, hlast⟩ := TransGen.tail'_iff.mp hcircle
    obtain ⟨after, hfirst, -⟩ := TransGen.head'_iff.mp hcircle
    obtain ⟨d, hd, hf⟩ := hrun.exists_holdsStruct hhand hlast hfirst
    obtain ⟨d', hd', hf', hrefers⟩ := hrun.transGen_refers hhand hd hf hcircle hfirst
    have hname : d.name = d'.name := by
      obtain ⟨b, -, -, rfl⟩ := hf
      obtain ⟨b', -, -, hsame⟩ := hf'
      exact congrArg OwnedFile.owner hsame
    obtain rfl := hrun.eq_of_name_eq hd hd' hname
    exact hacyclic d hrefers

end Circles

namespace Sample

def recordRef (name : String) : TypeExpr := .node (.declared ⟨name, .record⟩) []

def hub : Decl := ⟨"hub", [], .record { ext := { component := true } }⟩

/-- A record that is finished by hand on the native side. -/
def pen : Decl := ⟨"pen", [], .record { ext := { native := true } }⟩

/-- A record that refers to both, and to itself. -/
def arc : Decl :=
  ⟨"arc", [], .record {
    fields := [⟨"ends", [], .node .list [recordRef "hub"]⟩,
      ⟨"pen", [], recordRef "pen"⟩,
      ⟨"parent", [], .node .optional [recordRef "arc"]⟩] }⟩

def arcs : Document := { decls := [arc, pen, hub] }

def left : Decl :=
  ⟨"left", [], .record { fields := [⟨"others", [], .node .list [recordRef "right"]⟩] }⟩

def right : Decl :=
  ⟨"right", [], .record { fields := [⟨"others", [], .node .list [recordRef "left"]⟩] }⟩

/-- Two records that have lists of each other. -/
def pair : Document := { decls := [left, right] }

theorem names_of_refers {d d' : Decl} (h : Refers arcs d d') :
    d.name = "arc" ∧ d'.name = "hub" := by
  have hd : d = arc ∨ d = pen ∨ d = hub := by simpa [arcs] using h.mem
  have hd' : d' = arc ∨ d' = pen ∨ d' = hub := by simpa [arcs] using h.target_mem
  obtain ⟨t, ht, -⟩ := h.node
  rcases hd with rfl | rfl | rfl
  · refine ⟨rfl, ?_⟩
    rcases hd' with rfl | rfl | rfl
    · exact absurd rfl h.name_ne
    · obtain ⟨b, hbody, hnative⟩ := h.target_isRecord
      cases hbody
      cases hnative
    · rfl
  · cases ht
  · cases ht

end Sample

open Sample Relation

theorem arcs_acyclic :
    ∃ files, (Generator.standard {}).files arcs = .ok files ∧
      ∀ f, ¬ TransGen (Includes {} files) f f := by
  have hpaths : ((Generator.standard {}).generate arcs).toOption.map (·.map (·.path)) =
      some [⟨"include/arc.hpp"⟩, ⟨"include/arc_bridge.hpp"⟩, ⟨"src/arc_bridge.cpp"⟩,
        ⟨"include/pen_base.hpp"⟩, ⟨"include/pen_base_bridge.hpp"⟩,
        ⟨"src/pen_base_bridge.cpp"⟩, ⟨"include/hub.hpp"⟩, ⟨"include/hub_base_bridge.hpp"⟩,
        ⟨"src/hub_base_bridge.cpp"⟩] := by
    decide +kernel
  obtain ⟨artifacts, hgenerate, hpaths⟩ := toOption_map_eq_some.mp hpaths
  have hhand : LeavesHandHeaders {} arcs artifacts := by
    intro d hd b hbody hnative a ha
    have hd : d = arc ∨ d = pen ∨ d = hub := by simpa [arcs] using hd
    have ha : a.path ∈ artifacts.map (·.path) := List.mem_map_of_mem ha
    rw [hpaths] at ha
    rcases hd with rfl | rfl | rfl
    · cases hbody
      cases hnative
    · generalize a.path = p at ha
      revert p
      decide
    · cases hbody
      cases hnative
  obtain ⟨files, hfiles, -, -, hiff⟩ := headers_acyclic_iff hgenerate hhand
  refine ⟨files, hfiles, hiff.mpr fun d hcircle => ?_⟩
  obtain ⟨_, hfirst, -⟩ := TransGen.head'_iff.mp hcircle
  obtain ⟨_, -, hlast⟩ := TransGen.tail'_iff.mp hcircle
  have hname := (names_of_refers hfirst).1.symm.trans (names_of_refers hlast).2
  exact absurd hname (by decide)

/-- The headers of two records include each other. -/
theorem pair_in_circle :
    ∃ files f, (Generator.standard {}).files pair = .ok files ∧
      TransGen (Includes {} files) f f := by
  have hlength : ((Generator.standard {}).files pair).toOption.map (·.length) = some 6 := by
    decide +kernel
  obtain ⟨files, hfiles, -⟩ := toOption_map_eq_some.mp hlength
  obtain ⟨r, blocks, hrun, rfl⟩ := Generator.files_eq_ok_iff.mp hfiles
  have hleft : Refers pair left right :=
    ⟨by simp [pair], ⟨_, rfl, rfl⟩, by simp [pair], ⟨_, rfl, rfl⟩, by decide,
      _, List.mem_singleton_self _, recordRef "right", by decide, rfl⟩
  have hright : Refers pair right left :=
    ⟨by simp [pair], ⟨_, rfl, rfl⟩, by simp [pair], ⟨_, rfl, rfl⟩, by decide,
      _, List.mem_singleton_self _, recordRef "left", by decide, rfl⟩
  exact ⟨_, _, hfiles, hrun.transGen_includes (.tail (.single hleft) hright) ⟨_, rfl, rfl, rfl⟩
    ⟨_, rfl, rfl, rfl⟩⟩

end IdlBinder

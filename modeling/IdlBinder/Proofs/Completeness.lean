import IdlBinder.Proofs.IncludeCycle
import IdlBinder.Proofs.InitializerParts
import Mathlib.Logic.Relation

set_option autoImplicit false

/-!
# Complete types in initializers

An initializer can use a type only where the header that declares it has been read. The file with
the definitions of the constants includes no more than the header of their owner, so everything else
must be reached through include lines of further headers. `initializer_types_complete`: each type
that an initializer names is reached, apart from one case. A record that is finished by hand is
declared by a header that its generated part does not include, so its own constants cannot be of its
own type unless its types lead back to it. `point_incomplete` is the smallest such document.
-/

namespace IdlBinder

open Traversal Relation

/-! ## Places and the ways between them -/

/-- The place of the header that declares the plain name of a declaration. -/
def Settings.plainPlace (s : Settings) (d : Decl) : List Path.Component :=
  (s.headerPath (s.fileStem d.name)).components

/-- The place of the header that holds the generated body of a declaration. -/
def Settings.bodyPlace (s : Settings) (d : Decl) : List Path.Component :=
  (s.headerPath (s.bodyStem d)).components

/-- A record whose plain header is written by hand. -/
def Decl.IsByHand (d : Decl) : Prop := ∃ r, d.body = .record r ∧ r.ext.native = true

/-- From one place to another, by an include line of a file of the run or by the include line that a
header written by hand has for the generated part. -/
inductive Leads (s : Settings) (doc : Document) (files : List OwnedFile) :
    List Path.Component → List Path.Component → Prop where
  | line {f : OwnedFile} {stem : String} :
      f ∈ files → s.includeTarget stem ∈ Code.targetsAll f.file.code →
      Leads s doc files f.file.path.components (s.headerPath stem).components
  | byHand {d : Decl} :
      d ∈ doc.decls → d.IsByHand → Leads s doc files (s.plainPlace d) (s.bodyPlace d)

/-- The types of a declaration name an enum or another record. -/
structure Uses (doc : Document) (d d' : Decl) : Prop where
  mem : d' ∈ doc.decls
  kind_ne : d'.kind ≠ .interface
  name_ne : d'.kind = .record → d.name ≠ d'.name
  node : ∃ t ∈ d.types, ∃ n ∈ t.nodes, n.head = .declared ⟨d'.name, d'.kind⟩

/-- Headers that are written by hand lie apart from each other and from the artifacts. -/
structure HandHeadersApart (s : Settings) (doc : Document) (artifacts : List Artifact) : Prop where
  left_alone : LeavesHandHeaders s doc artifacts
  injective : ∀ d ∈ doc.decls, d.IsByHand → ∀ d' ∈ doc.decls, d'.IsByHand →
    s.plainPlace d = s.plainPlace d' → d = d'

theorem Settings.bodyPlace_eq {s : Settings} {d : Decl} (h : ¬ d.IsByHand) :
    s.bodyPlace d = s.plainPlace d := by
  cases hbody : d.body with
  | enum enum => simp [bodyPlace, plainPlace, bodyStem, hbody]
  | interface i => simp [bodyPlace, plainPlace, bodyStem, hbody]
  | record r =>
      have hnative : r.ext.native = false := by
        cases hnative : r.ext.native with
        | false => rfl
        | true => exact absurd ⟨r, hbody, hnative⟩ h
      simp [bodyPlace, plainPlace, bodyStem, recordFileStem, recordBase, fileStem, hbody, hnative]

/-! ## The include lines of a body -/

theorem TypeExpr.core_mem_nodes (t : TypeExpr) : t.core ∈ t.nodes := by
  induction t using TypeExpr.nodeInduction with
  | node h args ih =>
      unfold core
      split
      next a as heq =>
        cases heq
        exact mem_nodes.mpr (Or.inl ⟨a, List.mem_cons_self, ih a List.mem_cons_self⟩)
      next => exact mem_nodes.mpr (Or.inr rfl)

/-- The header with the body includes the generated headers that its types need. -/
theorem Emitter.mem_targets_bodyFile {e : Emitter} {d : Decl} {defs : List Cpp.ConstDef}
    {target : String} (hq : Quoted target) :
    target ∈ Code.targetsAll (e.bodyFile d defs).code ↔
      .inclusion target ∈ References.collectAll e.native.needs .header (some d.name) d.types := by
  rw [Cpp.SourceFile.targetsAll_code]
  cases hbody : d.body with
  | enum enum =>
      simp only [bodyFile, Decl.types, hbody]
      constructor
      · intro htarget
        exact absurd hq (not_quoted_of_mem_enumReferences htarget)
      · intro htarget
        exact absurd htarget (References.notMem_empty _)
  | record r =>
      simp only [bodyFile, Decl.types, hbody]
      constructor
      · intro htarget
        exact mem_collectAll_of_mem_structReferences (mem_allIncludes_header.mp htarget) hq
      · intro htarget
        exact mem_allIncludes_header.mpr (mem_structReferences_of_mem_collectAll htarget)
  | interface i =>
      simp only [bodyFile, Decl.types, hbody]
      exact mem_allIncludes_header

namespace Generator.Run

variable {s : Settings} {doc : Document} {r : Registry}
variable {blocks : List (Decl × List Cpp.SourceFile)} {d d' : Decl}
variable (hrun : (standard s).Run doc r blocks)
include hrun

/-- The header with the body of a declaration includes the headers of what the declaration uses. -/
theorem mem_targets_bodyFile_iff (hd : d ∈ doc.decls) (defs : List Cpp.ConstDef) (stem : String) :
    s.includeTarget stem ∈ Code.targetsAll (((standard s).emitterOf doc r).bodyFile d defs).code ↔
      ∃ d', Uses doc d d' ∧ stem = s.fileStem d'.name := by
  rw [Emitter.mem_targets_bodyFile (s.quoted_includeTarget stem), References.mem_collectAll]
  constructor
  · rintro ⟨-, t, ht, n, hn, hneed⟩
    obtain ⟨⟨name, kind⟩, hhead, rfl, hkind, howner⟩ := Native.mem_header_needs_iff.mp hneed
    obtain ⟨d', hd', rfl, rfl, -⟩ :=
      ((hrun.checked.types d hd t ht).of_mem_nodes hn).exists_decl hhead
    refine ⟨d', ⟨hd', hkind, fun hrecord hself => ?_, t, ht, n, hn, hhead⟩, rfl⟩
    exact howner hrecord (congrArg some hself)
  · rintro ⟨d', ⟨hd', hkind, hname, t, ht, n, hn, hhead⟩, rfl⟩
    refine ⟨rfl, t, ht, n, hn, Native.mem_header_needs_iff.mpr ⟨_, hhead, rfl, hkind, ?_⟩⟩
    exact fun hrecord hself => hname hrecord (Option.some.inj hself)

/-- At the place of a body lies a file that includes what the declaration uses. -/
theorem exists_file_at_bodyPlace (hd : d ∈ doc.decls) :
    ∃ f ∈ ownedFiles blocks, f.owner = d.name ∧ f.file.path.components = s.bodyPlace d ∧
      ∀ stem, s.includeTarget stem ∈ Code.targetsAll f.file.code ↔
        ∃ d', Uses doc d d' ∧ stem = s.fileStem d'.name := by
  obtain ⟨defs, -, hmem⟩ := hrun.exists_bodyFile hd
  obtain ⟨f, hf, howner, hfile⟩ := mem_filesOf.mp hmem
  refine ⟨f, hf, howner, ?_, fun stem => ?_⟩
  · rw [hfile, Emitter.path_bodyFile]
    rfl
  · rw [hfile]
    exact hrun.mem_targets_bodyFile_iff hd defs stem

/-! ### Ways along what is used -/

theorem leads_of_uses (hd : d ∈ doc.decls) (h : Uses doc d d') :
    Leads s doc (ownedFiles blocks) (s.bodyPlace d) (s.plainPlace d') := by
  obtain ⟨f, hf, -, hplace, htargets⟩ := hrun.exists_file_at_bodyPlace hd
  rw [← hplace]
  exact .line hf ((htargets _).mpr ⟨d', h, rfl⟩)

omit hrun in
/-- From the plain header one comes to the body, by hand or because they are the same. -/
theorem reaches_body (hd : d ∈ doc.decls) :
    ReflTransGen (Leads s doc (ownedFiles blocks)) (s.plainPlace d) (s.bodyPlace d) := by
  by_cases hhand : d.IsByHand
  · exact .single (.byHand hd hhand)
  · rw [Settings.bodyPlace_eq hhand]

theorem reaches_of_uses (hd : d ∈ doc.decls) (h : TransGen (Uses doc) d d') :
    ReflTransGen (Leads s doc (ownedFiles blocks)) (s.bodyPlace d) (s.plainPlace d') := by
  induction h with
  | single hstep => exact .single (hrun.leads_of_uses hd hstep)
  | @tail mid last hway hstep ih =>
      obtain ⟨_, -, hlast⟩ := TransGen.tail'_iff.mp hway
      exact ih.trans ((reaches_body hlast.mem).tail (hrun.leads_of_uses hlast.mem hstep))

/-- A record in the type of a declaration is this declaration or is used by it. -/
theorem eq_or_uses {named : Decl} {b : Record} {t : TypeExpr} (hd : d ∈ doc.decls)
    (hnamed : named ∈ doc.decls) (hbody : named.body = .record b) (ht : t ∈ d.types)
    (hhead : t.core.head = .declared ⟨named.name, .record⟩) : d = named ∨ Uses doc d named := by
  have hkind : named.kind = .record := congrArg Body.kind hbody
  by_cases hname : d.name = named.name
  · exact Or.inl (hrun.eq_of_name_eq hd hnamed hname)
  · refine Or.inr ⟨hnamed, by simp [hkind], fun _ => hname, t, ht, _, t.core_mem_nodes, ?_⟩
    rw [hhead, hkind]

/-- What a literal mentions is reached from the body of a declaration that has its type, unless it
is this declaration and its plain header is written by hand. -/
theorem reaches_of_mentions {v : Literal} {t : TypeExpr} {named : Decl}
    (h : Mentions doc v t named) (hd : d ∈ doc.decls) (ht : t ∈ d.types) :
    ReflTransGen (Leads s doc (ownedFiles blocks)) (s.bodyPlace d) (s.plainPlace named) ∨
      (named = d ∧ d.IsByHand) := by
  induction h generalizing d with
  | @enum option t named enum hnamed hbody hhead =>
      have hkind : named.kind = .enum := congrArg Body.kind hbody
      rw [← hkind] at hhead
      have huses : Uses doc d named :=
        ⟨hnamed, by simp [hkind], by simp [hkind], t, ht, _, t.core_mem_nodes, hhead⟩
      exact Or.inl (.single (hrun.leads_of_uses hd huses))
  | @record entries t named b hnamed hbody hhead =>
      rcases hrun.eq_or_uses hd hnamed hbody ht hhead with rfl | huses
      · by_cases hhand : d.IsByHand
        · exact Or.inr ⟨rfl, hhand⟩
        · rw [Settings.bodyPlace_eq hhand]
          exact Or.inl .refl
      · exact Or.inl (.single (hrun.leads_of_uses hd huses))
  | @field entries t outer named b f v houter hbody hhead hf hv _ ih =>
      have htype : f.type ∈ outer.types := by
        simp only [Decl.types, hbody, Record.types, List.mem_append]
        exact Or.inl (List.mem_map_of_mem hf)
      have hinner := ih houter htype
      rcases hrun.eq_or_uses hd houter hbody ht hhead with rfl | huses
      · exact hinner
      · -- The way goes through the header of the record that has the field.
        have hstep := hrun.leads_of_uses hd huses
        rcases hinner with hreach | ⟨rfl, -⟩
        · exact Or.inl (((ReflTransGen.single hstep).trans (reaches_body houter)).trans hreach)
        · exact Or.inl (.single hstep)

omit hrun in
/-- The file with the definitions of the constants is the header of their owner or includes it. -/
theorem reaches_of_holder {defs : List Cpp.ConstDef} {f : OwnedFile}
    (hf : f ∈ ownedFiles blocks) (hfile : f.file = ((standard s).emitterOf doc r).holder d defs) :
    ReflTransGen (Leads s doc (ownedFiles blocks)) f.file.path.components (s.bodyPlace d) := by
  by_cases hparams : d.typeParams.isEmpty
  · have htarget : s.includeTarget (s.bodyStem d) ∈ Code.targetsAll f.file.code := by
      rw [hfile, Cpp.SourceFile.targetsAll_code, Emitter.holder, if_pos hparams]
      exact Emitter.mem_allIncludes_source.mpr (Or.inl rfl)
    exact .single (.line hf htarget)
  · rw [hfile, Emitter.holder, if_neg hparams, Emitter.path_bodyFile]
    exact .refl

end Generator.Run

/-! ## No other ways -/

/-- The places that one can come to from the definitions of the constants of `d`, which start here.
-/
inductive Visited (s : Settings) (doc : Document) (d : Decl) (start : List Path.Component) :
    List Path.Component → Prop where
  | start : Visited s doc d start start
  | body {named : Decl} : named ∈ doc.decls → ReflTransGen (Uses doc) d named →
      Visited s doc d start (s.bodyPlace named)
  | plain {named : Decl} : named ∈ doc.decls → TransGen (Uses doc) d named →
      Visited s doc d start (s.plainPlace named)

namespace Generator.Run

variable {s : Settings} {doc : Document} {r : Registry}
variable {blocks : List (Decl × List Cpp.SourceFile)} {d named : Decl} {f : OwnedFile}
variable (hrun : (standard s).Run doc r blocks)
variable (hapart : HandHeadersApart s doc ((ownedFiles blocks).map (·.file.artifact)))

include hapart in
theorem place_ne_of_isByHand (hf : f ∈ ownedFiles blocks) (hnamed : named ∈ doc.decls)
    (hhand : named.IsByHand) : f.file.path.components ≠ s.plainPlace named := by
  obtain ⟨b, hbody, hnative⟩ := hhand
  exact hapart.left_alone named hnamed b hbody hnative f.file.artifact (List.mem_map_of_mem hf)

include hrun

/-- The file at the place of a body leads to what the declaration uses. -/
theorem visited_of_bodyPlace {start : List Path.Component} {stem : String}
    (hnamed : named ∈ doc.decls) (huses : ReflTransGen (Uses doc) d named)
    (hf : f ∈ ownedFiles blocks) (hplace : f.file.path.components = s.bodyPlace named)
    (htarget : s.includeTarget stem ∈ Code.targetsAll f.file.code) :
    Visited s doc d start (s.headerPath stem).components := by
  obtain ⟨g, hg, -, hgplace, htargets⟩ := hrun.exists_file_at_bodyPlace hnamed
  obtain rfl := hrun.eq_of_place_eq hf hg (hplace.trans hgplace.symm)
  obtain ⟨d', hstep, rfl⟩ := (htargets stem).mp htarget
  exact .plain hstep.mem (TransGen.tail' huses hstep)

include hapart

/-- A header written by hand is visited only along what is used. -/
theorem uses_of_visited (hf : f ∈ ownedFiles blocks) (hnamed : named ∈ doc.decls)
    (hhand : named.IsByHand)
    (h : Visited s doc d f.file.path.components (s.plainPlace named)) :
    TransGen (Uses doc) d named := by
  have hfree : ∀ g ∈ ownedFiles blocks, g.file.path.components ≠ s.plainPlace named :=
    fun g hg => place_ne_of_isByHand hapart hg hnamed hhand
  generalize hp : s.plainPlace named = p at h
  cases h with
  | start => exact absurd hp.symm (hfree f hf)
  | body hother _ =>
      obtain ⟨g, hg, -, hplace, -⟩ := hrun.exists_file_at_bodyPlace hother
      exact absurd (hplace.trans hp.symm) (hfree g hg)
  | @plain other hother huses =>
      by_cases hotherHand : other.IsByHand
      · rw [hapart.injective named hnamed hhand other hother hotherHand hp]
        exact huses
      · obtain ⟨g, hg, -, hplace, -⟩ := hrun.exists_file_at_bodyPlace hother
        rw [Settings.bodyPlace_eq hotherHand] at hplace
        exact absurd (hplace.trans hp.symm) (hfree g hg)

/-- From a visited place one comes to visited places. -/
theorem visited_step {defs : List Cpp.ConstDef} {p q : List Path.Component} (hd : d ∈ doc.decls)
    (hf : f ∈ ownedFiles blocks) (hfile : f.file = ((standard s).emitterOf doc r).holder d defs)
    (h : Visited s doc d f.file.path.components p)
    (hstep : Leads s doc (ownedFiles blocks) p q) :
    Visited s doc d f.file.path.components q := by
  cases hstep with
  | @byHand named hnamed hhand =>
      exact .body hnamed (hrun.uses_of_visited hapart hf hnamed hhand h).to_reflTransGen
  | @line g stem hg htarget =>
      generalize hp : g.file.path.components = p at h
      cases h with
      | body hnamed huses => exact hrun.visited_of_bodyPlace hnamed huses hg hp htarget
      | @plain named hnamed huses =>
          by_cases hhand : named.IsByHand
          · exact absurd hp (place_ne_of_isByHand hapart hg hnamed hhand)
          · rw [← Settings.bodyPlace_eq hhand] at hp
            exact hrun.visited_of_bodyPlace hnamed huses.to_reflTransGen hg hp htarget
      | start =>
          obtain rfl := hrun.eq_of_place_eq hg hf hp
          by_cases hparams : d.typeParams.isEmpty
          · -- A source includes nothing but the header of the owner.
            rw [hfile, Cpp.SourceFile.targetsAll_code, Emitter.holder, if_pos hparams] at htarget
            rcases Emitter.mem_allIncludes_source.mp htarget with hown | hnone
            · rw [Settings.includeTarget_inj hown]
              exact .body hd .refl
            · cases hnone
          · refine hrun.visited_of_bodyPlace hd .refl hg ?_ htarget
            rw [hfile, Emitter.holder, if_neg hparams, Emitter.path_bodyFile]
            rfl

theorem visited_of_reaches {defs : List Cpp.ConstDef} {p : List Path.Component} (hd : d ∈ doc.decls)
    (hf : f ∈ ownedFiles blocks) (hfile : f.file = ((standard s).emitterOf doc r).holder d defs)
    (h : ReflTransGen (Leads s doc (ownedFiles blocks)) f.file.path.components p) :
    Visited s doc d f.file.path.components p := by
  induction h with
  | refl => exact .start
  | tail _ hstep ih => exact hrun.visited_step hapart hd hf hfile ih hstep

/-- From the definitions of the constants of a record that is finished by hand, its plain header is
reached exactly if its types lead back to it. -/
theorem reaches_plainPlace_iff {defs : List Cpp.ConstDef} (hd : d ∈ doc.decls) (hhand : d.IsByHand)
    (hf : f ∈ ownedFiles blocks) (hfile : f.file = ((standard s).emitterOf doc r).holder d defs) :
    ReflTransGen (Leads s doc (ownedFiles blocks)) f.file.path.components (s.plainPlace d) ↔
      TransGen (Uses doc) d d := by
  constructor
  · intro hway
    exact hrun.uses_of_visited hapart hf hd hhand (hrun.visited_of_reaches hapart hd hf hfile hway)
  · intro hcircle
    exact (reaches_of_holder hf hfile).trans (hrun.reaches_of_uses hd hcircle)

end Generator.Run

/-! ## The types that initializers name -/

/-- In a run with the standard marshals, the types that the initializer of a constant names are
those that its literal mentions. From the file with the definition, the header of each of them is
reached, unless it is the owner of the constant and its header is written by hand. The header of
such an owner is reached exactly if the types of the owner lead back to it. -/
theorem initializer_types_complete (s : Settings) {doc : Document} {artifacts : List Artifact}
    (h : (Generator.standard s).generate doc = .ok artifacts) :
    ∃ files, (Generator.standard s).files doc = .ok files ∧
      artifacts = files.map (·.file.artifact) ∧
      ∀ d ∈ doc.decls, ∀ (i : Nat) c, d.consts[i]? = some c →
        ∃ holder ∈ files, holder.owner = d.name ∧
          ∃ definition, holder.file.constDefs[i]? = some definition ∧
            definition.name = s.nativeConst c.name ∧
            (∀ name, name ∈ definition.value.typeNames ↔
              ∃ named, Mentions doc c.value c.type named ∧ name = s.nativeQualified named.name) ∧
            (∀ named, Mentions doc c.value c.type named → ¬ (named = d ∧ d.IsByHand) →
              ReflTransGen (Leads s doc files) holder.file.path.components (s.plainPlace named) ∧
              (¬ named.IsByHand → ∃ f ∈ files, f.owner = named.name ∧
                f.file.path.components = s.plainPlace named)) ∧
            (d.IsByHand → HandHeadersApart s doc artifacts →
              (ReflTransGen (Leads s doc files) holder.file.path.components (s.plainPlace d) ↔
                TransGen (Uses doc) d d)) := by
  obtain ⟨r, blocks, hrun, hfiles, rfl⟩ := Generator.exists_run h
  refine ⟨_, hfiles, rfl, fun d hd i c hc => ?_⟩
  obtain ⟨defs, holder, hholder, howner, hfile, definition, hdef, -, hname, hvalue⟩ :=
    hrun.exists_definition hd hc
  have hrenders := hrun.renders_const hd hc hvalue
  have htype : c.type ∈ d.types := d.mem_types_of_mem_consts (List.mem_of_getElem? hc)
  refine ⟨holder, hholder, howner, definition, hdef, hname, fun name => ?_,
    fun named hmentions hself => ?_,
    fun hhand hapart => hrun.reaches_plainPlace_iff hapart hd hhand hholder hfile⟩
  · exact hrenders.mem_typeNames_iff (fun _ => rfl) (Registry.indexes_of_build hrun.build).2
  · refine ⟨?_, fun hplain => ?_⟩
    · have hreaches := hrun.reaches_of_mentions hmentions hd htype
      exact (Generator.Run.reaches_of_holder hholder hfile).trans (hreaches.resolve_right hself)
    · obtain ⟨f, hf, hfowner, hplace, -⟩ := hrun.exists_file_at_bodyPlace hmentions.mem
      exact ⟨f, hf, hfowner, hplace.trans (Settings.bodyPlace_eq hplain)⟩

namespace Sample

/-- A record that is finished by hand and has a constant of its own type. -/
def point : Decl :=
  ⟨"point", [], .record {
    fields := [⟨"x", [], .prim .i32⟩]
    consts := [⟨"origin", [], recordRef "point", .record [("x", .int 0)]⟩]
    ext := { native := true } }⟩

def points : Document := { decls := [point] }

/-- A record like `point` that has another record in the type of a constant. -/
def knot : Decl :=
  ⟨"knot", [], .record {
    fields := [⟨"x", [], .prim .i32⟩]
    consts := [⟨"first", [], recordRef "knot", .record [("x", .int 0)]⟩,
      ⟨"bow", [], recordRef "tie", .record [("end", .record [("x", .int 1)])]⟩]
    ext := { native := true } }⟩

/-- A record that leads back to `knot`. -/
def tie : Decl := ⟨"tie", [], .record { fields := [⟨"end", [], recordRef "knot"⟩] }⟩

def knots : Document := { decls := [knot, tie] }

end Sample

/-- If one record alone is finished by hand, its header has to lie apart from the artifacts only. -/
theorem handHeadersApart_of_unique {s : Settings} {doc : Document} {artifacts : List Artifact}
    (hand : Decl) (hunique : ∀ d ∈ doc.decls, d.IsByHand → d = hand)
    (hfree : ∀ p ∈ artifacts.map (·.path), p.components ≠ s.plainPlace hand) :
    HandHeadersApart s doc artifacts := by
  refine ⟨fun d hd b hbody hnative a ha => ?_, fun d hd hhand d' hd' hhand' _ => ?_⟩
  · rw [hunique d hd ⟨b, hbody, hnative⟩]
    exact hfree a.path (List.mem_map_of_mem ha)
  · rw [hunique d hd hhand, hunique d' hd' hhand']

open Sample

theorem knots_complete :
    ∃ artifacts files, (Generator.standard {}).generate knots = .ok artifacts ∧
      (Generator.standard {}).files knots = .ok files ∧
      HandHeadersApart {} knots artifacts ∧ knot.IsByHand ∧ TransGen (Uses knots) knot knot ∧
      ∃ holder ∈ files, holder.owner = "knot" ∧
        ReflTransGen (Leads {} knots files) holder.file.path.components
          (Settings.plainPlace {} knot) := by
  have hpaths : ((Generator.standard {}).generate knots).toOption.map (·.map (·.path)) =
      some [⟨"include/knot_base.hpp"⟩, ⟨"src/knot_base.cpp"⟩, ⟨"include/knot_base_bridge.hpp"⟩,
        ⟨"src/knot_base_bridge.cpp"⟩, ⟨"include/tie.hpp"⟩, ⟨"include/tie_bridge.hpp"⟩,
        ⟨"src/tie_bridge.cpp"⟩] := by
    decide +kernel
  obtain ⟨artifacts, hgenerate, hpaths⟩ := toOption_map_eq_some.mp hpaths
  have hhand : knot.IsByHand := ⟨_, rfl, rfl⟩
  have hapart : HandHeadersApart {} knots artifacts := by
    refine handHeadersApart_of_unique knot (fun d hd hhand => ?_) ?_
    · rcases List.mem_cons.mp hd with rfl | hd
      · rfl
      · rw [List.mem_singleton.mp hd] at hhand
        obtain ⟨b, hbody, hnative⟩ := hhand
        cases hbody
        cases hnative
    · rw [hpaths]
      decide +kernel
  have huses : Uses knots knot tie :=
    ⟨by simp [knots], by decide, by decide, recordRef "tie", by decide, recordRef "tie", by decide,
      rfl⟩
  have hback : Uses knots tie knot :=
    ⟨by simp [knots], by decide, by decide, recordRef "knot", by decide, recordRef "knot",
      by decide, rfl⟩
  have hcircle : TransGen (Uses knots) knot knot := .tail (.single huses) hback
  obtain ⟨files, hfiles, -, hconsts⟩ := initializer_types_complete {} hgenerate
  obtain ⟨holder, hholder, howner, definition, -, -, -, -, hiff⟩ :=
    hconsts knot (by simp [knots]) 0 _ rfl
  exact ⟨artifacts, files, hgenerate, hfiles, hapart, hhand, hcircle, holder, hholder, howner,
    (hiff hhand hapart).mpr hcircle⟩

/-- The only constant of the record names the record, whose header is not reached. -/
theorem point_incomplete :
    ∃ files, (Generator.standard {}).files points = .ok files ∧
      ∃ holder ∈ files, holder.file.path = ⟨"src/point_base.cpp"⟩ ∧
        holder.file.constDefs.map (·.value.typeNames) = [["::bridge::Point"]] ∧
        Settings.nativeQualified {} point.name = "::bridge::Point" ∧
        ¬ ReflTransGen (Leads {} points files) holder.file.path.components
          (Settings.plainPlace {} point) := by
  have hvalues : ((Generator.standard {}).files points).toOption.map (fun files =>
      files.map fun f => (f.file.path, f.file.constDefs.map (·.value.typeNames))) =
      some [(⟨"include/point_base.hpp"⟩, []), (⟨"src/point_base.cpp"⟩, [["::bridge::Point"]]),
        (⟨"include/point_base_bridge.hpp"⟩, []), (⟨"src/point_base_bridge.cpp"⟩, [])] := by
    decide +kernel
  obtain ⟨files, hfiles, hvalues⟩ := toOption_map_eq_some.mp hvalues
  obtain ⟨r, blocks, hrun, rfl⟩ := Generator.files_eq_ok_iff.mp hfiles
  have hmem : point ∈ points.decls := by simp [points]
  obtain ⟨defs, -, hholder⟩ := hrun.exists_holder hmem List.mem_cons_self
  obtain ⟨holder, hholder, -, hfile⟩ := mem_filesOf.mp hholder
  have hpath : holder.file.path = ⟨"src/point_base.cpp"⟩ := by
    rw [hfile, Emitter.path_holder defs rfl, Generator.settings_emitterOf,
      Generator.settings_standard]
    decide +kernel
  have hapart : HandHeadersApart {} points ((ownedFiles blocks).map (·.file.artifact)) := by
    have hpaths : ((ownedFiles blocks).map (·.file.artifact)).map (·.path) =
        [⟨"include/point_base.hpp"⟩, ⟨"src/point_base.cpp"⟩, ⟨"include/point_base_bridge.hpp"⟩,
          ⟨"src/point_base_bridge.cpp"⟩] := by
      have hfirst := congrArg (List.map Prod.fst) hvalues
      rw [List.map_map] at hfirst ⊢
      exact hfirst
    refine handHeadersApart_of_unique point (fun d hd _ => by simpa [points] using hd) ?_
    rw [hpaths]
    decide +kernel
  refine ⟨_, hfiles, holder, hholder, hpath, ?_, by decide +kernel, fun hreaches => ?_⟩
  · have hpair := List.mem_map_of_mem
      (f := fun f => (f.file.path, f.file.constDefs.map (·.value.typeNames))) hholder
    rw [hvalues, hpath] at hpair
    simpa using hpair
  · have hcircle :=
      (hrun.reaches_plainPlace_iff hapart hmem ⟨_, rfl, rfl⟩ hholder hfile).mp hreaches
    obtain ⟨next, hfirst, -⟩ := TransGen.head'_iff.mp hcircle
    obtain rfl : next = point := by simpa [points] using hfirst.mem
    exact hfirst.name_ne rfl rfl

end IdlBinder

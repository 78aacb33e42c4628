import IdlBinder.Generate
import IdlBinder.Proofs.Lookup
import IdlBinder.Proofs.WellFormed

set_option autoImplicit false

/-!
# The outcome of generation

Generation runs through the declarations of a checked document and through the files of each. A run
gets through when every declaration yields files and all files lie apart; its artifacts are then
those of the declarations one after the other. Otherwise `Failure` says which reason is reported,
and `generate_outcome` that the two descriptions are exact.
-/

namespace IdlBinder

open Traversal

/-! ## Adding files -/

/-- Where files lie, by the components of their paths. -/
def places (files : List OwnedFile) : List (List Path.Component) :=
  files.map (·.file.path.components)

theorem places_append (files more : List OwnedFile) :
    places (files ++ more) = places files ++ places more := by
  simp [places]

theorem nodup_places_snoc {owner : String} {files : List OwnedFile} {f : Cpp.SourceFile} :
    (places (files ++ [ownedBy owner f])).Nodup ↔
      f.path.components ∉ places files ∧ (places files).Nodup :=
  nodup_map_snoc

theorem find?_place_eq_some_iff {files : List OwnedFile} {place : List Path.Component}
    {x : OwnedFile} :
    files.find? (·.place.val == place) = some x ↔
      ∃ pre post, files = pre ++ x :: post ∧ place ∉ places pre ∧
        x.file.path.components = place := by
  have hplace : ∀ y : OwnedFile, y.place.val = y.file.path.components := fun y => y.place.property
  rw [List.find?_eq_some_iff_append]
  simp only [hplace, beq_iff_eq, Bool.not_eq_true', beq_eq_false_iff_ne, places, List.mem_map,
    not_exists, not_and]
  constructor
  · rintro ⟨hx, pre, post, hfiles, hpre⟩
    exact ⟨pre, post, hfiles, hpre, hx⟩
  · rintro ⟨pre, post, hfiles, hpre, hx⟩
    exact ⟨hx, pre, post, hfiles, hpre⟩

theorem find?_place_eq_none_iff {files : List OwnedFile} {place : List Path.Component} :
    files.find? (·.place.val == place) = none ↔ place ∉ places files := by
  have hplace : ∀ y : OwnedFile, y.place.val = y.file.path.components := fun y => y.place.property
  simp only [List.find?_eq_none, hplace, beq_iff_eq, places, List.mem_map, not_exists, not_and]

theorem addFile_eq_ok_iff {owner : String} {files files' : List OwnedFile} {f : Cpp.SourceFile} :
    addFile owner files f = .ok files' ↔
      f.path.components ∉ places files ∧ files' = files ++ [ownedBy owner f] := by
  rw [← find?_place_eq_none_iff, addFile]
  cases files.find? (·.place.val == f.path.components) with
  | some x => simp
  | none => simp [eq_comm]

/-- A file collides with the first one that lies at its place. -/
theorem addFile_eq_error_iff {owner : String} {files : List OwnedFile} {f : Cpp.SourceFile}
    {err : Diagnostic} :
    addFile owner files f = .error err ↔
      ∃ pre x post, files = pre ++ x :: post ∧ f.path.components ∉ places pre ∧
        x.file.path.components = f.path.components ∧
        err = .duplicateArtifact x.owner owner f.path := by
  rw [addFile]
  cases hfind : files.find? (·.place.val == f.path.components) with
  | none =>
      rw [find?_place_eq_none_iff] at hfind
      simp only [reduceCtorEq, false_iff]
      rintro ⟨pre, x, post, rfl, -, hx, -⟩
      exact hfind (by simp [places, hx])
  | some x =>
      simp only [Except.error.injEq]
      constructor
      · rintro rfl
        obtain ⟨pre, post, hfiles, hpre, hx⟩ := find?_place_eq_some_iff.mp hfind
        exact ⟨pre, x, post, hfiles, hpre, hx, rfl⟩
      · rintro ⟨pre, y, post, hfiles, hpre, hy, rfl⟩
        have hfind' := find?_place_eq_some_iff.mpr ⟨pre, post, hfiles, hpre, hy⟩
        rw [hfind, Option.some.injEq] at hfind'
        rw [hfind']

/-- What a run over the files of one declaration adds. -/
theorem foldlM_addFile_eq_ok_iff {owner : String} {files files' : List OwnedFile}
    {fs : List Cpp.SourceFile} (hnodup : (places files).Nodup) :
    fs.foldlM (addFile owner) files = .ok files' ↔
      (places (files ++ fs.map (ownedBy owner))).Nodup ∧
        files' = files ++ fs.map (ownedBy owner) := by
  induction fs generalizing files with
  | nil => simp [hnodup, pure, Except.pure, eq_comm]
  | cons f fs ih =>
      -- The file joins at the end, and the places stay apart, which is what `ih` asks for.
      have hcons : files ++ (f :: fs).map (ownedBy owner) =
          (files ++ [ownedBy owner f]) ++ fs.map (ownedBy owner) := by simp
      rw [List.foldlM_cons, bind_eq_ok, hcons]
      constructor
      · rintro ⟨files₁, hadd, hrun⟩
        obtain ⟨hnew, rfl⟩ := addFile_eq_ok_iff.mp hadd
        exact (ih (nodup_places_snoc.mpr ⟨hnew, hnodup⟩)).mp hrun
      · rintro ⟨hall, rfl⟩
        have hsnoc : (places (files ++ [ownedBy owner f])).Nodup := by
          rw [places_append] at hall
          exact (List.nodup_append.mp hall).1
        exact ⟨files ++ [ownedBy owner f],
          addFile_eq_ok_iff.mpr ⟨(nodup_places_snoc.mp hsnoc).1, rfl⟩,
          (ih hsnoc).mpr ⟨hall, rfl⟩⟩

/-! ## Adding declarations -/

namespace Emitter

variable (e : Emitter)

/-- One step of a run: the files of a declaration join those that are there. -/
def addDecl (files : List OwnedFile) (d : Decl) : Except Diagnostic (List OwnedFile) :=
  e.declFiles d >>= fun fs => fs.foldlM (addFile d.name) files

/-- The declarations of a list yield files, given beside each. -/
structure Yields (decls : List Decl) (blocks : List (Decl × List Cpp.SourceFile)) : Prop where
  decls_eq : blocks.map (·.1) = decls
  files_eq : ∀ b ∈ blocks, e.declFiles b.1 = .ok b.2

end Emitter

/-- The files of declarations, one declaration after the other. -/
def ownedFiles (blocks : List (Decl × List Cpp.SourceFile)) : List OwnedFile :=
  blocks.flatMap fun b => b.2.map (ownedBy b.1.name)

theorem ownedFiles_cons (b : Decl × List Cpp.SourceFile)
    (blocks : List (Decl × List Cpp.SourceFile)) :
    ownedFiles (b :: blocks) = b.2.map (ownedBy b.1.name) ++ ownedFiles blocks := by
  simp [ownedFiles]

theorem ownedFiles_snoc (blocks : List (Decl × List Cpp.SourceFile)) (d : Decl)
    (fs : List Cpp.SourceFile) :
    ownedFiles (blocks ++ [(d, fs)]) = ownedFiles blocks ++ fs.map (ownedBy d.name) := by
  simp [ownedFiles]

namespace Emitter

variable {e : Emitter} {decls : List Decl}

theorem yields_cons {d : Decl} {fs : List Cpp.SourceFile}
    {blocks : List (Decl × List Cpp.SourceFile)} (hd : e.declFiles d = .ok fs)
    (h : e.Yields decls blocks) : e.Yields (d :: decls) ((d, fs) :: blocks) where
  decls_eq := by simp [h.decls_eq]
  files_eq := List.forall_mem_cons.mpr ⟨hd, h.files_eq⟩

/-- A run gets through when every declaration yields files and all files lie apart. -/
theorem foldlM_addDecl_eq_ok_iff {files files' : List OwnedFile} (hnodup : (places files).Nodup) :
    decls.foldlM e.addDecl files = .ok files' ↔
      ∃ blocks, e.Yields decls blocks ∧ (places (files ++ ownedFiles blocks)).Nodup ∧
        files' = files ++ ownedFiles blocks := by
  induction decls generalizing files with
  | nil =>
      constructor
      · intro hrun
        cases hrun
        exact ⟨[], ⟨rfl, by simp⟩, by simpa [ownedFiles] using hnodup, by simp [ownedFiles]⟩
      · rintro ⟨blocks, hyields, -, rfl⟩
        rw [List.map_eq_nil_iff.mp hyields.decls_eq]
        simp [ownedFiles, pure, Except.pure]
  | cons d decls ih =>
      rw [List.foldlM_cons, bind_eq_ok]
      constructor
      · rintro ⟨files₁, hstep, hrun⟩
        obtain ⟨fs, hd, hfs⟩ := bind_eq_ok.mp hstep
        obtain ⟨hnodup₁, rfl⟩ := (foldlM_addFile_eq_ok_iff hnodup).mp hfs
        obtain ⟨blocks, hyields, hall, rfl⟩ := (ih hnodup₁).mp hrun
        refine ⟨(d, fs) :: blocks, yields_cons hd hyields, ?_, ?_⟩
        · rwa [ownedFiles_cons, ← List.append_assoc]
        · rw [ownedFiles_cons, List.append_assoc]
      · rintro ⟨blocks, hyields, hall, rfl⟩
        obtain ⟨⟨d', fs⟩, blocks, rfl, rfl, htail⟩ := List.map_eq_cons_iff.mp hyields.decls_eq
        obtain ⟨hd, hfiles⟩ := List.forall_mem_cons.mp hyields.files_eq
        rw [ownedFiles_cons, ← List.append_assoc] at hall
        -- Files that lie apart at the end lay apart after the first declaration.
        have hnodup₁ : (places (files ++ fs.map (ownedBy d'.name))).Nodup := by
          rw [places_append] at hall
          exact (List.nodup_append.mp hall).1
        refine ⟨files ++ fs.map (ownedBy d'.name), bind_eq_ok.mpr ⟨fs, hd, ?_⟩, ?_⟩
        · exact (foldlM_addFile_eq_ok_iff hnodup).mpr ⟨hnodup₁, rfl⟩
        · refine (ih hnodup₁).mpr ⟨blocks, ⟨htail, hfiles⟩, hall, ?_⟩
          rw [ownedFiles_cons, List.append_assoc]

end Emitter

/-! ## Reasons to fail -/

namespace Generator

variable (g : Generator) (doc : Document)

/-- The emitter of a document with its registry. -/
def emitterOf (r : Registry) : Emitter := { g with registry := r, origin := doc.origin }

@[simp] theorem settings_emitterOf (r : Registry) : (g.emitterOf doc r).settings = g.settings := rfl

@[simp] theorem settings_standard (s : Settings) : (standard s).settings = s := rfl

/-- Files lie apart: no two paths have the same components. -/
def Apart (fs : List Cpp.SourceFile) : Prop := (fs.map (·.path.components)).Nodup

/-- A run over a document that gets through: its registry, and beside each declaration its files. -/
structure Run (r : Registry) (blocks : List (Decl × List Cpp.SourceFile)) : Prop where
  build : Registry.build doc = .ok r
  check : r.check doc = .ok ()
  yields : (g.emitterOf doc r).Yields doc.decls blocks
  apart : Apart (blocks.flatMap (·.2))

/-- Why a document is not generated from. Each reason rules out those above it, and what comes
before the declaration it is about is in order. -/
inductive Failure : Diagnostic → Prop where
  /-- A name is declared that has been declared. -/
  | duplicateName {before after : List Decl} {d : Decl} :
      doc.decls = before ++ d :: after → (before.map (·.name)).Nodup →
      d.name ∈ before.map (·.name) →
      Failure (.duplicateDecl d.name)
  /-- A type expression is ill formed; the first one that is. -/
  | illFormed {r : Registry} {before after : List Decl} {d : Decl} {ts us : List TypeExpr}
      {t : TypeExpr} {err : Diagnostic} :
      Registry.build doc = .ok r →
      doc.decls = before ++ d :: after → (∀ b ∈ before, r.checkDecl b = .ok ()) →
      d.types = ts ++ t :: us → (∀ u ∈ ts, r.checkType d.name d.typeParams u = .ok ()) →
      r.checkType d.name d.typeParams t = .error err →
      Failure err
  /-- A declaration yields no files. -/
  | emission {r : Registry} {before after : List Decl} {d : Decl}
      {blocks : List (Decl × List Cpp.SourceFile)} {err : Diagnostic} :
      Registry.build doc = .ok r → r.check doc = .ok () →
      doc.decls = before ++ d :: after → (g.emitterOf doc r).Yields before blocks →
      Apart (blocks.flatMap (·.2)) →
      (g.emitterOf doc r).declFiles d = .error err →
      Failure err
  /-- A declaration yields a file `f` at the place of an earlier file `x`, the first one there. -/
  | collision {r : Registry} {before after : List Decl} {d : Decl}
      {blocks : List (Decl × List Cpp.SourceFile)} {earlier later : List Cpp.SourceFile}
      {f : Cpp.SourceFile} {pre post : List OwnedFile} {x : OwnedFile} :
      Registry.build doc = .ok r → r.check doc = .ok () →
      doc.decls = before ++ d :: after → (g.emitterOf doc r).Yields before blocks →
      (g.emitterOf doc r).declFiles d = .ok (earlier ++ f :: later) →
      Apart (blocks.flatMap (·.2) ++ earlier) →
      ownedFiles (blocks ++ [(d, earlier)]) = pre ++ x :: post →
      (∀ y ∈ pre, y.file.path.components ≠ f.path.components) →
      x.file.path.components = f.path.components →
      Failure (.duplicateArtifact x.owner d.name f.path)

variable {g : Generator} {doc : Document}

theorem emitter_eq_ok_iff {e : Emitter} :
    g.emitter doc = .ok e ↔
      ∃ r, Registry.build doc = .ok r ∧ r.check doc = .ok () ∧ e = g.emitterOf doc r := by
  rw [emitter, bind_eq_ok]
  refine exists_congr fun r => and_congr_right fun _ => ?_
  rw [bind_eq_ok]
  constructor
  · rintro ⟨⟨⟩, hcheck, h⟩
    cases h
    exact ⟨hcheck, rfl⟩
  · rintro ⟨hcheck, rfl⟩
    exact ⟨(), hcheck, rfl⟩

theorem emitter_eq_error_iff {err : Diagnostic} :
    g.emitter doc = .error err ↔
      Registry.build doc = .error err ∨
        ∃ r, Registry.build doc = .ok r ∧ r.check doc = .error err := by
  rw [emitter, bind_eq_error]
  refine or_congr_right (exists_congr fun r => and_congr_right fun _ => ?_)
  rw [bind_eq_error]
  constructor
  · rintro (hcheck | ⟨⟨⟩, -, h⟩)
    · exact hcheck
    · cases h
  · exact Or.inl

/-- A document that does not pass the check fails for one of the first two reasons. -/
theorem failure_of_emitter_eq_error {err : Diagnostic} (h : g.emitter doc = .error err) :
    Failure g doc err := by
  rcases emitter_eq_error_iff.mp h with hbuild | ⟨r, hbuild, hcheck⟩
  · obtain ⟨before, d, after, hdecls, hnodup, hmem, rfl⟩ := Registry.build_eq_error_iff.mp hbuild
    exact .duplicateName hdecls hnodup hmem
  · obtain ⟨before, d, after, hdecls, hbefore, ts, t, us, htypes, hts, ht⟩ :=
      Registry.check_eq_error_iff.mp hcheck
    exact .illFormed hbuild hdecls hbefore htypes hts ht

theorem places_ownedFiles (blocks : List (Decl × List Cpp.SourceFile)) :
    places (ownedFiles blocks) = (blocks.flatMap (·.2)).map (·.path.components) := by
  simp [places, ownedFiles, ownedBy, List.map_flatMap, Function.comp_def]

theorem files_eq (g : Generator) (doc : Document) :
    g.files doc = g.emitter doc >>= fun e => doc.decls.foldlM e.addDecl [] := rfl

/-- The files of a document are those of its declarations one after the other. -/
theorem files_eq_ok_iff {files : List OwnedFile} :
    g.files doc = .ok files ↔ ∃ r blocks, g.Run doc r blocks ∧ files = ownedFiles blocks := by
  simp only [files_eq, bind_eq_ok, emitter_eq_ok_iff]
  constructor
  · rintro ⟨e, ⟨r, hbuild, hcheck, rfl⟩, hrun⟩
    obtain ⟨blocks, hyields, hnodup, rfl⟩ :=
      (Emitter.foldlM_addDecl_eq_ok_iff (by simp [places])).mp hrun
    rw [List.nil_append, places_ownedFiles] at hnodup
    exact ⟨r, blocks, ⟨hbuild, hcheck, hyields, hnodup⟩, by simp⟩
  · rintro ⟨r, blocks, ⟨hbuild, hcheck, hyields, hapart⟩, rfl⟩
    refine ⟨g.emitterOf doc r, ⟨r, hbuild, hcheck, rfl⟩, ?_⟩
    rw [Apart, ← places_ownedFiles] at hapart
    exact (Emitter.foldlM_addDecl_eq_ok_iff (by simp [places])).mpr
      ⟨blocks, hyields, by simpa using hapart, by simp⟩

/-- A run over the declarations stops at one that yields no files, or at one that yields a file at a
taken place. -/
theorem failure_of_run_eq_error {r : Registry} {err : Diagnostic}
    (hbuild : Registry.build doc = .ok r) (hcheck : r.check doc = .ok ())
    (hrun : doc.decls.foldlM (g.emitterOf doc r).addDecl [] = .error err) :
    Failure g doc err := by
  obtain ⟨before, d, after, files, hdecls, hbefore, hstep⟩ := foldlM_eq_error.mp hrun
  obtain ⟨blocks, hyields, hnodup, rfl⟩ :=
    (Emitter.foldlM_addDecl_eq_ok_iff (by simp [places])).mp hbefore
  rw [List.nil_append] at hnodup hstep
  rcases bind_eq_error.mp hstep with hd | ⟨fs, hd, hfs⟩
  · exact .emission hbuild hcheck hdecls hyields (by rwa [Apart, ← places_ownedFiles]) hd
  · obtain ⟨earlier, f, later, files, rfl, hearlier, hf⟩ := foldlM_eq_error.mp hfs
    obtain ⟨hnodup₁, rfl⟩ := (foldlM_addFile_eq_ok_iff hnodup).mp hearlier
    rw [← ownedFiles_snoc] at hnodup₁ hf
    obtain ⟨pre, x, post, hfiles, hpre, hx, rfl⟩ := addFile_eq_error_iff.mp hf
    refine .collision hbuild hcheck hdecls hyields hd ?_ hfiles ?_ hx
    · rw [places_ownedFiles] at hnodup₁
      simpa [Apart] using hnodup₁
    · intro y hy hsame
      exact hpre (hsame ▸ List.mem_map_of_mem hy)

theorem files_eq_error_iff {err : Diagnostic} :
    g.files doc = .error err ↔ Failure g doc err := by
  rw [files_eq, bind_eq_error]
  constructor
  · rintro (h | ⟨e, he, hrun⟩)
    · exact failure_of_emitter_eq_error h
    · obtain ⟨r, hbuild, hcheck, rfl⟩ := emitter_eq_ok_iff.mp he
      exact failure_of_run_eq_error hbuild hcheck hrun
  · intro h
    cases h with
    | duplicateName hdecls hnodup hmem =>
        refine Or.inl (emitter_eq_error_iff.mpr (Or.inl ?_))
        exact Registry.build_eq_error_iff.mpr ⟨_, _, _, hdecls, hnodup, hmem, rfl⟩
    | illFormed hbuild hdecls hbefore htypes hts ht =>
        refine Or.inl (emitter_eq_error_iff.mpr (Or.inr ⟨_, hbuild, ?_⟩))
        exact Registry.check_eq_error_iff.mpr ⟨_, _, _, hdecls, hbefore, _, _, _, htypes, hts, ht⟩
    | @emission r before after d blocks err hbuild hcheck hdecls hyields hapart hd =>
        refine Or.inr ⟨_, emitter_eq_ok_iff.mpr ⟨r, hbuild, hcheck, rfl⟩, ?_⟩
        refine foldlM_eq_error.mpr ⟨before, d, after, ownedFiles blocks, hdecls, ?_, ?_⟩
        · refine (Emitter.foldlM_addDecl_eq_ok_iff (by simp [places])).mpr
            ⟨blocks, hyields, ?_, by simp⟩
          rwa [List.nil_append, places_ownedFiles]
        · exact bind_eq_error.mpr (Or.inl hd)
    | @collision r before after d blocks earlier later f pre post x hbuild hcheck hdecls hyields hd
        hapart hfiles hpre hx =>
        -- Everything before `f` lies apart, so the run comes as far as `f`.
        have hnodup₁ : (places (ownedFiles blocks ++ earlier.map (ownedBy d.name))).Nodup := by
          rw [← ownedFiles_snoc, places_ownedFiles]
          simpa [Apart] using hapart
        have hnodup : (places (ownedFiles blocks)).Nodup := by
          rw [places_append] at hnodup₁
          exact (List.nodup_append.mp hnodup₁).1
        refine Or.inr ⟨_, emitter_eq_ok_iff.mpr ⟨r, hbuild, hcheck, rfl⟩, ?_⟩
        refine foldlM_eq_error.mpr ⟨before, d, after, ownedFiles blocks, hdecls, ?_, ?_⟩
        · exact (Emitter.foldlM_addDecl_eq_ok_iff (by simp [places])).mpr
            ⟨blocks, hyields, by simpa using hnodup, by simp⟩
        · refine bind_eq_error.mpr (Or.inr ⟨_, hd, ?_⟩)
          refine foldlM_eq_error.mpr ⟨earlier, f, later, _, rfl,
            (foldlM_addFile_eq_ok_iff hnodup).mpr ⟨hnodup₁, rfl⟩, ?_⟩
          refine addFile_eq_error_iff.mpr ⟨pre, x, post, ?_, ?_, hx, rfl⟩
          · rw [← hfiles, ownedFiles_snoc]
          · intro hmem
            obtain ⟨y, hy, hsame⟩ := List.mem_map.mp hmem
            exact hpre y hy hsame

/-! ## The outcome -/

theorem generateDecl_eq_ok {r : Registry} {d : Decl} {fs : List Cpp.SourceFile}
    (hbuild : Registry.build doc = .ok r) (hcheck : r.check doc = .ok ())
    (hd : (g.emitterOf doc r).declFiles d = .ok fs) :
    g.generateDecl doc d = .ok (fs.map (·.artifact)) := by
  rw [generateDecl, bind_eq_ok]
  refine ⟨_, emitter_eq_ok_iff.mpr ⟨r, hbuild, hcheck, rfl⟩, ?_⟩
  rw [bind_eq_ok]
  exact ⟨fs, hd, rfl⟩

theorem map_artifact_ownedFiles (blocks : List (Decl × List Cpp.SourceFile)) :
    (ownedFiles blocks).map (·.file.artifact) = blocks.flatMap fun b => b.2.map (·.artifact) := by
  simp [ownedFiles, ownedBy, List.map_flatMap, Function.comp_def]

theorem generate_eq_ok_iff {artifacts : List Artifact} :
    g.generate doc = .ok artifacts ↔
      ∃ r blocks, g.Run doc r blocks ∧
        artifacts = blocks.flatMap fun b => b.2.map (·.artifact) := by
  simp only [generate, map_eq_ok, files_eq_ok_iff, ← map_artifact_ownedFiles]
  constructor
  · rintro ⟨files, ⟨r, blocks, hrun, rfl⟩, rfl⟩
    exact ⟨r, blocks, hrun, rfl⟩
  · rintro ⟨r, blocks, hrun, rfl⟩
    exact ⟨_, ⟨r, blocks, hrun, rfl⟩, rfl⟩

/-- Artifacts are the files of a run. -/
theorem exists_run {artifacts : List Artifact} (h : g.generate doc = .ok artifacts) :
    ∃ r blocks, g.Run doc r blocks ∧ g.files doc = .ok (ownedFiles blocks) ∧
      artifacts = (ownedFiles blocks).map (·.file.artifact) := by
  obtain ⟨files, hfiles, rfl⟩ := map_eq_ok.mp h
  obtain ⟨r, blocks, hrun, rfl⟩ := files_eq_ok_iff.mp hfiles
  exact ⟨r, blocks, hrun, hfiles, rfl⟩

/-- In a run that gets through, every declaration generates its own part. -/
theorem Run.mapM_generateDecl {r : Registry} {blocks : List (Decl × List Cpp.SourceFile)}
    (hrun : g.Run doc r blocks) :
    doc.decls.mapM (g.generateDecl doc) = .ok (blocks.map fun b => b.2.map (·.artifact)) := by
  rw [← hrun.yields.decls_eq]
  apply mapM_map_eq_ok
  intro b hb
  exact generateDecl_eq_ok hrun.build hrun.check (hrun.yields.files_eq b hb)

/-- Generation succeeds exactly when the names differ, all types are well formed, every declaration
yields files and these lie apart. The artifacts are then what the declarations generate, one after
the other. It fails exactly for the reason that `Failure` singles out. -/
theorem generate_outcome (g : Generator) (doc : Document) :
    (∀ artifacts, g.generate doc = .ok artifacts ↔
      ∃ r blocks, Registry.build doc = .ok r ∧ r.check doc = .ok () ∧
        (g.emitterOf doc r).Yields doc.decls blocks ∧ Apart (blocks.flatMap (·.2)) ∧
        artifacts = blocks.flatMap fun b => b.2.map (·.artifact)) ∧
    (∀ artifacts, g.generate doc = .ok artifacts →
      ∃ parts, doc.decls.mapM (g.generateDecl doc) = .ok parts ∧ artifacts = parts.flatten) ∧
    (∀ err, g.generate doc = .error err ↔ Failure g doc err) := by
  refine ⟨fun artifacts => ?_, fun artifacts h => ?_, fun err => ?_⟩
  · rw [generate_eq_ok_iff]
    constructor
    · rintro ⟨r, blocks, hrun, rfl⟩
      exact ⟨r, blocks, hrun.build, hrun.check, hrun.yields, hrun.apart, rfl⟩
    · rintro ⟨r, blocks, hbuild, hcheck, hyields, hapart, rfl⟩
      exact ⟨r, blocks, ⟨hbuild, hcheck, hyields, hapart⟩, rfl⟩
  · obtain ⟨r, blocks, hrun, rfl⟩ := generate_eq_ok_iff.mp h
    exact ⟨_, hrun.mapM_generateDecl, List.flatMap_def⟩
  · rw [generate, map_eq_error, files_eq_error_iff]

end Generator

end IdlBinder

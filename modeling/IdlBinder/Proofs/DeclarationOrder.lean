import IdlBinder.Proofs.Fitting
import IdlBinder.Proofs.Generation

set_option autoImplicit false

/-!
# The order of the declarations

A registry knows what is declared, and not where: in whatever order declarations are added, the same
map comes out, `build_eq_of_perm`. All else is asked of each declaration by itself, except that
files lie apart, which is not a matter of order either. So the order of the declarations decides
over the order of the artifacts and over nothing else: `artifacts_follow_declarations`.
-/

namespace IdlBinder

open Traversal

/-! ## The registry of reordered declarations -/

namespace Registry

theorem ordered_of_add {r r' : Registry} {d : Decl} (h : NameMap.Ordered r.entries)
    (hadd : r.add d = .ok r') : NameMap.Ordered r'.entries := by
  unfold add at hadd
  split at hadd
  next => cases hadd
  next =>
    cases hadd
    exact NameMap.ordered_insert h

theorem ordered_of_foldlM {decls : List Decl} {r r' : Registry} (h : NameMap.Ordered r.entries)
    (hrun : decls.foldlM add r = .ok r') : NameMap.Ordered r'.entries := by
  induction decls generalizing r with
  | nil =>
      cases hrun
      exact h
  | cons d decls ih =>
      rw [List.foldlM_cons] at hrun
      obtain ⟨r₁, hadd, hrun⟩ := bind_eq_ok.mp hrun
      exact ih (ordered_of_add h hadd) hrun

variable {doc : Document} {r : Registry} {decls : List Decl}

/-- The registry does not depend on the order of the declarations. -/
theorem build_eq_of_perm (hperm : doc.decls.Perm decls) (h : build doc = .ok r) :
    build { doc with decls := decls } = .ok r := by
  have hnodup : (decls.map (·.name)).Nodup :=
    (hperm.map _).nodup_iff.mp (indexes_of_build h).2
  obtain ⟨r', hrun⟩ := exists_foldlM_of_nodup hnodup
  have h' : build { doc with decls := decls } = .ok r' := hrun
  have hempty : NameMap.Ordered empty.entries := List.Pairwise.nil
  have hentries : r.entries = r'.entries := by
    refine NameMap.eq_of_find?_eq (ordered_of_foldlM hempty h) (ordered_of_foldlM hempty hrun) ?_
    intro name
    refine Option.ext fun d => ?_
    show r.get? name = some d ↔ r'.get? name = some d
    rw [get?_eq_some_iff h, get?_eq_some_iff h', hperm.mem_iff]
  obtain ⟨entries⟩ := r
  obtain rfl : entries = r'.entries := hentries
  exact h'

theorem check_of_perm (hperm : doc.decls.Perm decls) (h : r.check doc = .ok ()) :
    r.check { doc with decls := decls } = .ok () := by
  have hall : ∀ d ∈ doc.decls, r.checkDecl d = .ok () := forM_eq_ok.mp h
  exact forM_eq_ok.mpr fun d hd => hall d (hperm.mem_iff.mpr hd)

end Registry

/-! ## A run over reordered declarations -/

namespace Emitter

/-- The files that a declaration yields; none if it cannot be emitted. -/
def filesAt (e : Emitter) (d : Decl) : List Cpp.SourceFile := (e.declFiles d).toOption.getD []

variable {e : Emitter} {decls : List Decl} {blocks : List (Decl × List Cpp.SourceFile)}

/-- Each block of a run is that of its declaration. -/
theorem Yields.blocks_eq (h : e.Yields decls blocks) :
    blocks = decls.map fun d => (d, e.filesAt d) := by
  have hblock : ∀ b ∈ blocks, (b.1, e.filesAt b.1) = b := by
    intro b hb
    rw [filesAt, h.files_eq b hb]
    rfl
  calc blocks = blocks.map fun b => (b.1, e.filesAt b.1) := by
        rw [List.map_congr_left hblock, List.map_id']
    _ = decls.map fun d => (d, e.filesAt d) := by
        rw [← h.decls_eq, List.map_map]
        rfl

theorem Yields.declFiles_eq (h : e.Yields decls blocks) {d : Decl} (hd : d ∈ decls) :
    e.declFiles d = .ok (e.filesAt d) := by
  rw [h.blocks_eq] at h
  exact h.files_eq (d, e.filesAt d) (List.mem_map_of_mem hd)

theorem yields_map (h : ∀ d ∈ decls, e.declFiles d = .ok (e.filesAt d)) :
    e.Yields decls (decls.map fun d => (d, e.filesAt d)) where
  decls_eq := by simp [Function.comp_def]
  files_eq := by simpa using h

end Emitter

namespace Generator

variable {g : Generator} {doc : Document} {r : Registry} {decls : List Decl}
variable {blocks : List (Decl × List Cpp.SourceFile)}

/-- A run gets through in any order. -/
theorem Run.perm (hrun : g.Run doc r blocks) (hperm : doc.decls.Perm decls) :
    g.Run { doc with decls := decls } r
      (decls.map fun d => (d, (g.emitterOf doc r).filesAt d)) where
  build := Registry.build_eq_of_perm hperm hrun.build
  check := Registry.check_of_perm hperm hrun.check
  yields := Emitter.yields_map fun d hd => hrun.yields.declFiles_eq (hperm.mem_iff.mpr hd)
  apart := by
    have hapart := hrun.apart
    rw [hrun.yields.blocks_eq, Apart] at hapart
    have hfiles := ((hperm.map fun d => (d, (g.emitterOf doc r).filesAt d)).flatMap_right
      (·.2)).map (·.path.components)
    exact hfiles.nodup_iff.mp hapart

theorem Run.artifacts_eq (hrun : g.Run doc r blocks) :
    (blocks.flatMap fun b => b.2.map (·.artifact)) =
      doc.decls.flatMap fun d => ((g.emitterOf doc r).filesAt d).map (·.artifact) := by
  rw [hrun.yields.blocks_eq, List.flatMap_map]

theorem Run.generateDecl_eq (hrun : g.Run doc r blocks) {d : Decl} (hd : d ∈ doc.decls) :
    g.generateDecl doc d = .ok (((g.emitterOf doc r).filesAt d).map (·.artifact)) :=
  generateDecl_eq_ok hrun.build hrun.check (hrun.yields.declFiles_eq hd)

/-- A document is generated from in one order of its declarations if it is in another. Every
declaration has the same part in both results, and the parts stand in the order of the
declarations. -/
theorem artifacts_follow_declarations (g : Generator) (doc : Document) (decls : List Decl)
    (hperm : doc.decls.Perm decls) :
    ((∃ artifacts, g.generate doc = .ok artifacts) ↔
      ∃ artifacts, g.generate { doc with decls := decls } = .ok artifacts) ∧
    ∀ artifacts artifacts', g.generate doc = .ok artifacts →
      g.generate { doc with decls := decls } = .ok artifacts' →
      ∃ part : Decl → List Artifact,
        (∀ d ∈ doc.decls, g.generateDecl doc d = .ok (part d) ∧
          g.generateDecl { doc with decls := decls } d = .ok (part d)) ∧
        artifacts = doc.decls.flatMap part ∧ artifacts' = decls.flatMap part := by
  refine ⟨⟨?_, ?_⟩, ?_⟩
  · rintro ⟨artifacts, h⟩
    obtain ⟨r, blocks, hrun, -⟩ := generate_eq_ok_iff.mp h
    exact ⟨_, generate_eq_ok_iff.mpr ⟨r, _, hrun.perm hperm, rfl⟩⟩
  · rintro ⟨artifacts, h⟩
    obtain ⟨r, blocks, hrun, -⟩ := generate_eq_ok_iff.mp h
    exact ⟨_, generate_eq_ok_iff.mpr ⟨r, _, hrun.perm hperm.symm, rfl⟩⟩
  · intro artifacts artifacts' h h'
    obtain ⟨r, blocks, hrun, rfl⟩ := generate_eq_ok_iff.mp h
    have hrun' := hrun.perm hperm
    have hother := generate_eq_ok_iff.mpr ⟨r, _, hrun', rfl⟩
    obtain rfl := Except.ok.inj (h'.symm.trans hother)
    refine ⟨fun d => ((g.emitterOf doc r).filesAt d).map (·.artifact), fun d hd => ?_,
      hrun.artifacts_eq, hrun'.artifacts_eq⟩
    exact ⟨hrun.generateDecl_eq hd, hrun'.generateDecl_eq (hperm.mem_iff.mp hd)⟩

end Generator

open Sample in
theorem line_last_generates :
    doc.decls.Perm [dot, color, line] ∧
      ∃ part : Decl → List Artifact,
        (Generator.standard {}).generate doc = .ok (part line ++ part dot ++ part color) ∧
        (Generator.standard {}).generate { doc with decls := [dot, color, line] } =
          .ok (part dot ++ part color ++ part line) ∧
        (part line).length = 4 := by
  have hperm : doc.decls.Perm [dot, color, line] := @List.perm_append_comm _ [line] [dot, color]
  have hdone : ((Generator.standard {}).generate doc).toOption.map (·.length) = some 8 := by
    decide +kernel
  have hline :
      ((Generator.standard {}).generateDecl doc line).toOption.map (·.length) = some 4 := by
    decide +kernel
  obtain ⟨artifacts, h, -⟩ := toOption_map_eq_some.mp hdone
  obtain ⟨own, hown, hlength⟩ := toOption_map_eq_some.mp hline
  obtain ⟨hiff, hparts⟩ :=
    Generator.artifacts_follow_declarations (Generator.standard {}) doc _ hperm
  obtain ⟨artifacts', h'⟩ := hiff.mp ⟨artifacts, h⟩
  obtain ⟨part, hpart, rfl, rfl⟩ := hparts artifacts artifacts' h h'
  have hpart_line : own = part line :=
    Except.ok.inj (hown.symm.trans (hpart line List.mem_cons_self).1)
  refine ⟨hperm, part, ?_, ?_, hpart_line ▸ hlength⟩
  · rw [h]
    simp [doc]
  · rw [h']
    simp

end IdlBinder

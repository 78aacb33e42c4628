import IdlBinder.Proofs.Generation

set_option autoImplicit false

/-!
# The files of a declaration

Which files a declaration may yield, each with what it is made from (`Emits`), and which headers are
always among them (`exists_header_of_mem_headerStems`). What is shown of every kind of file is so
shown of all files of a run, without opening the emitters again.
-/

namespace IdlBinder

open Traversal

/-- The stems of the headers generated for a declaration: a record has one for its struct and one
for its bridge. -/
def Settings.headerStems (s : Settings) (d : Decl) : List String :=
  match d.body with
  | .enum _ | .interface _ => [s.fileStem d.name]
  | .record r => [s.recordFileStem d.name r.ext, s.bridgeFileStem d.name r.ext]

namespace Emitter

/-- The kinds of files that a declaration yields. -/
inductive Emits (e : Emitter) (d : Decl) : Cpp.SourceFile → Prop where
  | enumHeader {enum : Enum} : d.body = .enum enum → Emits e d (e.enumHeader d enum)
  | classHeader {i : Interface} (consts : List Cpp.ConstDef) :
      d.body = .interface i → Emits e d (e.classHeader d i consts)
  | classSource {i : Interface} (consts : List Cpp.ConstDef) :
      d.body = .interface i → Emits e d (e.classSource d consts)
  | structHeader {r : Record} : d.body = .record r → Emits e d (e.structHeader d r)
  | structSource {r : Record} {f : Cpp.SourceFile} :
      d.body = .record r → e.structSource d r = .ok f → Emits e d f
  | bridgeHeader {r : Record} : d.body = .record r → Emits e d (e.bridgeHeader d r)
  | bridgeSource {r : Record} : d.body = .record r → Emits e d (e.bridgeSource d r)

variable {e : Emitter} {d : Decl} {fs : List Cpp.SourceFile}

theorem structSource_eq_ok {r : Record} {f : Cpp.SourceFile} (h : e.structSource d r = .ok f) :
    ∃ consts : List Cpp.ConstDef,
      f = e.source (e.settings.recordFileStem d.name r.ext) [] (consts.map .const) := by
  rw [structSource, bind_eq_ok] at h
  obtain ⟨consts, -, hf⟩ := h
  cases hf
  exact ⟨consts, rfl⟩

/-- Between the two headers of a record stands a source if the record has constants. -/
theorem recordFiles_eq_ok {r : Record} (h : e.recordFiles d r = .ok fs) :
    ∃ sources, fs = e.structHeader d r :: (sources ++ [e.bridgeHeader d r, e.bridgeSource d r]) ∧
      ∀ f ∈ sources, e.structSource d r = .ok f := by
  rw [recordFiles] at h
  split at h
  · cases h
    exact ⟨[], rfl, by simp⟩
  · obtain ⟨source, hsource, hfs⟩ := bind_eq_ok.mp h
    cases hfs
    exact ⟨[source], rfl, by simpa using hsource⟩

/-- After the header of an interface stands a source if the interface has constants. -/
theorem interfaceFiles_eq_ok {i : Interface} (h : e.interfaceFiles d i = .ok fs) :
    ∃ consts sources, fs = e.classHeader d i consts :: sources ∧
      ∀ f ∈ sources, ∃ defined, f = e.classSource d defined := by
  rw [interfaceFiles] at h
  split at h
  · cases h
    exact ⟨[], [], rfl, by simp⟩
  · obtain ⟨consts, -, hfs⟩ := bind_eq_ok.mp h
    -- The constants of a generic interface move from the source into the header.
    split at hfs
    · cases hfs
      exact ⟨[], [e.classSource d consts], rfl, fun f hf => ⟨consts, List.mem_singleton.mp hf⟩⟩
    · cases hfs
      exact ⟨consts, [e.classSource d []], rfl, fun f hf => ⟨[], List.mem_singleton.mp hf⟩⟩

/-- Every file of a declaration is of one of the kinds. -/
theorem emits_of_mem {f : Cpp.SourceFile} (h : e.declFiles d = .ok fs) (hf : f ∈ fs) :
    e.Emits d f := by
  rw [declFiles] at h
  split at h
  case h_1 enum hbody =>
    cases h
    obtain rfl := List.mem_singleton.mp hf
    exact .enumHeader hbody
  case h_2 r hbody =>
    obtain ⟨sources, rfl, hsources⟩ := recordFiles_eq_ok h
    simp only [List.mem_cons, List.mem_append, List.not_mem_nil, or_false] at hf
    rcases hf with rfl | hf | rfl | rfl
    · exact .structHeader hbody
    · exact .structSource hbody (hsources f hf)
    · exact .bridgeHeader hbody
    · exact .bridgeSource hbody
  case h_3 i hbody =>
    obtain ⟨consts, sources, rfl, hsources⟩ := interfaceFiles_eq_ok h
    rcases List.mem_cons.mp hf with rfl | hf
    · exact .classHeader consts hbody
    · obtain ⟨defined, rfl⟩ := hsources f hf
      exact .classSource defined hbody

/-- The headers of a declaration are among its files. -/
theorem exists_header_of_mem_headerStems {stem : String} (h : e.declFiles d = .ok fs)
    (hstem : stem ∈ e.settings.headerStems d) :
    ∃ f ∈ fs, f.path = e.settings.headerPath stem := by
  rw [declFiles] at h
  split at h
  case h_1 enum hbody =>
    cases h
    simp only [Settings.headerStems, hbody, List.mem_singleton] at hstem
    exact ⟨_, List.mem_singleton_self _, by rw [hstem]; rfl⟩
  case h_2 r hbody =>
    obtain ⟨sources, rfl, -⟩ := recordFiles_eq_ok h
    simp only [Settings.headerStems, hbody, List.mem_cons, List.not_mem_nil, or_false] at hstem
    rcases hstem with rfl | rfl
    · exact ⟨e.structHeader d r, by simp, rfl⟩
    · exact ⟨e.bridgeHeader d r, by simp, rfl⟩
  case h_3 i hbody =>
    obtain ⟨consts, sources, rfl, -⟩ := interfaceFiles_eq_ok h
    simp only [Settings.headerStems, hbody, List.mem_singleton] at hstem
    exact ⟨_, List.mem_cons_self, by rw [hstem]; rfl⟩

end Emitter

/-! ## The files of a run -/

/-- Where the files of declarations go. -/
def pathsOf (blocks : List (Decl × List Cpp.SourceFile)) : List Path :=
  (blocks.flatMap (·.2)).map (·.path)

theorem map_path_artifact_ownedFiles (blocks : List (Decl × List Cpp.SourceFile)) :
    ((ownedFiles blocks).map (·.file.artifact)).map (·.path) = pathsOf blocks := by
  simp [ownedFiles, ownedBy, pathsOf, Cpp.SourceFile.artifact, List.map_flatMap, Function.comp_def]

namespace Generator.Run

variable {g : Generator} {doc : Document} {r : Registry}
variable {blocks : List (Decl × List Cpp.SourceFile)} {d : Decl}

theorem checked (hrun : g.Run doc r blocks) : Registry.Checked doc r :=
  Registry.checked_of_check hrun.build hrun.check

/-- The files of a run lie at different places. -/
theorem nodup_places (hrun : g.Run doc r blocks) : (places (ownedFiles blocks)).Nodup := by
  rw [places_ownedFiles]
  exact hrun.apart

theorem exists_block (hrun : g.Run doc r blocks) (hd : d ∈ doc.decls) :
    ∃ fs, (d, fs) ∈ blocks := by
  rw [← hrun.yields.decls_eq] at hd
  obtain ⟨⟨d', fs⟩, hb, rfl⟩ := List.mem_map.mp hd
  exact ⟨fs, hb⟩

/-- A run writes the headers of every declaration. -/
theorem headerPath_mem (hrun : g.Run doc r blocks) (hd : d ∈ doc.decls) {stem : String}
    (hstem : stem ∈ g.settings.headerStems d) :
    g.settings.headerPath stem ∈ pathsOf blocks := by
  obtain ⟨fs, hb⟩ := hrun.exists_block hd
  obtain ⟨f, hf, hpath⟩ :=
    Emitter.exists_header_of_mem_headerStems (hrun.yields.files_eq _ hb) hstem
  exact List.mem_map.mpr ⟨f, List.mem_flatMap.mpr ⟨_, hb, hf⟩, hpath⟩

/-- A file of a run comes from a declaration of the document. -/
theorem exists_emits (hrun : g.Run doc r blocks) {f : OwnedFile} (hf : f ∈ ownedFiles blocks) :
    ∃ d ∈ doc.decls, (g.emitterOf doc r).Emits d f.file := by
  obtain ⟨b, hb, hf⟩ := List.mem_flatMap.mp hf
  obtain ⟨file, hfile, rfl⟩ := List.mem_map.mp hf
  refine ⟨b.1, ?_, Emitter.emits_of_mem (hrun.yields.files_eq b hb) hfile⟩
  rw [← hrun.yields.decls_eq]
  exact List.mem_map_of_mem hb

end Generator.Run

end IdlBinder

import IdlBinder.Command.Run
import IdlBinder.Proofs.Emission
import IdlBinder.Proofs.Route

set_option autoImplicit false

/-!
# Confinement of output

Artifacts are meant to go below the output directory. Of the directories in a path, those that are
chosen for headers and sources are checked; the file name, which comes from an identifier, is not.
`artifacts_below_iff` says which file names keep the output where it belongs: those that climb no
further than the directory of their kind is deep. `escaped_above` is a document with another one.
-/

namespace IdlBinder

open Traversal

/-! ## Where files go -/

namespace Settings

variable (s : Settings)

/-- A header: the directory of headers, and the file name in it. -/
def headerPlacement (stem : String) : Path × Path := (s.headerDir, ⟨stem ++ "." ++ s.headerExt⟩)

/-- A source: the directory of sources, and the file name in it. -/
def sourcePlacement (stem : String) : Path × Path := (s.sourceDir, ⟨stem ++ "." ++ s.sourceExt⟩)

/-- The directory and the file name of every file of a declaration, in order. A source stands beside
the first header if there are constants. -/
def placements (d : Decl) : List (Path × Path) :=
  match d.body with
  | .enum _ => [s.headerPlacement (s.fileStem d.name)]
  | .interface i =>
    s.headerPlacement (s.fileStem d.name) ::
      if i.consts.isEmpty then [] else [s.sourcePlacement (s.fileStem d.name)]
  | .record r =>
    s.headerPlacement (s.recordFileStem d.name r.ext) ::
      ((if r.consts.isEmpty then [] else [s.sourcePlacement (s.recordFileStem d.name r.ext)]) ++
        [s.headerPlacement (s.bridgeFileStem d.name r.ext),
          s.sourcePlacement (s.bridgeFileStem d.name r.ext)])

end Settings

namespace Emitter

variable {e : Emitter} {d : Decl} {fs : List Cpp.SourceFile}

/-- Where the files of a declaration go follows from the declaration alone. -/
theorem map_path_of_declFiles (h : e.declFiles d = .ok fs) :
    fs.map (·.path) = (e.settings.placements d).map fun p => p.1.join p.2 := by
  rw [declFiles] at h
  split at h
  case h_1 enum hbody =>
    cases h
    simp only [Settings.placements, hbody]
    rfl
  case h_2 r hbody =>
    simp only [Settings.placements, hbody]
    rw [recordFiles] at h
    split at h
    case isTrue hconsts =>
      cases h
      rw [if_pos hconsts]
      rfl
    case isFalse hconsts =>
      obtain ⟨source, hsource, hfs⟩ := bind_eq_ok.mp h
      obtain ⟨consts, rfl⟩ := structSource_eq_ok hsource
      cases hfs
      rw [if_neg hconsts]
      rfl
  case h_3 i hbody =>
    simp only [Settings.placements, hbody]
    rw [interfaceFiles] at h
    split at h
    case isTrue hconsts =>
      cases h
      rw [if_pos hconsts]
      rfl
    case isFalse hconsts =>
      obtain ⟨consts, -, hfs⟩ := bind_eq_ok.mp h
      rw [if_neg hconsts]
      split at hfs <;> cases hfs <;> rfl

end Emitter

/-- The artifacts of a document lie where the placements of its declarations say. -/
theorem Generator.map_path_of_generate {g : Generator} {doc : Document} {artifacts : List Artifact}
    (h : g.generate doc = .ok artifacts) :
    artifacts.map (·.path) =
      (doc.decls.flatMap g.settings.placements).map fun p => p.1.join p.2 := by
  obtain ⟨r, blocks, hrun, rfl⟩ := generate_eq_ok_iff.mp h
  rw [← hrun.yields.decls_eq, List.map_flatMap, List.flatMap_map, List.map_flatMap,
    List.flatMap_def, List.flatMap_def]
  congr 1
  apply List.map_congr_left
  intro b hb
  have hpaths := Emitter.map_path_of_declFiles (hrun.yields.files_eq b hb)
  rw [List.map_map]
  exact hpaths

/-! ## Staying below the output directory -/

/-- A file name that, followed from its directory, does not lead above the place where this
directory starts. -/
def Stays (p : Path × Path) : Prop := ∃ n ≤ p.1.route.names.length, p.2.route.start = .above n

instance (p : Path × Path) : Decidable (Stays p) :=
  inferInstanceAs (Decidable (∃ _, _ ∧ _))

theorem Command.checkSubdir_eq_ok_iff {flag : Flag} {dir : Path} :
    checkSubdir flag dir = .ok () ↔ dir.goesUp = false ∧ dir.isRooted = false := by
  rw [checkSubdir]
  cases dir.goesUp <;> cases dir.isRooted <;> simp

/-- A file starts where its directory does iff its name leads out of this directory no further. -/
theorem start_route_join_iff {dir : Path} (hup : dir.goesUp = false) (hroot : dir.isRooted = false)
    (name : Path) : (dir.join name).route.start = .above 0 ↔ Stays (dir, name) := by
  rw [Path.route_join, Route.start_follow_iff (Path.start_route_of_not_goesUp hup hroot), Stays]

namespace Settings

variable {s : Settings}

/-- Every file goes to one of the two directories. -/
theorem fst_of_mem_placements {d : Decl} {p : Path × Path} (h : p ∈ s.placements d) :
    p.1 = s.headerDir ∨ p.1 = s.sourceDir := by
  rw [placements] at h
  split at h <;>
    simp only [List.mem_cons, List.mem_append, List.mem_ite_nil_left, List.not_mem_nil,
      or_false] at h
  case h_1 =>
    subst h
    exact Or.inl rfl
  case h_2 =>
    rcases h with rfl | ⟨-, rfl⟩
    · exact Or.inl rfl
    · exact Or.inr rfl
  case h_3 =>
    rcases h with rfl | ⟨-, rfl⟩ | rfl | rfl
    · exact Or.inl rfl
    · exact Or.inr rfl
    · exact Or.inl rfl
    · exact Or.inr rfl

end Settings

namespace Command

theorem checkDirs_eq_ok_iff {r : GenerateRequest} :
    checkDirs r = .ok () ↔
      r.outDir.goesUp = false ∧ checkSubdir .headerDir r.settings.headerDir = .ok () ∧
        checkSubdir .sourceDir r.settings.sourceDir = .ok () := by
  rw [checkDirs]
  cases r.outDir.goesUp with
  | true => simp [throw, throwThe, MonadExceptOf.throw, bind, Except.bind]
  | false =>
      simp only [Bool.false_eq_true, if_false, bind_eq_ok, true_and]
      constructor
      · rintro ⟨⟨⟩, hheader, hsource⟩
        exact ⟨hheader, hsource⟩
      · exact fun h => ⟨(), h⟩

/-- Where the artifacts of a request start is decided by their file names. -/
theorem start_route_iff_stays {r : GenerateRequest} {doc : Document} {artifacts : List Artifact}
    (hdirs : checkDirs r = .ok ())
    (hgenerate : (Generator.standard r.settings).generate doc = .ok artifacts) :
    (∀ a ∈ artifacts, a.path.route.start = .above 0) ↔
      ∀ d ∈ doc.decls, ∀ p ∈ r.settings.placements d, Stays p := by
  obtain ⟨-, hheader, hsource⟩ := checkDirs_eq_ok_iff.mp hdirs
  -- The directory of a file has been checked, whichever of the two it is.
  have hstays : ∀ d, ∀ p ∈ r.settings.placements d,
      ((p.1.join p.2).route.start = .above 0 ↔ Stays p) := by
    rintro d ⟨dir, name⟩ hp
    have hdir : dir.goesUp = false ∧ dir.isRooted = false := by
      rcases Settings.fst_of_mem_placements hp with h | h <;> obtain rfl : dir = _ := h
      · exact checkSubdir_eq_ok_iff.mp hheader
      · exact checkSubdir_eq_ok_iff.mp hsource
    exact start_route_join_iff hdir.1 hdir.2 name
  calc (∀ a ∈ artifacts, a.path.route.start = .above 0)
      ↔ ∀ path ∈ artifacts.map (·.path), path.route.start = .above 0 := by
        simp only [List.forall_mem_map]
    _ ↔ ∀ d ∈ doc.decls, ∀ p ∈ r.settings.placements d, (p.1.join p.2).route.start = .above 0 := by
        rw [Generator.map_path_of_generate hgenerate]
        simp only [List.forall_mem_map, List.forall_mem_flatMap, Generator.settings_standard]
    _ ↔ ∀ d ∈ doc.decls, ∀ p ∈ r.settings.placements d, Stays p :=
        forall₂_congr fun d _ => forall₂_congr fun p hp => hstays d p hp

/-- The artifacts of a request stay below the output directory, whichever it names, exactly if every
file name does: none of them starts at the root, and none climbs further than the directory of its
kind is deep. Checking the directories does not see to this. -/
theorem artifacts_below_iff {r : GenerateRequest} {doc : Document} {artifacts : List Artifact}
    (hdirs : checkDirs r = .ok ())
    (hgenerate : (Generator.standard r.settings).generate doc = .ok artifacts) :
    (∀ outDir : Path, checkDirs { r with outDir := outDir } = .ok () →
      ∀ a ∈ artifacts, (outDir.join a.path).route.IsBelow outDir.route) ↔
      ∀ d ∈ doc.decls, ∀ p ∈ r.settings.placements d, Stays p := by
  obtain ⟨-, hheader, hsource⟩ := checkDirs_eq_ok_iff.mp hdirs
  have houtDir : ∀ outDir : Path,
      checkDirs { r with outDir := outDir } = .ok () ↔ outDir.goesUp = false := by
    intro outDir
    simp [checkDirs_eq_ok_iff, hheader, hsource]
  calc (∀ outDir : Path, checkDirs { r with outDir := outDir } = .ok () →
        ∀ a ∈ artifacts, (outDir.join a.path).route.IsBelow outDir.route)
      ↔ ∀ a ∈ artifacts, ∀ outDir : Path, outDir.goesUp = false →
          (outDir.join a.path).route.IsBelow outDir.route := by
        simp only [houtDir]
        exact ⟨fun h a ha outDir hup => h outDir hup a ha,
          fun h outDir hup a ha => h a ha outDir hup⟩
    _ ↔ ∀ a ∈ artifacts, a.path.route.start = .above 0 :=
        forall₂_congr fun a _ => Path.isBelow_join_iff a.path
    _ ↔ ∀ d ∈ doc.decls, ∀ p ∈ r.settings.placements d, Stays p :=
        start_route_iff_stays hdirs hgenerate

end Command

namespace Sample

/-- An enum whose header leaves the directory of headers, but not the output directory. -/
def circle : Document := { decls := [⟨"../shapes/circle", [], .enum {}⟩] }

/-- An enum whose header leaves the output directory as well. -/
def escaped : Document := { decls := [⟨"../../escaped", [], .enum {}⟩] }

def request : Command.GenerateRequest := { input := ⟨"ast.json"⟩, outDir := ⟨"out"⟩ }

end Sample

namespace Command

open Sample

theorem circle_below :
    ∃ artifacts, (Generator.standard {}).generate circle = .ok artifacts ∧
      artifacts.map (·.path) = [⟨"include/../shapes/circle.hpp"⟩] ∧
      ∀ a ∈ artifacts, (request.outDir.join a.path).route.IsBelow request.outDir.route := by
  have hpaths : ((Generator.standard {}).generate circle).toOption.map (·.map (·.path)) =
      some [⟨"include/../shapes/circle.hpp"⟩] := by
    decide +kernel
  obtain ⟨artifacts, hgenerate, hpaths⟩ := toOption_map_eq_some.mp hpaths
  have hdirs : checkDirs request = .ok () := by rfl
  have hstays : ∀ d ∈ circle.decls, ∀ p ∈ request.settings.placements d, Stays p := by decide
  refine ⟨artifacts, hgenerate, hpaths, ?_⟩
  exact (artifacts_below_iff hdirs hgenerate).mpr hstays request.outDir hdirs

/-- The directories pass, and still the only artifact lies beside the output directory. -/
theorem escaped_above :
    checkDirs request = .ok () ∧
      ((Generator.standard request.settings).generate escaped).toOption.map (·.map (·.path)) =
        some [⟨"include/../../escaped.hpp"⟩] ∧
      (request.outDir.join ⟨"include/../../escaped.hpp"⟩).route = ⟨.above 0, ["escaped.hpp"]⟩ ∧
      ¬ (request.outDir.join ⟨"include/../../escaped.hpp"⟩).route.IsBelow request.outDir.route :=
  ⟨by rfl, by decide +kernel, by decide, by decide⟩

end Command

end IdlBinder

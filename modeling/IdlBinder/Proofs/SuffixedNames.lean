import IdlBinder.Proofs.Confinement
import IdlBinder.Proofs.Generation
import IdlBinder.Proofs.PathComponents
import IdlBinder.Proofs.WordCasing

set_option autoImplicit false

/-!
# Suffixed names

A record that is finished by hand leaves its plain name to the hand-written part, and its generated
parts take names with suffix words. Suffixes are put behind an underscore before the whole is
spelled in a style, so camel case and snake case can be taken part by part:
`apply_upperCamel_intercalate` and `apply_snake_intercalate`.

The stem of a bridge starts with the stem of its record and ends in `bridge`. Since stems may start
at the root, this does not always keep the files of the two apart: `suffixed_names_apart` says when
it does, and `underscore_swallowed` is a record of which it does not.
-/

namespace IdlBinder

open Name Text Traversal

/-! ## Spelled words -/

namespace Text

theorem upperChar_ne_nil (c : Char) : upperChar c ≠ [] := by
  have hall : ∀ p ∈ upperExpansions, p.2 ≠ [] := by decide +kernel
  rw [upperChar]
  split
  case isTrue => simp
  case isFalse =>
    split
    case h_1 codes hcodes =>
      obtain ⟨before, after, hmem, -⟩ := List.lookup_eq_some_iff.mp hcodes
      simpa using hall (c.toNat, codes) (by simp [hmem])
    case h_2 => simp

theorem lowerChar_ne_nil (c : Char) : lowerChar c ≠ [] := by
  rw [lowerChar]
  split
  · simp
  · split <;> simp

variable {w : List Char}

theorem capitalize_ne_nil (h : w ≠ []) : capitalize w ≠ [] := by
  obtain ⟨c, w, rfl⟩ := List.exists_cons_of_ne_nil h
  exact List.append_ne_nil_of_left_ne_nil (upperChar_ne_nil c) _

theorem lowerWord_ne_nil (h : w ≠ []) : lowerWord w ≠ [] := by
  obtain ⟨c, w, rfl⟩ := List.exists_cons_of_ne_nil h
  refine List.append_ne_nil_of_left_ne_nil ?_ _
  split
  · simp
  · exact lowerChar_ne_nil c

end Text

/-! ## Styles part by part -/

namespace Casing

theorem words_toList_intercalate (parts : List String) :
    words ("_".intercalate parts).toList = parts.flatMap fun part => words part.toList := by
  rw [String.toList_intercalate]
  exact (words_intercalate _).trans (List.flatMap_map ..)

theorem apply_upperCamel_intercalate (parts : List String) :
    upperCamel.apply ("_".intercalate parts) = String.join (parts.map upperCamel.apply) := by
  rw [← String.toList_inj, apply, String.toList_ofList, words_toList_intercalate,
    String.toList_join, List.flatMap_assoc, List.flatMap_map]
  simp only [apply, String.toList_ofList]

theorem apply_upperCamel_eq_empty_iff {name : String} :
    upperCamel.apply name = "" ↔ ∀ c ∈ name.toList, isSeparator c := by
  rw [← words_eq_nil_iff, ← String.toList_eq_nil_iff, apply, String.toList_ofList,
    List.flatMap_eq_nil_iff]
  constructor
  · intro h
    by_contra hne
    obtain ⟨w, ws, hws⟩ := List.exists_cons_of_ne_nil hne
    have hw : w ∈ words name.toList := by simp [hws]
    exact capitalize_ne_nil (ne_nil_of_mem_words hw) (h w hw)
  · intro h
    simp [h]

/-- The words of a name as snake case spells them. -/
def snakeWords (name : String) : List String :=
  (words name.toList).map fun w => String.ofList (lowerWord w)

theorem apply_snake_eq (name : String) : snake.apply name = "_".intercalate (snakeWords name) := by
  rw [← String.toList_inj, apply, String.toList_ofList, String.toList_intercalate, snakeWords,
    List.map_map]
  simp [Function.comp_def]

theorem snakeWords_intercalate (parts : List String) :
    snakeWords ("_".intercalate parts) = parts.flatMap snakeWords := by
  rw [snakeWords, words_toList_intercalate, List.map_flatMap]
  rfl

theorem intercalate_eq_empty_iff {ws : List String} (h : ∀ w ∈ ws, w ≠ "") :
    "_".intercalate ws = "" ↔ ws = [] := by
  rcases ws with _ | ⟨w, _ | ⟨v, ws⟩⟩
  · simp
  · simpa using h w List.mem_cons_self
  · simp [String.intercalate_cons_cons]

theorem apply_snake_eq_empty_iff {name : String} :
    snake.apply name = "" ↔ snakeWords name = [] := by
  rw [apply_snake_eq]
  refine intercalate_eq_empty_iff (List.forall_mem_map.mpr fun w hw => ?_)
  simpa using lowerWord_ne_nil (ne_nil_of_mem_words hw)

theorem snakeWords_eq_nil_iff {name : String} :
    snakeWords name = [] ↔ ∀ c ∈ name.toList, isSeparator c := by
  rw [snakeWords, List.map_eq_nil_iff, words_eq_nil_iff]

theorem filter_apply_snake_eq_nil_iff {parts : List String} :
    (parts.map snake.apply).filter (· ≠ "") = [] ↔ parts.flatMap snakeWords = [] := by
  simp [List.filter_eq_nil_iff, apply_snake_eq_empty_iff]

/-- Parts that have no words leave no trace. -/
theorem apply_snake_intercalate (parts : List String) :
    snake.apply ("_".intercalate parts) =
      "_".intercalate ((parts.map snake.apply).filter (· ≠ "")) := by
  rw [apply_snake_eq, snakeWords_intercalate]
  induction parts with
  | nil => rfl
  | cons part parts ih =>
      rw [List.flatMap_cons, List.map_cons]
      by_cases hpart : snakeWords part = []
      · rw [List.filter_cons_of_neg (by simpa [apply_snake_eq_empty_iff] using hpart), hpart,
          List.nil_append, ih]
      · -- The part has words, and an underscore follows if one of those after it has some too.
        rw [List.filter_cons_of_pos (by simpa [apply_snake_eq_empty_iff] using hpart)]
        by_cases hparts : parts.flatMap snakeWords = []
        · rw [hparts, filter_apply_snake_eq_nil_iff.mpr hparts, List.append_nil, ← apply_snake_eq,
            String.intercalate_singleton]
        · rw [String.intercalate_append_of_ne_nil hpart hparts, ih, ← apply_snake_eq,
            String.intercalate_cons_of_ne_nil (mt filter_apply_snake_eq_nil_iff.mp hparts)]

/-- More parts make for a longer spelling. -/
theorem exists_apply_snake_append (parts : List String) {more : List String}
    (h : more.flatMap snakeWords ≠ []) :
    ∃ glue, snake.apply ("_".intercalate (parts ++ more)) =
      snake.apply ("_".intercalate parts) ++ glue ++ snake.apply ("_".intercalate more) := by
  simp only [apply_snake_eq, snakeWords_intercalate, List.flatMap_append]
  by_cases hparts : parts.flatMap snakeWords = []
  · exact ⟨"", by simp [hparts]⟩
  · exact ⟨"_", String.intercalate_append_of_ne_nil hparts h⟩

theorem apply_snake_append_eq_iff (parts more : List String) :
    snake.apply ("_".intercalate (parts ++ more)) = snake.apply ("_".intercalate parts) ↔
      more.flatMap snakeWords = [] := by
  constructor
  · intro heq
    by_contra hne
    obtain ⟨glue, hglue⟩ := exists_apply_snake_append parts hne
    rw [heq, String.append_assoc, ← String.toList_inj, String.toList_append,
      List.self_eq_append_right, String.toList_eq_nil_iff, String.append_eq_empty_iff,
      apply_snake_eq_empty_iff, snakeWords_intercalate] at hglue
    exact hne hglue.2
  · intro hnil
    simp only [apply_snake_eq, snakeWords_intercalate, List.flatMap_append, hnil, List.append_nil]

end Casing

/-! ## Names of a record -/

namespace Settings

variable (s : Settings) (name : String) (ext : Extension)

/-- What the name of a record's struct is put together from. -/
def recordParts : List String := name :: if ext.native then [s.extSuffix] else []

/-- What the name of a record's bridge is put together from. -/
def bridgeParts : List String := name :: (if ext.any then [s.extSuffix] else []) ++ ["bridge"]

theorem recordBase_eq : s.recordBase name ext = "_".intercalate (s.recordParts name ext) := by
  rw [recordBase, recordParts]
  split <;> simp [String.intercalate_cons_cons]

theorem bridgeBase_eq : s.bridgeBase name ext = "_".intercalate (s.bridgeParts name ext) := by
  rw [bridgeBase, bridgeParts]
  split <;> simp [String.intercalate_cons_cons, String.append_assoc]

/-- A bridge has all parts of its record in front: what is finished by hand on the native side is so
on some side. -/
theorem exists_bridgeParts_eq :
    ∃ more, s.bridgeParts name ext = s.recordParts name ext ++ (more ++ ["bridge"]) := by
  rcases ext with ⟨_ | _, _ | _⟩
  · exact ⟨[], rfl⟩
  · exact ⟨[s.extSuffix], rfl⟩
  · exact ⟨[], rfl⟩
  · exact ⟨[], rfl⟩

/-- The names of a record and of its bridge are made from the plain name, and differ from it as far
as the suffix has something to add. -/
structure SuffixesApart : Prop where
  structName_eq : s.structName name ext =
    s.nativeType name ++ if ext.native then Casing.upperCamel.apply s.extSuffix else ""
  bridgeName_eq : s.bridgeName name ext =
    s.nativeType name ++ (if ext.any then Casing.upperCamel.apply s.extSuffix else "") ++ "Bridge"
  recordFileStem_eq : s.recordFileStem name ext =
    "_".intercalate (((s.recordParts name ext).map Casing.snake.apply).filter (· ≠ ""))
  bridgeFileStem_eq : s.bridgeFileStem name ext =
    "_".intercalate (((s.bridgeParts name ext).map Casing.snake.apply).filter (· ≠ ""))
  structName_ne_iff : s.structName name ext ≠ s.nativeType name ↔
    ext.native ∧ ∃ c ∈ s.extSuffix.toList, isSeparator c = false
  recordFileStem_ne_iff : s.recordFileStem name ext ≠ s.fileStem name ↔
    ext.native ∧ ∃ c ∈ s.extSuffix.toList, isSeparator c = false
  bridgeFileStem_ne : s.bridgeFileStem name ext ≠ s.recordFileStem name ext

variable {s}

theorem structName_eq_append (htype : s.nativeStyles.type = .upperCamel) :
    s.structName name ext =
      s.nativeType name ++ if ext.native then Casing.upperCamel.apply s.extSuffix else "" := by
  rw [structName, nativeType, htype, recordBase_eq, Casing.apply_upperCamel_intercalate,
    recordParts]
  split <;> simp [String.join_cons]

theorem bridgeName_eq_append (htype : s.nativeStyles.type = .upperCamel) :
    s.bridgeName name ext = s.nativeType name ++
      (if ext.any then Casing.upperCamel.apply s.extSuffix else "") ++ "Bridge" := by
  have hbridge : Casing.upperCamel.apply "bridge" = "Bridge" := by decide +kernel
  rw [bridgeName, nativeType, htype, bridgeBase_eq, Casing.apply_upperCamel_intercalate,
    bridgeParts]
  split <;> simp [String.join_cons, hbridge, String.append_assoc]

theorem structName_ne_iff (htype : s.nativeStyles.type = .upperCamel) :
    s.structName name ext ≠ s.nativeType name ↔
      ext.native ∧ ∃ c ∈ s.extSuffix.toList, isSeparator c = false := by
  rw [structName_eq_append name ext htype]
  split
  case isTrue hnative => simp [hnative, Casing.apply_upperCamel_eq_empty_iff]
  case isFalse hnative => simp [hnative]

section Stems

variable (hfile : s.nativeStyles.file = .snake)
include hfile

theorem recordFileStem_eq_apply :
    s.recordFileStem name ext = Casing.snake.apply ("_".intercalate (s.recordParts name ext)) := by
  rw [recordFileStem, hfile, recordBase_eq]

theorem bridgeFileStem_eq_apply :
    s.bridgeFileStem name ext = Casing.snake.apply ("_".intercalate (s.bridgeParts name ext)) := by
  rw [bridgeFileStem, hfile, bridgeBase_eq]

theorem recordFileStem_ne_iff :
    s.recordFileStem name ext ≠ s.fileStem name ↔
      ext.native ∧ ∃ c ∈ s.extSuffix.toList, isSeparator c = false := by
  have hplain : s.fileStem name = Casing.snake.apply ("_".intercalate [name]) := by
    rw [fileStem, hfile, String.intercalate_singleton]
  rw [recordFileStem_eq_apply name ext hfile, recordParts, hplain, ← List.singleton_append, Ne,
    Casing.apply_snake_append_eq_iff]
  split
  case isTrue hnative => simp [hnative, Casing.snakeWords_eq_nil_iff]
  case isFalse hnative => simp [hnative]

/-- The stem of a bridge is longer than that of its record. -/
theorem exists_bridgeFileStem_eq :
    ∃ tail, s.bridgeFileStem name ext = s.recordFileStem name ext ++ tail ∧
      tail.toList.getLast? = some 'e' := by
  obtain ⟨more, hmore⟩ := exists_bridgeParts_eq s name ext
  have hwords : Casing.snakeWords "bridge" = ["bridge"] := by decide +kernel
  have hbridge : Casing.snake.apply ("_".intercalate ["bridge"]) = "bridge" := by decide +kernel
  have hne : (more ++ ["bridge"]).flatMap Casing.snakeWords ≠ [] := by simp [hwords]
  have hne' : ["bridge"].flatMap Casing.snakeWords ≠ [] := by simp [hwords]
  -- The parts of the record are split off in front, and the last word of the rest at its end.
  obtain ⟨glue, hstem⟩ := Casing.exists_apply_snake_append (s.recordParts name ext) hne
  obtain ⟨glue', hlast⟩ := Casing.exists_apply_snake_append more hne'
  rw [hbridge] at hlast
  refine ⟨glue ++ Casing.snake.apply ("_".intercalate (more ++ ["bridge"])), ?_, ?_⟩
  · rw [bridgeFileStem_eq_apply name ext hfile, recordFileStem_eq_apply name ext hfile, hmore,
      hstem, String.append_assoc]
  · simp [hlast]

theorem suffixesApart (htype : s.nativeStyles.type = .upperCamel) : s.SuffixesApart name ext where
  structName_eq := structName_eq_append name ext htype
  bridgeName_eq := bridgeName_eq_append name ext htype
  recordFileStem_eq :=
    (recordFileStem_eq_apply name ext hfile).trans (Casing.apply_snake_intercalate _)
  bridgeFileStem_eq :=
    (bridgeFileStem_eq_apply name ext hfile).trans (Casing.apply_snake_intercalate _)
  structName_ne_iff := structName_ne_iff name ext htype
  recordFileStem_ne_iff := recordFileStem_ne_iff name ext hfile
  bridgeFileStem_ne := by
    obtain ⟨tail, hstem, hlast⟩ := exists_bridgeFileStem_eq name ext hfile
    intro heq
    obtain rfl : tail = "" := by simpa [hstem] using heq
    simp at hlast

section Directory

variable (dir : Path) (fileExt : String)

theorem join_bridge_ne :
    dir.join ⟨s.recordFileStem name ext ++ "." ++ fileExt⟩ ≠
      dir.join ⟨s.bridgeFileStem name ext ++ "." ++ fileExt⟩ := by
  obtain ⟨tail, hstem, hlast⟩ := exists_bridgeFileStem_eq name ext hfile
  rw [hstem]
  exact Path.join_append_ne dir fileExt _ hlast (by decide)

/-- When a record and its bridge have one place in a directory. -/
theorem components_bridge_eq_iff :
    (dir.join ⟨s.recordFileStem name ext ++ "." ++ fileExt⟩).components =
        (dir.join ⟨s.bridgeFileStem name ext ++ "." ++ fileExt⟩).components ↔
      s.recordFileStem name ext = "" ∧ dir.Swallows fileExt (s.bridgeFileStem name ext) := by
  obtain ⟨tail, hstem, hlast⟩ := exists_bridgeFileStem_eq name ext hfile
  rw [hstem, Path.components_join_eq_iff dir fileExt _ hlast (by decide) (by decide)]
  exact and_congr_right fun hempty => by rw [hempty, String.empty_append]

end Directory

end Stems

end Settings

/-! ## Files of a record -/

/-- No header with a stem of the declaration is the same as a source with such a stem, as far as one
can see of their paths. -/
def Settings.KindsApart {α : Type} (view : Path → α) (s : Settings) (d : Decl) : Prop :=
  ∀ stem ∈ s.headerStems d, ∀ stem' ∈ s.headerStems d,
    view (s.headerPath stem) ≠ view (s.sourcePath stem')

instance {α : Type} [DecidableEq α] (view : Path → α) (s : Settings) (d : Decl) :
    Decidable (s.KindsApart view d) :=
  inferInstanceAs (Decidable (∀ _ ∈ _, ∀ _ ∈ _, _))

/-- Whether a file of the record has nothing to its stem and, in a directory that is the place of
the bridge, no name of its own. -/
def Settings.IsSwallowed (s : Settings) (name : String) (r : Record) : Prop :=
  s.recordFileStem name r.ext = "" ∧
    (s.headerDir.Swallows s.headerExt (s.bridgeFileStem name r.ext) ∨
      r.consts ≠ [] ∧ s.sourceDir.Swallows s.sourceExt (s.bridgeFileStem name r.ext))

instance (s : Settings) (name : String) (r : Record) : Decidable (s.IsSwallowed name r) :=
  inferInstanceAs (Decidable (_ ∧ (_ ∨ _ ∧ _)))

namespace Emitter

variable {e : Emitter} {d : Decl} {r : Record} {fs : List Cpp.SourceFile}

/-- If headers do not get in the way of sources, it remains to compare files of one kind. -/
theorem nodup_declFiles_iff {α : Type} {view : Path → α} (hbody : d.body = .record r)
    (hkinds : e.settings.KindsApart view d) (h : e.declFiles d = .ok fs) :
    (fs.map (view ·.path)).Nodup ↔
      view (e.settings.headerPath (e.settings.recordFileStem d.name r.ext)) ≠
          view (e.settings.headerPath (e.settings.bridgeFileStem d.name r.ext)) ∧
        (r.consts ≠ [] → view (e.settings.sourcePath (e.settings.recordFileStem d.name r.ext)) ≠
          view (e.settings.sourcePath (e.settings.bridgeFileStem d.name r.ext))) := by
  have hpaths : fs.map (view ·.path) =
      (e.settings.placements d).map fun p => view (p.1.join p.2) := by
    simpa [Function.comp_def] using congrArg (List.map view) (map_path_of_declFiles h)
  simp only [Settings.KindsApart, Settings.headerStems, hbody, List.forall_mem_cons,
    List.not_mem_nil, false_implies, implies_true, and_true, Settings.headerPath,
    Settings.sourcePath] at hkinds
  obtain ⟨⟨hrr, hrb⟩, hbr, hbb⟩ := hkinds
  -- Of the pairs of files, those of one kind are left: both headers, and both sources if there are
  -- constants.
  rw [hpaths]
  simp only [Settings.placements, hbody, Settings.headerPath, Settings.sourcePath]
  by_cases hconsts : r.consts = []
  · simp [hconsts, Settings.headerPlacement, Settings.sourcePlacement, hrb, hbb]
  · simp [hconsts, Settings.headerPlacement, Settings.sourcePlacement, hrr, hrb, Ne.symm hbr, hbb]

section Stems

variable (hfile : e.settings.nativeStyles.file = .snake) (hbody : d.body = .record r)
variable (h : e.declFiles d = .ok fs)
include hfile hbody h

theorem nodup_paths_declFiles (hkinds : e.settings.KindsApart id d) :
    (fs.map (·.path)).Nodup :=
  (nodup_declFiles_iff hbody hkinds h).mpr
    ⟨Settings.join_bridge_ne d.name r.ext hfile _ _,
      fun _ => Settings.join_bridge_ne d.name r.ext hfile _ _⟩

theorem apart_declFiles_iff (hkinds : e.settings.KindsApart Path.components d) :
    Generator.Apart fs ↔ ¬ e.settings.IsSwallowed d.name r := by
  have hheaders := Settings.components_bridge_eq_iff d.name r.ext hfile e.settings.headerDir
    e.settings.headerExt
  have hsources := Settings.components_bridge_eq_iff d.name r.ext hfile e.settings.sourceDir
    e.settings.sourceExt
  rw [Generator.Apart, nodup_declFiles_iff hbody hkinds h, Settings.IsSwallowed, and_or_left,
    not_or, and_left_comm, ← hheaders, ← hsources, not_and]
  rfl

end Stems

end Emitter

/-- A separator parts the words of a name for good, so types in camel case and files in snake case
are named part by part: the names of a record and of its bridge start with the plain one, and the
suffix makes a difference iff not all of it is separators. If headers do not get in the way of
sources, the paths of a record's files differ, and their places do unless one file is swallowed. -/
theorem suffixed_names_apart {e : Emitter} (htype : e.settings.nativeStyles.type = .upperCamel)
    (hfile : e.settings.nativeStyles.file = .snake) :
    (∀ (a b : String) (c : Char), isSeparator c →
      splitWords (a ++ String.singleton c ++ b) = splitWords a ++ splitWords b) ∧
    (∀ (name : String) (ext : Extension), e.settings.SuffixesApart name ext) ∧
    ∀ (d : Decl) (r : Record) (fs : List Cpp.SourceFile), d.body = .record r →
      e.declFiles d = .ok fs →
        (e.settings.KindsApart id d → (fs.map (·.path)).Nodup) ∧
        (e.settings.KindsApart Path.components d →
          (Generator.Apart fs ↔ ¬ e.settings.IsSwallowed d.name r)) := by
  refine ⟨fun a b c hc => ?_, fun name ext => Settings.suffixesApart name ext hfile htype,
    fun d r fs hbody hfs => ⟨Emitter.nodup_paths_declFiles hfile hbody hfs,
      Emitter.apart_declFiles_iff hfile hbody hfs⟩⟩
  have hwords : words (a ++ String.singleton c ++ b).toList = words a.toList ++ words b.toList := by
    simpa using words_append_separator hc a.toList b.toList
  rw [splitWords, hwords, List.map_append]
  rfl

namespace Sample

/-- A record with a constant that is finished by hand on the native side. -/
def ioPort : Decl :=
  ⟨"IOPort", [], .record {
    consts := [⟨"count", [], .prim .i32, .int 2⟩]
    ext := { native := true } }⟩

/-- A record whose plain name has no words, finished by hand on the component side. -/
def underscore : Decl := ⟨"_", [], .record { ext := { component := true } }⟩

/-- Settings under which the directory of headers is the place of a bridge. -/
def bridgeAsDir : Settings :=
  { headerDir := ⟨"/x_bridge."⟩, headerExt := "", extSuffix := "/x" }

/-- The emitter of a document with one declaration. -/
def emitterFor (s : Settings) (d : Decl) : Emitter :=
  (Generator.standard s).emitterOf { decls := [d] } ⟨[(d.name, d)]⟩

end Sample

open Sample

theorem ioPort_apart :
    splitWords ("IOPort" ++ String.singleton '-' ++ "HTTPPart") = ["IO", "Port", "HTTP", "Part"] ∧
      ({ extSuffix := "_old part" } : Settings).structName "IOPort" { native := true } =
        "IoPortOldPart" ∧
      ∃ fs, (emitterFor { extSuffix := "_old part" } ioPort).declFiles ioPort = .ok fs ∧
        fs.map (·.path) = [⟨"include/io_port_old_part.hpp"⟩, ⟨"src/io_port_old_part.cpp"⟩,
          ⟨"include/io_port_old_part_bridge.hpp"⟩, ⟨"src/io_port_old_part_bridge.cpp"⟩] ∧
        (fs.map (·.path)).Nodup ∧ Generator.Apart fs := by
  obtain ⟨hwords, hnames, hfiles⟩ :=
    @suffixed_names_apart (emitterFor { extSuffix := "_old part" } ioPort) rfl rfl
  have hpaths : ((emitterFor { extSuffix := "_old part" } ioPort).declFiles ioPort).toOption.map
      (·.map (·.path)) = some [⟨"include/io_port_old_part.hpp"⟩, ⟨"src/io_port_old_part.cpp"⟩,
        ⟨"include/io_port_old_part_bridge.hpp"⟩, ⟨"src/io_port_old_part_bridge.cpp"⟩] := by
    decide +kernel
  obtain ⟨fs, hfs, hpaths⟩ := toOption_map_eq_some.mp hpaths
  obtain ⟨hdistinct, hapart⟩ := hfiles ioPort _ fs rfl hfs
  refine ⟨?_, ?_, fs, hfs, hpaths, hdistinct (by decide +kernel),
    (hapart (by decide +kernel)).mpr (by decide +kernel)⟩
  · rw [hwords "IOPort" "HTTPPart" '-' (by decide)]
    decide +kernel
  · refine (hnames "IOPort" { native := true }).structName_eq.trans ?_
    decide +kernel

/-- The header of the record is the directory of headers itself, where its bridge goes as well. -/
theorem underscore_swallowed :
    bridgeAsDir.KindsApart Path.components underscore ∧
      bridgeAsDir.IsSwallowed "_" { ext := { component := true } } ∧
      ((emitterFor bridgeAsDir underscore).declFiles underscore).toOption.map (·.map (·.path)) =
        some [⟨"/x_bridge./."⟩, ⟨"/x_bridge."⟩, ⟨"/x_bridge.cpp"⟩] ∧
      Path.components ⟨"/x_bridge./."⟩ = Path.components ⟨"/x_bridge."⟩ ∧
      (Generator.standard bridgeAsDir).generate { decls := [underscore] } =
        .error (.duplicateArtifact "_" "_" ⟨"/x_bridge."⟩) :=
  ⟨by decide +kernel, by decide +kernel, by decide +kernel, by decide, by decide +kernel⟩

end IdlBinder

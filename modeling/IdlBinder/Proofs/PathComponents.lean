import IdlBinder.Proofs.Route

set_option autoImplicit false

/-!
# Components of related paths

When files whose names differ lie at one place all the same. The components of a path keep its
characters in order, slashes and dots apart (`flatMap_marks_components`), so a longer name leads to
another place from the same directory. What remains is a name that starts at the root, beside a file
that has no name: `components_join_eq_iff`.
-/

namespace IdlBinder.Path

/-! ## Characters -/

/-- The piece that a component stands for. -/
def Component.piece : Component → List Char
  | root => []
  | here => ['.']
  | up => ['.', '.']
  | name s => s.toList

/-- The characters of a component other than dots. -/
def Component.marks (c : Component) : List Char := c.piece.filter (· != '.')

theorem piece_component (piece : List Char) : (component piece).piece = piece := by
  rw [component]
  split
  case isTrue hdot => exact hdot.symm
  case isFalse =>
    split
    case isTrue hdots => exact hdots.symm
    case isFalse => exact String.toList_ofList

theorem component_injective : Function.Injective component :=
  Function.LeftInverse.injective piece_component

/-- The components of the pieces that count. -/
def counted (ps : List (List Char)) : List Component := (ps.filter (!isSilent ·)).map component

theorem counted_append (ps qs : List (List Char)) :
    counted (ps ++ qs) = counted ps ++ counted qs := by
  rw [counted, List.filter_append, List.map_append]
  rfl

theorem flatMap_marks_counted (ps : List (List Char)) :
    (counted ps).flatMap Component.marks = ps.flatMap (·.filter (· != '.')) := by
  induction ps with
  | nil => rfl
  | cons p ps ih =>
      rw [← List.singleton_append, counted_append, List.flatMap_append, List.flatMap_append, ih]
      congr 1
      by_cases hsilent : isSilent p
      · -- A piece that does not count is empty or a dot.
        have hp : p = [] ∨ p = ['.'] := by simpa [isSilent] using hsilent
        rcases hp with rfl | rfl <;> rfl
      · simp [counted, hsilent, Component.marks, piece_component]

theorem flatMap_filter_pieces (cs : List Char) :
    (pieces cs).flatMap (·.filter (· != '.')) = cs.filter fun c => c != '/' && c != '.' := by
  induction cs with
  | nil => rfl
  | cons c cs ih =>
      by_cases hc : c = '/'
      · simpa [pieces, hc] using ih
      · -- The character is put in front of the first piece.
        obtain ⟨p, ps, hps⟩ := List.exists_cons_of_ne_nil (pieces_ne_nil cs)
        rw [hps, List.flatMap_cons] at ih
        by_cases hdot : c = '.'
        · simp [pieces, hdot, hps, ← ih]
        · simp [pieces, hc, hdot, hps, ← ih]

/-- Components keep the characters of a path in order, slashes and dots apart. -/
theorem flatMap_marks_components (p : Path) :
    p.components.flatMap Component.marks = p.text.toList.filter fun c => c != '/' && c != '.' := by
  obtain ⟨first, rest, hps⟩ := List.exists_cons_of_ne_nil (pieces_ne_nil p.text.toList)
  have hrest := flatMap_marks_counted rest
  rw [counted] at hrest
  rw [← flatMap_filter_pieces, components, hps]
  simp only [List.flatMap_append, List.flatMap_cons, hrest]
  congr 1
  -- The first piece counts unless it is empty, even if it is a dot.
  by_cases hroot : p.isRooted
  · obtain ⟨rest', hrooted⟩ := exists_pieces_of_isRooted hroot
    obtain rfl : first = [] := (List.cons.inj (hps.symm.trans hrooted)).1
    simp [hroot, Component.marks, Component.piece]
  · by_cases hfirst : first = []
    · simp [hroot, hfirst]
    · simp [hroot, hfirst, Component.marks, piece_component]

/-- A path with more characters in it, not all of them slashes and dots, is another one. -/
theorem components_ne_of_insert {before more after : String}
    (h : ∃ c ∈ more.toList, c ≠ '/' ∧ c ≠ '.') :
    components ⟨before ++ after⟩ ≠ components ⟨before ++ more ++ after⟩ := by
  intro heq
  have hmarks := congrArg (List.flatMap Component.marks) heq
  rw [flatMap_marks_components, flatMap_marks_components] at hmarks
  have hlength := congrArg List.length hmarks
  simp only [String.toList_append, List.filter_append, List.length_append] at hlength
  obtain ⟨c, hc, hslash, hdot⟩ := h
  have hmem : c ∈ more.toList.filter fun c => c != '/' && c != '.' := by
    simpa [List.mem_filter, hc] using ⟨hslash, hdot⟩
  have hpos := List.length_pos_of_mem hmem
  omega

/-! ## Slashes -/

/-- The components of what stands in front of a slash. -/
def lead (cs : List Char) : List Component :=
  if cs = [] then [.root] else components ⟨String.ofList cs⟩

theorem components_append_slash (cs ds : List Char) :
    components ⟨String.ofList (cs ++ '/' :: ds)⟩ = lead cs ++ counted (pieces ds) := by
  obtain ⟨first, rest, hps⟩ := List.exists_cons_of_ne_nil (pieces_ne_nil cs)
  cases cs with
  | nil =>
      simp [components, isRooted, pieces, lead, counted]
  | cons c cs =>
      have hroot : isRooted ⟨String.ofList (c :: cs ++ '/' :: ds)⟩ =
          isRooted ⟨String.ofList (c :: cs)⟩ := by
        simp [isRooted]
      rw [lead, if_neg (by simp), components, components, hroot, String.toList_ofList,
        String.toList_ofList, pieces_append_slash, hps]
      simp only [List.cons_append, List.filter_append, List.map_append, counted, List.append_assoc]

/-- A slash at the end of a path does not count. -/
theorem components_eq_lead {p : Path} (hp : p.text ≠ "") {cs : List Char}
    (h : p.text.toList = cs ∨ p.text.toList = cs ++ ['/']) : p.components = lead cs := by
  have htext : p = ⟨String.ofList p.text.toList⟩ := by rw [String.ofList_toList]
  rcases h with h | h
  · have hcs : cs ≠ [] := by simpa [← h] using hp
    rw [lead, if_neg hcs, ← h, ← htext]
  · rw [htext, h, components_append_slash]
    exact List.append_nil _

/-- A joined path has the components of the first one in front. -/
theorem components_join {dir file : Path} (hdir : dir.text ≠ "") (hfile : file.isRooted = false) :
    (dir.join file).components = dir.components ++ counted (pieces file.text.toList) := by
  obtain ⟨cs, hcs, hjoin⟩ := exists_text_join hdir hfile
  rw [components_eq_lead hdir hcs, ← components_append_slash, ← hjoin, String.ofList_toList]

/-! ## Names in one directory -/

/-- Whether a directory is the place of the file with the given stem, which starts at the root,
while the extension leaves nothing of a file that has no stem. -/
def Swallows (dir : Path) (ext stem : String) : Prop :=
  isRooted ⟨stem⟩ ∧ (ext = "" ∨ isRooted ⟨ext⟩) ∧ dir.components = components ⟨stem ++ "."⟩

instance (dir : Path) (ext stem : String) : Decidable (Swallows dir ext stem) :=
  inferInstanceAs (Decidable (_ ∧ _ ∧ _))

theorem pieces_of_notMem {cs : List Char} (h : '/' ∉ cs) : pieces cs = [cs] := by
  induction cs with
  | nil => rfl
  | cons c cs ih =>
      rw [List.mem_cons, not_or] at h
      rw [pieces, if_neg (Ne.symm h.1), ih h.2]

theorem exists_last_slash {cs : List Char} (h : '/' ∈ cs) :
    ∃ a u, cs = a ++ '/' :: u ∧ '/' ∉ u := by
  obtain ⟨u, a, hcs, hu⟩ := List.eq_append_cons_of_mem (List.mem_reverse.mpr h)
  refine ⟨a.reverse, u.reverse, ?_, by simpa using hu⟩
  rw [← List.reverse_reverse cs, hcs]
  simp

/-- In a directory, a file that has an extension and no name is not the one whose name ends with
this extension. -/
theorem append_counted_eq_iff (dir : Path) {a u e : List Char} (hu : '/' ∉ u) (hne : u ≠ [])
    (he : '/' ∉ e) :
    dir.components ++ counted (pieces ('.' :: e)) =
        components ⟨String.ofList (a ++ '/' :: u ++ '.' :: e)⟩ ↔
      e = [] ∧ dir.components = components ⟨String.ofList (a ++ '/' :: u ++ ['.'])⟩ := by
  -- The last component is what stands behind the last slash of the stem, with the extension.
  have hlast : ∀ e : List Char, '/' ∉ e →
      components ⟨String.ofList (a ++ '/' :: u ++ '.' :: e)⟩ =
        lead a ++ [component (u ++ '.' :: e)] := by
    intro e he
    have hslash : '/' ∉ u ++ '.' :: e := by simp [hu, he]
    have hcount : isSilent (u ++ '.' :: e) = false := by
      simp [isSilent, List.append_eq_singleton_iff, hne]
    rw [List.append_assoc, List.cons_append, components_append_slash, pieces_of_notMem hslash,
      counted, List.filter_cons_of_pos (by simp [hcount])]
    rfl
  cases e with
  | nil =>
      have hsilent : counted (pieces ['.']) = [] := rfl
      simp [hsilent]
  | cons c e =>
      have hpieces : counted (pieces ('.' :: c :: e)) = [component ('.' :: c :: e)] := by
        rw [pieces_of_notMem (by simpa using he)]
        rfl
      -- Otherwise the last components would be equal, but one is longer.
      refine iff_of_false (fun heq => ?_) (by simp)
      rw [hlast _ he, hpieces] at heq
      have hsame := component_injective (List.singleton_inj.mp (List.append_inj_right' heq rfl))
      exact hne (by simpa using hsame)

/-- The same with any extension: what stands behind its first slash is common to both files. -/
theorem append_counted_eq_iff_of_ext (dir : Path) {a u : List Char} (hu : '/' ∉ u) (hne : u ≠ [])
    (ext : List Char) :
    dir.components ++ counted (pieces ('.' :: ext)) =
        components ⟨String.ofList (a ++ '/' :: u ++ '.' :: ext)⟩ ↔
      (ext = [] ∨ ext.head? = some '/') ∧
        dir.components = components ⟨String.ofList (a ++ '/' :: u ++ ['.'])⟩ := by
  by_cases hext : '/' ∈ ext
  · obtain ⟨e, rest, rfl, he⟩ := List.eq_append_cons_of_mem hext
    have hlead : lead (a ++ '/' :: u ++ '.' :: e) =
        components ⟨String.ofList (a ++ '/' :: u ++ '.' :: e)⟩ := if_neg (by simp)
    have hstart : e ++ '/' :: rest = [] ∨ (e ++ '/' :: rest).head? = some '/' ↔ e = [] := by
      cases e with
      | nil => simp
      | cons c e =>
          have hc : c ≠ '/' := fun h => he (by simp [h])
          simp [hc]
    rw [hstart, ← append_counted_eq_iff dir hu hne he, ← List.cons_append, pieces_append_slash,
      counted_append, ← List.append_assoc, ← List.append_assoc, components_append_slash, hlead,
      List.append_left_inj]
  · have hstart : ext = [] ∨ ext.head? = some '/' ↔ ext = [] := by
      refine or_iff_left fun hhead => hext ?_
      exact List.mem_of_mem_head? hhead
    rw [hstart, append_counted_eq_iff dir hu hne hext]

/-- Files whose names both start at the root, or both do not, are put behind the same text. -/
theorem exists_join_eq (dir : Path) (rooted : Bool) :
    ∃ before, ∀ text, isRooted ⟨text⟩ = rooted → dir.join ⟨text⟩ = ⟨before ++ text⟩ := by
  cases rooted with
  | true => exact ⟨"", fun text htext => by simp [join, htext]⟩
  | false =>
      by_cases hslash : dir.text.toList.getLast?.all (· == '/')
      · exact ⟨dir.text, fun text htext => by simp [join, htext, hslash]⟩
      · exact ⟨dir.text ++ "/", fun text htext => by simp [join, htext, hslash]⟩

theorem isRooted_append {text : String} (h : text ≠ "") (more : String) :
    isRooted ⟨text ++ more⟩ = isRooted ⟨text⟩ := by
  obtain ⟨c, cs, hcs⟩ := List.exists_cons_of_ne_nil (mt String.toList_eq_nil_iff.mp h)
  simp [isRooted, hcs]

theorem join_append_of_isRooted {text : String} (h : isRooted ⟨text⟩) (dir : Path)
    (more : String) : dir.join ⟨text ++ more⟩ = ⟨text ++ more⟩ := by
  have htext : text ≠ "" := by rintro rfl; simp [isRooted] at h
  exact if_pos ((isRooted_append htext more).trans h)

theorem isRooted_dot_append (ext : String) : isRooted ⟨"." ++ ext⟩ = false :=
  isRooted_append (by decide) ext

theorem root_mem_components {p : Path} (h : p.isRooted) : .root ∈ p.components := by
  obtain ⟨first, rest, hps⟩ := List.exists_cons_of_ne_nil (pieces_ne_nil p.text.toList)
  simp [components, hps, h]

/-- A file without a stem, and the file of a stem that starts at the root. -/
theorem components_join_dot_eq_iff (dir : Path) (ext : String) {stem : String} {c : Char}
    (hroot : isRooted ⟨stem⟩) (hlast : stem.toList.getLast? = some c) (hslash : c ≠ '/') :
    (dir.join ⟨"." ++ ext⟩).components = components ⟨stem ++ "." ++ ext⟩ ↔
      dir.Swallows ext stem := by
  have hstem : stem ≠ "" := by rintro rfl; simp at hlast
  by_cases hdir : dir.text = ""
  · -- Only one of the paths starts at the root.
    have hcomponents : dir.components = [] := by
      obtain ⟨text⟩ := dir
      obtain rfl : text = "" := hdir
      rfl
    refine iff_of_false (fun heq => ?_) (fun hswallows => ?_)
    · refine root_notMem_components (isRooted_dot_append ext) ?_
      rw [← empty_join hdir ⟨"." ++ ext⟩, heq]
      refine root_mem_components ?_
      rwa [String.append_assoc, isRooted_append hstem]
    · have hmem : .root ∈ components ⟨stem ++ "."⟩ :=
        root_mem_components ((isRooted_append hstem ".").trans hroot)
      rw [← hswallows.2.2, hcomponents] at hmem
      exact absurd hmem List.not_mem_nil
  · have hhead : stem.toList.head? = some '/' := by simpa [isRooted] using hroot
    obtain ⟨a, u, hcut, hu⟩ := exists_last_slash (List.mem_of_mem_head? hhead)
    have hne : u ≠ [] := by
      rintro rfl
      simp [hcut] at hlast
      exact hslash hlast.symm
    have htext : ∀ more : String, stem ++ more = String.ofList (a ++ '/' :: u ++ more.toList) := by
      intro more
      rw [← hcut, ← String.toList_append, String.ofList_toList]
    rw [components_join hdir (isRooted_dot_append ext), Swallows, String.append_assoc, htext, htext,
      String.toList_append]
    simpa [hhead, isRooted] using append_counted_eq_iff_of_ext (a := a) dir hu hne ext.toList

section Stems

variable (dir : Path) (ext stem : String) {tail : String} {c : Char}
variable (hlast : tail.toList.getLast? = some c) (hslash : c ≠ '/') (hdot : c ≠ '.')

include hlast

/-- Two stems, of which one starts with the other, are put behind the same text, unless the longer
one alone starts at the root. -/
theorem exists_join_append_eq (h : ¬ (stem = "" ∧ isRooted ⟨tail⟩)) :
    ∃ before, dir.join ⟨stem ++ "." ++ ext⟩ = ⟨before ++ stem ++ ("." ++ ext)⟩ ∧
      dir.join ⟨stem ++ tail ++ "." ++ ext⟩ = ⟨before ++ stem ++ tail ++ ("." ++ ext)⟩ := by
  have htail : tail ≠ "" := by rintro rfl; simp at hlast
  have hrooted : isRooted ⟨stem ++ (tail ++ ("." ++ ext))⟩ = isRooted ⟨stem ++ ("." ++ ext)⟩ := by
    by_cases hstem : stem = ""
    · have hfalse : isRooted ⟨tail⟩ = false := by simpa [hstem] using h
      rw [hstem, String.empty_append, String.empty_append, isRooted_append htail, hfalse,
        isRooted_dot_append]
    · rw [isRooted_append hstem, isRooted_append hstem]
  obtain ⟨before, hbefore⟩ := exists_join_eq dir (isRooted ⟨stem ++ ("." ++ ext)⟩)
  refine ⟨before, ?_, ?_⟩
  · simpa only [String.append_assoc] using hbefore _ rfl
  · simpa only [String.append_assoc] using hbefore _ hrooted

include hslash

/-- The files of two stems, of which one starts with the other, never have one path. -/
theorem join_append_ne :
    dir.join ⟨stem ++ "." ++ ext⟩ ≠ dir.join ⟨stem ++ tail ++ "." ++ ext⟩ := by
  have htail : tail ≠ "" := by rintro rfl; simp at hlast
  intro heq
  by_cases hroot : stem = "" ∧ isRooted ⟨tail⟩
  · obtain ⟨rfl, hroot⟩ := hroot
    rw [String.empty_append, String.empty_append, String.append_assoc,
      join_append_of_isRooted hroot] at heq
    have htext := congrArg (·.text.toList) heq
    by_cases hdir : dir.text = ""
    · simp [empty_join hdir, htail] at htext
    · -- In front of the dot the one path has a slash and the other the end of its stem.
      obtain ⟨cs, -, hcs⟩ := exists_text_join hdir (isRooted_dot_append ext)
      have hfront : cs ++ ['/'] ++ ("." ++ ext).toList = tail.toList ++ ("." ++ ext).toList := by
        simpa [hcs] using htext
      rw [← List.append_cancel_right hfront] at hlast
      exact hslash (by simpa using hlast.symm)
  · obtain ⟨before, hshort, hlong⟩ := exists_join_append_eq dir ext stem hlast hroot
    rw [hshort, hlong] at heq
    have hlength := congrArg (·.text.toList.length) heq
    simp only [String.toList_append, List.length_append] at hlength
    have hempty : tail.toList.length = 0 := by omega
    exact htail (by simpa using hempty)

include hdot

/-- The files of two stems, of which one starts with the other, lie at one place only if there is
nothing to the shorter stem and the directory swallows its file. -/
theorem components_join_eq_iff :
    (dir.join ⟨stem ++ "." ++ ext⟩).components =
        (dir.join ⟨stem ++ tail ++ "." ++ ext⟩).components ↔
      stem = "" ∧ dir.Swallows ext tail := by
  by_cases hroot : stem = "" ∧ isRooted ⟨tail⟩
  · obtain ⟨rfl, hroot⟩ := hroot
    rw [String.empty_append, String.empty_append, String.append_assoc,
      join_append_of_isRooted hroot, ← String.append_assoc,
      components_join_dot_eq_iff dir ext hroot hlast hslash, eq_self, true_and]
  · -- Both names are put behind the same text, and one is longer.
    refine iff_of_false ?_ fun h => hroot ⟨h.1, h.2.1⟩
    obtain ⟨before, hshort, hlong⟩ := exists_join_append_eq dir ext stem hlast hroot
    rw [hshort, hlong]
    exact components_ne_of_insert ⟨c, List.mem_of_getLast? hlast, hslash, hdot⟩

end Stems

end IdlBinder.Path

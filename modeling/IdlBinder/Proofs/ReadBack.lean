import IdlBinder.Proofs.Writing

set_option autoImplicit false

/-!
# Reading back from a disk

On a disk that takes and gives what it is asked to, what is written can be read from then on
(`read_of_writeAll`), so a second run has nothing to write (`writeAll_again`). A disk only grows by
writing (`Grows`): files change at the targets, directories appear where there was nothing. So the
summary of a run tells the artifacts apart by what was there before it (`writeAll_split`), unless a
path leaves a missing directory by going up, which does not lead to the file that is there.
-/

namespace IdlBinder

open Effect (IsChange Changes)
open Traversal

namespace Disk

variable {d d' d'' : Disk} {p : Path} {place place' dir : Location} {bytes : ByteArray}

/-! ## Disks on which everything lies in a directory -/

/-- Everything on a disk lies in a directory that is there. -/
def Grounded (d : Disk) : Prop :=
  ∀ place, place ≠ [] → d.get? place ≠ none → d.get? place.dropLast = some .dir

/-- Nothing lies below what is put into a directory and was no directory itself. -/
theorem Grounded.set {name : String} (h : d.Grounded) (hdir : d.get? dir = some .dir)
    (hplace : d.get? (dir ++ [name]) ≠ some .dir) (node : Node) :
    (d.set (dir ++ [name]) node).Grounded := by
  intro place hne hget
  have hself : dir ≠ dir ++ [name] := by simp
  by_cases hp : place = dir ++ [name]
  · rw [hp, List.dropLast_concat, get?_set_of_ne d hself]
    exact hdir
  · rw [get?_set_of_ne d hp] at hget
    have hparent := h place hne hget
    have habove : place.dropLast ≠ dir ++ [name] := by
      intro habove
      rw [habove] at hparent
      exact hplace hparent
    rw [get?_set_of_ne d habove]
    exact hparent

/-! ## Growing -/

/-- What writing makes of a disk: at some places there are other files, and there are directories
where there was nothing. -/
structure Grows (places : Location → Prop) (d d' : Disk) : Prop where
  current_eq : d'.current = d.current
  get?_eq : ∀ place, ¬ places place →
    d'.get? place = d.get? place ∨ d.get? place = none ∧ d'.get? place = some .dir
  dir : ∀ place, d.get? place = some .dir → d'.get? place = some .dir
  grounded : d.Grounded → d'.Grounded

variable {places places' : Location → Prop}

theorem Grows.refl (d : Disk) : Grows places d d :=
  ⟨rfl, fun _ _ => Or.inl rfl, fun _ h => h, id⟩

theorem Grows.trans {d₁ d₂ d₃ : Disk} (h : Grows places d₁ d₂) (h' : Grows places d₂ d₃) :
    Grows places d₁ d₃ := by
  refine ⟨h'.current_eq.trans h.current_eq, ?_,
    fun place hplace => h'.dir place (h.dir place hplace),
    fun hground => h'.grounded (h.grounded hground)⟩
  intro place hplace
  rcases h.get?_eq place hplace with heq | ⟨hnone, hdir⟩
  · rw [← heq]
    exact h'.get?_eq place hplace
  · exact Or.inr ⟨hnone, h'.dir place hdir⟩

theorem Grows.mono (h : Grows places d d') (hplaces : ∀ place, places place → places' place) :
    Grows places' d d' where
  current_eq := h.current_eq
  get?_eq place hplace := h.get?_eq place fun hp => hplace (hplaces place hp)
  dir := h.dir
  grounded := h.grounded

theorem grows_commit {result : Except Fault Disk} (h : ∀ d', result = .ok d' → Grows places d d') :
    Grows places d (commit result d).2 := by
  cases result with
  | error fault => exact Grows.refl d
  | ok d' => exact h d' rfl

theorem grows_of_makeDir (h : d.makeDir p = .ok d') : Grows places d d' := by
  obtain ⟨dir, name, hdir, hnone, rfl⟩ := makeDir_eq_ok h
  refine ⟨rfl, fun place _ => ?_, fun place hplace => ?_, fun hground => ?_⟩
  · by_cases hp : place = dir ++ [name]
    · subst hp
      exact Or.inr ⟨hnone, get?_set_self d (by simp) _⟩
    · exact Or.inl (get?_set_of_ne d hp _)
  · have hp : place ≠ dir ++ [name] := by
      rintro rfl
      rw [hnone] at hplace
      cases hplace
    rw [get?_set_of_ne d hp]
    exact hplace
  · exact hground.set hdir (by simp [hnone]) _

theorem grows_of_write (h : d.write p bytes = .ok d') : Grows (· = locate d.current p) d d' := by
  obtain ⟨rfl, hget, dir, piece, htarget, -⟩ := write_eq_ok h
  have hlocate := locate_of_target htarget
  refine ⟨rfl, fun place hp => Or.inl (get?_set_of_ne d hp _), fun place hplace => ?_,
    fun hground => ?_⟩
  · have hp : place ≠ locate d.current p := by
      rintro rfl
      exact hget hplace
    rw [get?_set_of_ne d hp]
    exact hplace
  · obtain ⟨-, hdir, -⟩ := exists_of_target htarget
    rw [hlocate] at hget ⊢
    exact hground.set hdir hget _

/-- Artifacts that are put in place make a disk grow, wherever the run stops. -/
theorem grows_writeAll (d : Disk) (root : Path) (artifacts : List Artifact) :
    Grows (· ∈ view.targets d root artifacts) d (d.run (Output.writeAll root artifacts)).2 := by
  have hchange : IsChange fun d₁ d₂ => d₁.current = d.current →
      Grows (· ∈ view.targets d root artifacts) d₁ d₂ :=
    isChange (fun d _ => Grows.refl d)
      fun _ _ _ h h' hd => (h hd).trans (h' ((h hd).current_eq.trans hd))
  refine Changes.writeAll hchange (fun p d₁ _ => ?_) (fun a ha bytes d₁ hd₁ => ?_) d rfl
  · exact grows_commit fun d₂ hmake => grows_of_makeDir hmake
  · refine grows_commit fun d₂ hwrite => (grows_of_write hwrite).mono ?_
    rintro place rfl
    rw [hd₁]
    exact List.mem_map.mpr ⟨a, ha, rfl⟩

/-! ## Reading back -/

/-- A step leads out of a directory: nowhere, up, or to a name in it. -/
theorem step_eq_ok {piece : List Char} (h : d.step place piece = .ok place') :
    d.get? place = some .dir ∧
      (place' = place ∨ piece = ['.', '.'] ∨ ∃ name, place' = place ++ [name]) := by
  rw [step] at h
  split at h
  · cases h
  · cases h
  case h_3 hget =>
    refine ⟨hget, ?_⟩
    split at h
    · exact Or.inl (Except.ok.inj h).symm
    · split at h
      case isTrue hup => exact Or.inr (Or.inl hup)
      case isFalse => exact Or.inr (Or.inr ⟨_, below_eq_ok h⟩)

/-- Where a step leads depends on the directory being there and on nothing else. -/
theorem step_of_dir {piece : List Char} (hdir : d'.get? place = some .dir)
    (h : d.step place piece = .ok place') : d'.step place piece = .ok place' := by
  rw [step, (step_eq_ok h).1] at h
  rw [step, hdir]
  exact h

theorem foldlM_step_of_dirs {ps : List (List Char)}
    (hdirs : ∀ place, d.get? place = some .dir → d'.get? place = some .dir)
    (h : ps.foldlM d.step place = .ok place') : ps.foldlM d'.step place = .ok place' := by
  induction ps generalizing place with
  | nil => exact h
  | cons piece ps ih =>
      rw [List.foldlM_cons, bind_eq_ok] at h ⊢
      obtain ⟨next, hstep, hrest⟩ := h
      exact ⟨next, step_of_dir (hdirs place (step_eq_ok hstep).1) hstep, ih hrest⟩

theorem start_eq (h : d'.current = d.current) (p : Path) : d'.start p = d.start p := by
  rw [start, start, h]

/-- A path that can be followed can still be followed when the disk has grown. -/
theorem Grows.resolve (h : Grows places d d') (hp : d.resolve p = .ok place) :
    d'.resolve p = .ok place := by
  rw [resolve_eq_ok_iff] at hp ⊢
  rw [start_eq h.current_eq]
  exact ⟨hp.1, foldlM_step_of_dirs h.dir hp.2⟩

/-- A path that can be written to can be followed on any disk where it leads to the same
directory. -/
theorem resolve_of_target {piece : List Char} (htarget : d.target p = .ok (.name dir piece false))
    (hbelow : below dir piece = .ok place) (hcurrent : d'.current = d.current)
    (hdir : d'.get? dir = some .dir)
    (hbefore : ∀ before, Path.pieces p.text.toList = before ++ [piece] →
      before.foldlM d.step (d.start p) = .ok dir → before.foldlM d'.step (d.start p) = .ok dir) :
    d'.resolve p = .ok place := by
  obtain ⟨hvet, -, hne, hdot, hup, before, after, hpieces, -, hslash, hwalk⟩ :=
    exists_of_target htarget
  rw [hslash rfl] at hpieces
  have hsilent : Path.isSilent piece = false := by simp [Path.isSilent, hne, hdot]
  -- The directory is there, and a name in it leads to the place.
  have hlast : d'.step dir piece = .ok place := by
    rw [step, hdir]
    simp only [hsilent, hup]
    exact hbelow
  rw [resolve_eq_ok_iff, start_eq hcurrent, hpieces, List.foldlM_append, bind_eq_ok]
  refine ⟨hvet, dir, hbefore before hpieces hwalk, ?_⟩
  rw [List.foldlM_cons, bind_eq_ok]
  exact ⟨place, hlast, rfl⟩

/-- What is written can be read. -/
theorem read_of_write (h : d.write p bytes = .ok d') : d'.read p = .ok bytes := by
  have hgrows := grows_of_write h
  obtain ⟨hset, -, dir, piece, htarget, hbelow⟩ := write_eq_ok h
  obtain ⟨-, hdir, -⟩ := exists_of_target htarget
  have hresolve : d'.resolve p = .ok (locate d.current p) :=
    resolve_of_target htarget hbelow hgrows.current_eq (hgrows.dir dir hdir)
      fun before _ hwalk => foldlM_step_of_dirs hgrows.dir hwalk
  have hplace : locate d.current p ≠ [] := by simp [locate_of_target htarget]
  rw [read_eq_ok_iff, hgrows.current_eq, file?_eq_some]
  refine ⟨hresolve, ?_⟩
  rw [hset]
  exact get?_set_self d hplace _

/-! ## Paths that go up -/

/-- Wherever a path goes up, it leaves a directory that is there. -/
def LeavesDirs (d : Disk) (p : Path) : Prop :=
  ∀ before after, Path.pieces p.text.toList = before ++ ['.', '.'] :: after →
    d.get? (before.foldl Route.stepPiece ⟨.root, d.start p⟩).names = some .dir

/-- A path that does not go up leaves no directory. -/
theorem leavesDirs_of_not_goesUp (h : p.goesUp = false) : d.LeavesDirs p := by
  intro before after hpieces
  have hup : ∀ c ∈ p.components, c ≠ .up := by
    intro c hc hup
    rw [Path.goesUp, List.contains_eq_mem, decide_eq_false_iff_not] at h
    exact h (hup ▸ hc)
  cases before with
  | nil =>
      have hroot : p.isRooted = false := by
        refine Bool.eq_false_iff.mpr fun hroot => ?_
        obtain ⟨rest, hrest⟩ := Path.exists_pieces_of_isRooted hroot
        rw [hpieces] at hrest
        cases hrest
      refine absurd rfl (hup .up ?_)
      simp [Path.components, hpieces, hroot, Path.component]
  | cons first before =>
      refine absurd rfl (hup .up ?_)
      simp [Path.components, hpieces, Path.component, Path.isSilent]

/-- A way that leads to a directory on a later disk and leaves no missing directory is open already:
what it passes through without leaving it is above the directory. -/
theorem foldlM_step_of_grounded {ps : List (List Char)} (hground : d.Grounded)
    (hdir : d.get? dir = some .dir)
    (hup : ∀ before after, ps = before ++ ['.', '.'] :: after →
      d.get? (before.foldl Route.stepPiece ⟨.root, place⟩).names = some .dir)
    (h : ps.foldlM d'.step place = .ok dir) :
    ps.foldlM d.step place = .ok dir ∧ d.get? place = some .dir := by
  induction ps generalizing place with
  | nil =>
      cases h
      exact ⟨rfl, hdir⟩
  | cons piece ps ih =>
      rw [List.foldlM_cons, bind_eq_ok] at h
      obtain ⟨next, hstep, hrest⟩ := h
      have hup' : ∀ before after, ps = before ++ ['.', '.'] :: after →
          d.get? (before.foldl Route.stepPiece ⟨.root, next⟩).names = some .dir := by
        intro before after hps
        have hleaves := hup (piece :: before) after (by rw [hps]; rfl)
        rwa [List.foldl_cons, stepPiece_of_step hstep] at hleaves
      obtain ⟨hrest, hnext⟩ := ih hup' hrest
      have hplace : d.get? place = some .dir := by
        obtain ⟨-, rfl | rfl | ⟨name, rfl⟩⟩ := step_eq_ok hstep
        · exact hnext
        · exact hup [] ps rfl
        · have hparent := hground (place ++ [name]) (by simp) (by simp [hnext])
          rwa [List.dropLast_concat] at hparent
      refine ⟨?_, hplace⟩
      rw [List.foldlM_cons, bind_eq_ok]
      exact ⟨next, step_of_dir hplace hstep, hrest⟩

/-- A file is found by a path that can be written to, sooner or later, unless the path leaves a
directory that is still missing. -/
theorem read_of_grounded {bytes' : ByteArray} (hground : d.Grounded) (hleaves : d.LeavesDirs p)
    (hfile : d.file? (locate d.current p) = some bytes) (hcurrent : d'.current = d.current)
    (hwrite : d'.write p bytes' = .ok d'') : d.read p = .ok bytes := by
  obtain ⟨-, -, dir, piece, htarget, hbelow⟩ := write_eq_ok hwrite
  have hlocate := locate_of_target htarget
  rw [hcurrent] at hbelow hlocate
  have hdir : d.get? dir = some .dir := by
    have hparent := hground (locate d.current p) (by simp [hlocate]) (by
      rw [file?_eq_some.mp hfile]
      simp)
    rwa [hlocate, List.dropLast_concat] at hparent
  have hresolve : d.resolve p = .ok (locate d.current p) := by
    refine resolve_of_target htarget hbelow hcurrent.symm hdir fun before hpieces hwalk => ?_
    refine (foldlM_step_of_grounded hground hdir (fun front back hfront => ?_) hwalk).1
    rw [start_eq hcurrent]
    exact hleaves front (back ++ [piece]) (by rw [hpieces, hfront]; simp)
  exact read_eq_ok_iff.mpr ⟨hresolve, hfile⟩

theorem Grows.leavesDirs {places : Location → Prop} (h : Grows places d d')
    (hp : d.LeavesDirs p) : d'.LeavesDirs p := by
  intro before after hpieces
  rw [start_eq h.current_eq]
  exact h.dir _ (hp before after hpieces)

/-! ## Artifacts -/

variable {root : Path} {a : Artifact} {artifacts : List Artifact} {summary : WriteSummary}

theorem write_of_run (h : StateT.run (Storage.write p bytes : StateM Disk _) d = (.ok (), d')) :
    d.write p bytes = .ok d' := by
  have hcommit : commit (d.write p bytes) d = (.ok (), d') := h
  cases hwrite : d.write p bytes with
  | error fault =>
      rw [hwrite] at hcommit
      cases hcommit
  | ok d₁ =>
      rw [hwrite] at hcommit
      cases hcommit
      rfl

theorem hasArtifact_iff : view.HasArtifact d root a ↔
    d.file? (locate d.current (root.join a.path)) = some a.contents.toUTF8 := by
  rw [FileView.HasArtifact, view_file?, view_locate]

/-- What is put in place can be read right after it. -/
theorem read_of_writeArtifact {written : Bool}
    (h : d.run (Output.writeArtifact root a) = (.ok written, d')) :
    d'.read (root.join a.path) = .ok a.contents.toUTF8 := by
  obtain ⟨-, hread, rfl⟩ | ⟨-, -, d₁, -, hwrite⟩ := Output.writeArtifact_cases lawful h
  · exact hread
  · exact read_of_write (write_of_run hwrite)

theorem grows_of_puts {l : List ((Disk × Artifact) × Bool)} (h : Output.Puts root d l d') :
    Grows (· ∈ view.targets d root (l.map (·.1.2))) d d' := by
  have hrun : d.run (Output.writeAll root (l.map (·.1.2))) = (.ok ⟨_, _⟩, d') :=
    Output.writeAll_eq_ok_iff.mpr ⟨l, rfl, h, rfl, rfl⟩
  have hgrows := grows_writeAll d root (l.map (·.1.2))
  rwa [hrun] at hgrows

/-- The paths of all artifacts can be followed when they have been put in place. -/
theorem resolve_of_puts {l : List ((Disk × Artifact) × Bool)} (h : Output.Puts root d l d') :
    ∀ x ∈ l, d'.resolve (root.join x.1.2.path) =
      .ok (locate d'.current (root.join x.1.2.path)) := by
  induction h with
  | nil d => simp
  | cons hrun hrest ih =>
      have hgrows := grows_of_puts hrest
      refine List.forall_mem_cons.mpr ⟨?_, ih⟩
      -- The path could be followed right after the artifact, and the disk has only grown since.
      rw [hgrows.current_eq]
      exact hgrows.resolve (read_eq_ok_iff.mp (read_of_writeArtifact hrun)).1

/-- So all of them can be read. -/
theorem read_of_writeAll (hapart : (view.targets d root artifacts).Nodup)
    (h : d.run (Output.writeAll root artifacts) = (.ok summary, d')) :
    ∀ a ∈ artifacts, d'.read (root.join a.path) = .ok a.contents.toUTF8 := by
  have hhas := Output.hasArtifact_of_nodup lawful hapart h
  obtain ⟨l, rfl, hputs, -⟩ := Output.writeAll_eq_ok_iff.mp h
  rw [List.forall_mem_map] at hhas ⊢
  exact fun x hx => read_eq_ok_iff.mpr ⟨resolve_of_puts hputs x hx, hasArtifact_iff.mp (hhas x hx)⟩

/-- Artifacts that can be read are left alone one after the other, on the same disk. -/
theorem puts_of_read
    (h : ∀ a ∈ artifacts, d.read (root.join a.path) = .ok a.contents.toUTF8) :
    Output.Puts root d (artifacts.map fun a => ((d, a), false)) d := by
  induction artifacts with
  | nil => exact .nil d
  | cons a artifacts ih =>
      obtain ⟨ha, hartifacts⟩ := List.forall_mem_cons.mp h
      exact .cons (Output.writeArtifact_of_reading ha) (ih hartifacts)

theorem locate_empty (current : Location) : locate current ⟨""⟩ = current :=
  List.append_nil current

/-- The current directory can be told by where paths lead. -/
theorem current_eq_of_locate_eq (h : view.locate d' = view.locate d) : d'.current = d.current := by
  rw [← locate_empty d'.current, ← locate_empty d.current]
  exact congrFun h ⟨""⟩

/-- An artifact whose place holds it before the run can be read when its turn comes. -/
theorem canRead_of_puts {l : List ((Disk × Artifact) × Bool)} (h : Output.Puts root d l d')
    (hapart : (view.targets d root (l.map (·.1.2))).Nodup) (hground : d.Grounded)
    (hleaves : ∀ x ∈ l, d.LeavesDirs (root.join x.1.2.path)) :
    ∀ x ∈ l, view.HasArtifact d root x.1.2 →
      Output.canRead x.1.1 (root.join x.1.2.path) = true := by
  induction h with
  | nil d => simp
  | @cons d d₁ d₂ a written l hrun hrest ih =>
      obtain ⟨hnew, hapart⟩ := List.nodup_cons.mp hapart
      obtain ⟨hleave, hleaves⟩ := List.forall_mem_cons.mp hleaves
      have hgrows := grows_of_puts (.cons hrun (.nil d₁))
      rw [List.forall_mem_cons]
      constructor
      · intro hhas
        rw [hasArtifact_iff] at hhas
        rw [Output.canRead_iff]
        obtain ⟨-, hread, -⟩ | ⟨-, -, d₃, hsame, hwrite⟩ := Output.writeArtifact_cases lawful hrun
        · exact ⟨_, hread⟩
        · have hcurrent := current_eq_of_locate_eq hsame.locate_eq
          exact ⟨_, read_of_grounded hground hleave hhas hcurrent (write_of_run hwrite)⟩
      · intro x hx hhas
        have hsame := lawful.writeArtifact root a d
        rw [hrun] at hsame
        refine ih ?_ (hgrows.grounded hground) (fun y hy => hgrows.leavesDirs (hleaves y hy)) x hx
          ((hsame.hasArtifact_iff ?_).mpr hhas)
        · rwa [FileView.targets, hsame.locate_eq]
        · -- The place of a later artifact is not that of the first one.
          exact fun heq => hnew (List.mem_map.mpr ⟨x.1.2, List.mem_map_of_mem hx, heq⟩)

/-- The summary of a run tells the artifacts apart by what their places held before. -/
theorem writeAll_split (hapart : (view.targets d root artifacts).Nodup) (hground : d.Grounded)
    (hleaves : ∀ a ∈ artifacts, d.LeavesDirs (root.join a.path))
    (h : d.run (Output.writeAll root artifacts) = (.ok summary, d')) :
    summary.written =
        (artifacts.filter fun a => ¬ view.HasArtifact d root a).map (·.path) ∧
      summary.unchanged =
        (artifacts.filter fun a => view.HasArtifact d root a).map (·.path) := by
  refine (Output.completed_of_writeAll lawful hapart h).split_of_canRead ?_
  obtain ⟨l, rfl, hputs, -⟩ := Output.writeAll_eq_ok_iff.mp h
  rw [← hputs.map_fst, List.forall_mem_map]
  exact canRead_of_puts hputs hapart hground
    fun x hx => hleaves x.1.2 (List.mem_map_of_mem hx)

/-- Paths that do not go up leave no directory. -/
theorem writeAll_split_of_not_goesUp (hapart : (view.targets d root artifacts).Nodup)
    (hground : d.Grounded) (hup : ∀ a ∈ artifacts, (root.join a.path).goesUp = false)
    (h : d.run (Output.writeAll root artifacts) = (.ok summary, d')) :
    summary.written =
        (artifacts.filter fun a => ¬ view.HasArtifact d root a).map (·.path) ∧
      summary.unchanged =
        (artifacts.filter fun a => view.HasArtifact d root a).map (·.path) :=
  writeAll_split hapart hground (fun a ha => leavesDirs_of_not_goesUp (hup a ha)) h

/-- A second run finds everything in place and leaves the disk alone. -/
theorem writeAll_again (hapart : (view.targets d root artifacts).Nodup)
    (h : d.run (Output.writeAll root artifacts) = (.ok summary, d')) :
    d'.run (Output.writeAll root artifacts) = (.ok ⟨[], artifacts.map (·.path)⟩, d') := by
  have hputs := puts_of_read (read_of_writeAll hapart h)
  have hagain := hputs.writeAll_of_unwritten (by simp)
  rwa [List.map_map, Function.comp_def, List.map_id'] at hagain

end Disk

end IdlBinder

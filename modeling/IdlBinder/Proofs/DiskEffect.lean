import IdlBinder.Proofs.Confinement
import IdlBinder.Proofs.Effect

set_option autoImplicit false

/-!
# What a command does to a disk

Nothing on a disk leads elsewhere, so a path leads where its route says (`locate_of_target`), and a
write changes that one place, so the operations on a disk are lawful (`lawful`). If every file name
stays below the output directory, then a run, wherever it stops, touches no file outside of it but
the list of files that was asked for (`generate_sameOutside`).
-/

namespace IdlBinder

open Effect (IsChange Changes)
open Traversal

namespace Disk

/-- The bytes of the file at a place, if a file is there. -/
def file? (d : Disk) (place : Location) : Option ByteArray :=
  match d.get? place with
  | some (.file bytes) => some bytes
  | _ => none

/-- Where a path leads from a current directory, if the directories on its way are there. -/
def locate (current : Location) (p : Path) : Location :=
  (Route.follow ⟨.root, current⟩ p.route).names

/-! ## Following a path -/

variable {d d' : Disk} {p : Path} {place place' : Location} {bytes : ByteArray}

theorem below_eq_ok {piece : List Char} (h : below place piece = .ok place') :
    place' = place ++ [String.ofList piece] := by
  simp only [below] at h
  split at h
  · cases h
  · exact (Except.ok.inj h).symm

/-- A step on a disk is a step of a route from the root. -/
theorem stepPiece_of_step {piece : List Char} (h : d.step place piece = .ok place') :
    Route.stepPiece ⟨.root, place⟩ piece = ⟨.root, place'⟩ := by
  rw [step] at h
  split at h
  · cases h
  · cases h
  · split at h
    case isTrue hsilent =>
      cases h
      rw [Route.stepPiece, if_pos hsilent]
    case isFalse hsilent =>
      rw [Route.stepPiece, if_neg hsilent]
      split at h
      case isTrue hup =>
        cases h
        subst hup
        cases place <;> rfl
      case isFalse hup =>
        rw [below_eq_ok h]
        have hdot : piece ≠ ['.'] := by
          rintro rfl
          exact hsilent rfl
        rw [Path.component, if_neg hdot, if_neg hup]
        rfl

theorem foldl_stepPiece_of_foldlM {ps : List (List Char)}
    (h : ps.foldlM d.step place = .ok place') :
    ps.foldl Route.stepPiece ⟨.root, place⟩ = ⟨.root, place'⟩ := by
  induction ps generalizing place with
  | nil =>
      cases h
      rfl
  | cons piece ps ih =>
      rw [List.foldlM_cons, bind_eq_ok] at h
      obtain ⟨next, hstep, hrest⟩ := h
      rw [List.foldl_cons, stepPiece_of_step hstep, ih hrest]

/-- From where a path starts on a disk, its pieces lead along its route. -/
theorem foldl_stepPiece_start (d : Disk) (p : Path) :
    (Path.pieces p.text.toList).foldl Route.stepPiece ⟨.root, d.start p⟩ =
      Route.follow ⟨.root, d.current⟩ p.route := by
  by_cases hroot : p.isRooted
  · rw [Route.follow, Path.start_route_of_isRooted hroot, start, if_pos hroot, Path.route_eq,
      if_pos hroot]
  · rw [start, if_neg hroot, Path.foldl_stepPiece_pieces (by simpa using hroot)]

theorem foldl_stepPiece_of_empty {ps : List (List Char)} (h : ∀ piece ∈ ps, piece = [])
    (r : Route) : ps.foldl Route.stepPiece r = r := by
  induction ps with
  | nil => rfl
  | cons piece ps ih =>
      obtain rfl := h piece (by simp)
      rw [List.foldl_cons, Route.stepPiece_nil, ih fun q hq => h q (by simp [hq])]

/-- The last piece that is not empty, with what is around it. -/
theorem exists_of_dropWhile {ps before : List (List Char)} {last : List Char}
    (h : ps.reverse.dropWhile (· == []) = last :: before) :
    last ≠ [] ∧ ∃ after, (∀ q ∈ after, q = []) ∧ ps = before.reverse ++ last :: after := by
  have hsplit := List.takeWhile_append_dropWhile (p := fun q => q == []) (l := ps.reverse)
  rw [h] at hsplit
  refine ⟨?_, (ps.reverse.takeWhile (· == [])).reverse, ?_, ?_⟩
  · rintro rfl
    have hhead := List.head?_dropWhile_not (· == []) ps.reverse
    rw [h] at hhead
    exact absurd hhead (by simp)
  · intro q hq
    have hall := List.all_eq_true.mp (List.all_takeWhile (l := ps.reverse) (p := (· == [])))
    exact eq_of_beq (hall q (List.mem_reverse.mp hq))
  · have hreverse := congrArg List.reverse hsplit
    rw [List.reverse_reverse, List.reverse_append, List.reverse_cons, List.append_assoc] at hreverse
    exact hreverse.symm

/-- A path that ends with a name: what is before the name leads to a directory that is there, and
nothing but slashes follows. -/
theorem exists_of_target {dir : Location} {piece : List Char} {slash : Bool}
    (h : d.target p = .ok (.name dir piece slash)) :
    vet p = .ok () ∧ d.get? dir = some .dir ∧ piece ≠ [] ∧ piece ≠ ['.'] ∧ piece ≠ ['.', '.'] ∧
      ∃ before after, Path.pieces p.text.toList = before ++ piece :: after ∧
        (∀ q ∈ after, q = []) ∧ (slash = false → after = []) ∧
        before.foldlM d.step (d.start p) = .ok dir := by
  obtain ⟨⟨⟩, hvet, h⟩ := bind_eq_ok.mp h
  simp only at h
  split at h
  · cases h
  case h_2 last before hlast =>
    obtain ⟨dir', hdir, h⟩ := bind_eq_ok.mp h
    split at h
    · cases h
    · cases h
    case h_3 hget =>
      split at h
      · cases h
      case isFalse hdots =>
        cases h
        rw [Bool.or_eq_true, decide_eq_true_eq, decide_eq_true_eq, not_or] at hdots
        obtain ⟨hne, after, hafter, hpieces⟩ := exists_of_dropWhile hlast
        refine ⟨hvet, hget, hne, hdots.1, hdots.2, before.reverse, after, hpieces, hafter, ?_, hdir⟩
        intro hslash
        rcases List.eq_nil_or_concat after with rfl | ⟨init, q, rfl⟩
        · rfl
        · obtain rfl := hafter q (by simp)
          simp [hpieces] at hslash

/-- A path that ends with a name leads to this name in its directory. -/
theorem locate_of_target {dir : Location} {piece : List Char} {slash : Bool}
    (h : d.target p = .ok (.name dir piece slash)) :
    locate d.current p = dir ++ [String.ofList piece] := by
  obtain ⟨-, -, hne, hdot, hup, before, after, hpieces, hafter, -, hdir⟩ := exists_of_target h
  -- The pieces before the last one lead to the directory, and those after it do not move.
  rw [locate, ← foldl_stepPiece_start, hpieces, List.foldl_append, List.foldl_cons,
    foldl_stepPiece_of_foldlM hdir, foldl_stepPiece_of_empty hafter,
    ← Route.step_component _ hne, Path.component, if_neg hdot, if_neg hup]
  rfl

/-- Writing changes what is where the path leads, which is a name in a directory. -/
theorem write_eq_ok (h : d.write p bytes = .ok d') :
    d' = d.set (locate d.current p) (.file bytes) ∧ d.get? (locate d.current p) ≠ some .dir ∧
      ∃ dir piece, d.target p = .ok (.name dir piece false) ∧
        below dir piece = .ok (locate d.current p) := by
  obtain ⟨target, htarget, h⟩ := bind_eq_ok.mp h
  split at h
  · cases h
  · cases h
  case h_3 dir piece =>
    obtain ⟨place, hplace, h⟩ := bind_eq_ok.mp h
    have hlocate : locate d.current p = place := by
      rw [locate_of_target htarget, ← below_eq_ok hplace]
    rw [hlocate]
    split at h
    · cases h
    case h_2 hget => exact ⟨(Except.ok.inj h).symm, hget, dir, piece, htarget, hplace⟩

/-- A directory is made only where there is nothing, and in a directory. -/
theorem makeDir_eq_ok (h : d.makeDir p = .ok d') :
    ∃ dir name, d.get? dir = some .dir ∧ d.get? (dir ++ [name]) = none ∧
      d' = d.set (dir ++ [name]) .dir := by
  obtain ⟨target, htarget, h⟩ := bind_eq_ok.mp h
  split at h
  · cases h
  case h_2 dir piece slash =>
    obtain ⟨place, hplace, h⟩ := bind_eq_ok.mp h
    obtain rfl := below_eq_ok hplace
    split at h
    · cases h
    case h_2 hnone =>
      obtain ⟨-, hdir, -⟩ := exists_of_target htarget
      exact ⟨dir, String.ofList piece, hdir, hnone, (Except.ok.inj h).symm⟩

/-! ## Reading -/

theorem resolve_eq_ok_iff :
    d.resolve p = .ok place ↔
      vet p = .ok () ∧ (Path.pieces p.text.toList).foldlM d.step (d.start p) = .ok place := by
  rw [resolve, bind_eq_ok]
  constructor
  · rintro ⟨⟨⟩, h⟩
    exact h
  · exact fun h => ⟨(), h⟩

/-- A path that can be followed leads where its route says. -/
theorem resolve_eq_ok (h : d.resolve p = .ok place) : place = locate d.current p := by
  obtain ⟨-, h⟩ := resolve_eq_ok_iff.mp h
  rw [locate, ← foldl_stepPiece_start, foldl_stepPiece_of_foldlM h]

theorem file?_eq_some : d.file? place = some bytes ↔ d.get? place = some (.file bytes) := by
  rw [file?]
  split
  case h_1 bytes' hget => simp [hget]
  case h_2 hget =>
    constructor
    · intro h
      cases h
    · intro h
      exact absurd h (hget bytes)

/-- What can be read is the file at the place that the path leads to. -/
theorem read_eq_ok_iff :
    d.read p = .ok bytes ↔
      d.resolve p = .ok (locate d.current p) ∧ d.file? (locate d.current p) = some bytes := by
  rw [read, bind_eq_ok, file?_eq_some]
  simp only [node, bind_eq_ok]
  constructor
  · rintro ⟨n, ⟨place, hplace, hnode⟩, hread⟩
    obtain rfl := resolve_eq_ok hplace
    refine ⟨hplace, ?_⟩
    cases hget : d.get? (locate d.current p) with
    | none => simp [hget] at hnode
    | some n' =>
        rw [hget] at hnode
        cases hnode
        cases n with
        | dir => cases hread
        | file bytes' =>
            cases hread
            rfl
  · rintro ⟨hplace, hget⟩
    exact ⟨.file bytes, ⟨_, hplace, by rw [hget]⟩, rfl⟩

/-! ## What stays the same -/

/-- Two disks with the same current directory and the same files outside some places. -/
structure SameOutside (places : Location → Prop) (d d' : Disk) : Prop where
  current_eq : d'.current = d.current
  file?_eq : ∀ place, ¬ places place → d'.file? place = d.file? place

variable {places : Location → Prop}

theorem SameOutside.refl (d : Disk) : SameOutside places d d := ⟨rfl, fun _ _ => rfl⟩

theorem SameOutside.trans {d₁ d₂ d₃ : Disk} (h : SameOutside places d₁ d₂)
    (h' : SameOutside places d₂ d₃) : SameOutside places d₁ d₃ where
  current_eq := h'.current_eq.trans h.current_eq
  file?_eq place hplace := (h'.file?_eq place hplace).trans (h.file?_eq place hplace)

theorem sameOutside_set_file (h : places place) (bytes : ByteArray) :
    SameOutside places d (d.set place (.file bytes)) where
  current_eq := rfl
  file?_eq other hother := by
    have hne : other ≠ place := by
      rintro rfl
      exact hother h
    rw [file?, get?_set_of_ne d hne, file?]

theorem sameOutside_set_dir (h : d.get? place = none) :
    SameOutside places d (d.set place .dir) where
  current_eq := rfl
  file?_eq other _ := by
    have hplace : place ≠ [] := by
      rintro rfl
      cases h
    by_cases hother : other = place
    · subst hother
      simp only [file?, get?_set_self d hplace, h]
    · rw [file?, get?_set_of_ne d hother, file?]

theorem sameOutside_commit {result : Except Fault Disk}
    (h : ∀ d', result = .ok d' → SameOutside places d d') :
    SameOutside places d (commit result d).2 := by
  cases result with
  | error fault => exact SameOutside.refl d
  | ok d' => exact h d' rfl

/-! ## Running a computation -/

variable {α β ε : Type} {x : ExceptT ε (StateM Disk) α} {f : α → ExceptT ε (StateM Disk) β}

/-- The outcome of a computation on a disk, and the disk that it leaves. -/
def run (d : Disk) (x : ExceptT ε (StateM Disk) α) : Except ε α × Disk := StateT.run x.run d

theorem run_bind_of_error {e : ε} (h : d.run x = (.error e, d')) :
    d.run (x >>= f) = (.error e, d') :=
  Effect.run_bind_of_error h

theorem run_bind_of_ok {a : α} (h : d.run x = (.ok a, d')) : d.run (x >>= f) = d'.run (f a) :=
  Effect.run_bind_of_ok h

theorem exists_of_run_bind {b : β} (h : d.run (x >>= f) = (.ok b, d')) :
    ∃ a d₁, d.run x = (.ok a, d₁) ∧ d₁.run (f a) = (.ok b, d') :=
  Effect.exists_of_run_bind h

/-- A failure ends a computation, and what was done before it stays. -/
theorem SameOutside.bind (hx : SameOutside places d (d.run x).2)
    (hf : ∀ a d₁, d.run x = (.ok a, d₁) → SameOutside places d₁ (d₁.run (f a)).2) :
    SameOutside places d (d.run (x >>= f)).2 := by
  rcases hrun : d.run x with ⟨_ | a, d₁⟩ <;> rw [hrun] at hx
  · rw [run_bind_of_error hrun]
    exact hx
  · rw [run_bind_of_ok hrun]
    exact hx.trans (hf a d₁ hrun)

/-! ## What a computation changes -/

/-- Looking at a disk does not change it. -/
theorem isChange {R : Disk → Disk → Prop} (refl : ∀ d, R d d)
    (trans : ∀ d₁ d₂ d₃, R d₁ d₂ → R d₂ d₃ → R d₁ d₃) : IsChange R where
  refl := refl
  trans := trans _ _ _
  size _ d := refl d
  read _ d := refl d
  isDir _ d := refl d

/-- A computation that changes files at some places only, whatever disk with this current directory
it runs on. -/
def Keeps (current : Location) (places : Location → Prop) {α : Type} (x : StateM Disk α) : Prop :=
  ∀ d : Disk, d.current = current → SameOutside places d (x.run d).2

end Disk

namespace Disk.Keeps

variable {current : Location} {places : Location → Prop} {p : Path}

/-- What a computation keeps is a kind of change. -/
theorem isChange :
    IsChange fun d d' => d.current = current → SameOutside places d d' :=
  Disk.isChange (fun d _ => SameOutside.refl d)
    fun _ _ _ h h' hd => (h hd).trans (h' ((h hd).current_eq.trans hd))

theorem makeDir (p : Path) : Keeps current places (Storage.makeDir p) := by
  intro d _
  refine sameOutside_commit fun d' hmake => ?_
  obtain ⟨dir, name, -, hnone, rfl⟩ := makeDir_eq_ok hmake
  exact sameOutside_set_dir hnone

theorem write (h : places (locate current p)) (bytes : ByteArray) :
    Keeps current places (Storage.write p bytes) := by
  rintro d rfl
  refine sameOutside_commit fun d' hwrite => ?_
  rw [(write_eq_ok hwrite).1]
  exact sameOutside_set_file h bytes

end Disk.Keeps

namespace Disk

/-- The files on a disk. -/
def view : FileView Disk where
  locate d := locate d.current
  file? := file?

@[simp] theorem view_locate (d : Disk) : view.locate d = locate d.current := rfl

@[simp] theorem view_file? (d : Disk) : view.file? d = d.file? := rfl

theorem SameOutside.toView {places : Location → Prop} {d d' : Disk} (h : SameOutside places d d') :
    view.SameOutside places d d' where
  locate_eq := congrArg locate h.current_eq
  file?_eq := h.file?_eq

theorem lawful : view.Lawful where
  size _ d := .refl d
  read _ d := .refl d
  isDir _ d := .refl d
  makeDir p d := (Keeps.makeDir p d rfl).toView
  write p bytes d := (@Keeps.write d.current (· = locate d.current p) p rfl bytes d rfl).toView
  read_eq_ok h := (read_eq_ok_iff.mp h).2
  write_eq_ok := by
    intro p bytes d d' h
    have hcommit : commit (d.write p bytes) d = (.ok (), d') := h
    cases hwrite : d.write p bytes with
    | error fault =>
        rw [hwrite] at hcommit
        cases hcommit
    | ok d₁ =>
        rw [hwrite] at hcommit
        cases hcommit
        obtain ⟨hset, -, dir, piece, htarget, -⟩ := write_eq_ok hwrite
        have hplace : locate d.current p ≠ [] := by simp [locate_of_target htarget]
        show d'.file? (locate d.current p) = some bytes
        rw [file?_eq_some, hset]
        exact get?_set_self d hplace _

end Disk

/-! ## What a request changes -/

/-- A path that starts where its directory is leads to a place below this directory. -/
theorem Disk.locate_prefix_of_start {q : Path} (h : q.route.start = .above 0) (current : Location)
    (p : Path) : locate current p <+: locate current (p.join q) := by
  rw [locate, locate, Path.route_join]
  generalize q.route = r at h
  obtain ⟨start, names⟩ := r
  obtain rfl : start = .above 0 := h
  generalize p.route = base
  obtain ⟨_ | n, names'⟩ := base
  · exact List.prefix_append _ _
  · exact ⟨names, List.append_assoc _ _ _⟩

namespace Command

open Disk

/-- The places that a request may write to: those below the output directory, and that of the list
of files. -/
def GenerateRequest.Writes (r : GenerateRequest) (current place : Location) : Prop :=
  locate current r.outDir <+: place ∨ ∃ list, r.listOut = some list ∧ place = locate current list

/-- Artifacts come from the document that is on the disk. -/
theorem exists_of_run_artifacts {input : Path} {s : Settings} {d d' : Disk} {l : List Artifact}
    (h : d.run (artifacts input s) = (.ok l, d')) :
    ∃ doc, (d.run (readDocument input)).1 = .ok doc ∧
      (Generator.standard s).generate doc = .ok l := by
  obtain ⟨doc, d₁, hread, h⟩ := exists_of_run_bind h
  refine ⟨doc, by rw [hread], ?_⟩
  split at h
  · cases h
  case h_2 l' hgenerate =>
    cases h
    exact hgenerate

/-- Generating a document whose file names stay below the output directory leaves every other file
as it was, apart from the list of files, and whether the run succeeds or not. -/
theorem generate_sameOutside {r : GenerateRequest} {d : Disk}
    (hstays : ∀ doc, (d.run (readDocument r.input)).1 = .ok doc →
      ∀ decl ∈ doc.decls, ∀ p ∈ r.settings.placements decl, Stays p) :
    SameOutside (r.Writes d.current) d (d.run (generate r)).2 := by
  rw [generate]
  cases hdirs : checkDirs r with
  | error failure => exact SameOutside.refl d
  | ok _ =>
      have hok : d.run (MonadExcept.ofExcept (.ok ()) : ExceptT Failure (StateM Disk) Unit) =
          (.ok (), d) := rfl
      rw [run_bind_of_ok hok]
      -- Which document is generated depends on the disk, so this step is taken on `d` itself. What
      -- follows holds on every disk with its current directory.
      have hread : SameOutside (r.Writes d.current) d (d.run (artifacts r.input r.settings)).2 :=
        Changes.artifacts Keeps.isChange r.input r.settings d rfl
      refine SameOutside.bind hread fun l d₁ hl => ?_
      obtain ⟨doc, hdoc, hgenerate⟩ := exists_of_run_artifacts hl
      have hstart := (start_route_iff_stays hdirs hgenerate).mpr (hstays doc hdoc)
      rw [hl] at hread
      suffices hrest : Keeps d.current (r.Writes d.current) _ from hrest d₁ hread.current_eq
      split
      · exact Changes.pure Keeps.isChange _
      · have hall : Keeps d.current (r.Writes d.current) (Output.writeAll r.outDir l).run :=
          Changes.writeAll Keeps.isChange Keeps.makeDir fun a ha =>
            Keeps.write (Or.inl (locate_prefix_of_start (hstart a ha) d.current r.outDir))
        refine Changes.bindExcept Keeps.isChange (Changes.map _ hall) fun summary => ?_
        split
        case h_1 list hlist =>
          have hplace : Keeps d.current (r.Writes d.current)
              (Output.writeList r.outDir list (l.map (·.path))).run :=
            Changes.place Keeps.isChange Keeps.makeDir (Keeps.write (Or.inr ⟨list, hlist, rfl⟩)) _
          exact Changes.bindExcept Keeps.isChange (Changes.map _ hplace) fun _ =>
            Changes.pure Keeps.isChange _
        case h_2 => exact Changes.pure Keeps.isChange _

end Command

end IdlBinder

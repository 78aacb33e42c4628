import IdlBinder.Command.Run
import IdlBinder.Files.Disk

set_option autoImplicit false

/-!
# What a computation does to a state

Files are read and written in a state. A computation does what its operations do, one after the
other and up to the first that fails (`run_bind_of_ok`, `run_bind_of_error`), so a kind of change
that all operations keep to is kept to by every command, wherever it stops (`Changes`).

Little is asked of the operations themselves (`FileView.Lawful`). Each of them may fail at any time,
and a write that fails may leave anything in its file. What a read gives is what is there, what is
written is there after it, and no operation changes a file at another place.
-/

namespace IdlBinder

variable {σ : Type}

namespace Effect

/-! ## Running a computation -/

variable {s s' : σ} {α β ε : Type} {x : ExceptT ε (StateM σ) α} {f : α → ExceptT ε (StateM σ) β}

/-- The outcome of a computation on a state, and the state that it leaves. -/
def run (s : σ) (x : ExceptT ε (StateM σ) α) : Except ε α × σ := StateT.run x.run s

theorem run_bind_of_error {e : ε} (h : run s x = (.error e, s')) :
    run s (x >>= f) = (.error e, s') := by
  have hx : StateT.run x.run s = (.error e, s') := h
  rw [run, ExceptT.run_bind, StateT.run_bind, hx]
  rfl

theorem run_bind_of_ok {a : α} (h : run s x = (.ok a, s')) : run s (x >>= f) = run s' (f a) := by
  have hx : StateT.run x.run s = (.ok a, s') := h
  rw [run, ExceptT.run_bind, StateT.run_bind, hx]
  rfl

theorem exists_of_run_bind {b : β} (h : run s (x >>= f) = (.ok b, s')) :
    ∃ a s₁, run s x = (.ok a, s₁) ∧ run s₁ (f a) = (.ok b, s') := by
  rcases hx : run s x with ⟨_ | a, s₁⟩
  · rw [run_bind_of_error hx] at h
    cases h
  · rw [run_bind_of_ok hx] at h
    exact ⟨a, s₁, rfl, h⟩

theorem run_map_of_ok {a : α} {g : α → β} (h : run s x = (.ok a, s')) :
    run s (g <$> x) = (.ok (g a), s') := by
  rw [map_eq_pure_bind]
  exact run_bind_of_ok h

theorem run_map_of_error {e : ε} {g : α → β} (h : run s x = (.error e, s')) :
    run s (g <$> x) = (.error e, s') := by
  rw [map_eq_pure_bind]
  exact run_bind_of_error h

theorem run_lift {x : StateM σ α} {a : α} (h : StateT.run x s = (a, s')) :
    run s (liftM x : ExceptT ε (StateM σ) α) = (.ok a, s') := by
  have hlift : run s (liftM x : ExceptT ε (StateM σ) α) =
      (.ok (StateT.run x s).1, (StateT.run x s).2) := rfl
  rw [hlift, h]

/-! ## What a computation changes -/

variable [Storage (StateM σ)]

/-- A kind of change, which may be none or several in a row, and which looking at files is of. -/
structure IsChange (R : σ → σ → Prop) : Prop where
  refl (s : σ) : R s s
  trans {s₁ s₂ s₃ : σ} : R s₁ s₂ → R s₂ s₃ → R s₁ s₃
  size (p : Path) (s : σ) : R s (StateT.run (Storage.size p : StateM σ _) s).2
  read (p : Path) (s : σ) : R s (StateT.run (Storage.read p : StateM σ _) s).2
  isDir (p : Path) (s : σ) : R s (StateT.run (Storage.isDir p : StateM σ _) s).2

/-- A computation that does changes of one kind only, whatever state it runs in and wherever it
stops. -/
def Changes (R : σ → σ → Prop) {α : Type} (x : StateM σ α) : Prop := ∀ s, R s (x.run s).2

end Effect

namespace Effect.Changes

variable [Storage (StateM σ)] {R : σ → σ → Prop} (hR : IsChange R) {p : Path} {α β ε : Type}

include hR

theorem pure (a : α) : Changes R (pure a) := fun s => hR.refl s

theorem bind {x : StateM σ α} {f : α → StateM σ β} (hx : Changes R x)
    (hf : ∀ a, Changes R (f a)) : Changes R (x >>= f) := fun s => hR.trans (hx s) (hf _ _)

theorem bindExcept {x : ExceptT ε (StateM σ) α} {f : α → ExceptT ε (StateM σ) β}
    (hx : Changes R x.run) (hf : ∀ a, Changes R (f a).run) : Changes R (x >>= f).run := by
  intro s
  show R s (run s (x >>= f)).2
  have hfirst : R s (run s x).2 := hx s
  rcases hrun : run s x with ⟨_ | a, s₁⟩ <;> rw [hrun] at hfirst
  · rw [run_bind_of_error hrun]
    exact hfirst
  · rw [run_bind_of_ok hrun]
    exact hR.trans hfirst (hf a s₁)

/-- Nothing is done after a failure. -/
theorem throwBind (e : ε) (f : α → ExceptT ε (StateM σ) β) :
    Changes R (throw e >>= f).run := pure hR _

omit [Storage (StateM σ)] hR in
theorem map {x : StateM σ α} (f : α → β) (hx : Changes R x) : Changes R (f <$> x) :=
  fun s => hx s

omit [Storage (StateM σ)] hR in
theorem lift {x : StateM σ α} (hx : Changes R x) :
    Changes R (liftM x : ExceptT ε (StateM σ) α).run := hx.map _

theorem readText (p : Path) : Changes R (Storage.readText p) := by
  refine bind hR (hR.read p) fun result => ?_
  split <;> exact pure hR _

theorem holds (p : Path) (text : String) : Changes R (Output.holds p text) := by
  refine bind hR (readText hR p) fun result => ?_
  split <;> exact pure hR _

theorem readDocument (input : Path) : Changes R (Command.readDocument input).run := by
  refine bindExcept hR (lift (hR.size input)) fun result => ?_
  cases result with
  | error fault => exact throwBind hR _ _
  | ok n =>
      by_cases hn : Command.maxInputSize < n
      · simp only [if_pos hn]
        exact throwBind hR _ _
      · simp only [if_neg hn]
        refine bindExcept hR (readText hR input).lift fun result => ?_
        cases result with
        | error fault => exact pure hR _
        | ok text =>
            simp only
            cases Document.read? text <;> exact pure hR _

theorem artifacts (input : Path) (s : Settings) : Changes R (Command.artifacts input s).run := by
  refine bindExcept hR (readDocument hR input) fun doc => ?_
  split <;> exact pure hR _

/-! What is put in place takes changes of the two kinds that there are. -/

variable (hmake : ∀ p, Changes R (Storage.makeDir p))

include hmake

theorem ensureDir (p : Path) : Changes R (Storage.ensureDir p) := by
  refine bind hR (hmake p) fun result => ?_
  split
  · exact pure hR _
  · exact bind hR (hR.isDir p) fun _ => pure hR _

theorem ensureChain (ps : List Path) : Changes R (Storage.ensureChain ps) := by
  induction ps with
  | nil => exact pure hR _
  | cons p above ih =>
      refine bind hR (ensureDir hR hmake p) fun result => ?_
      split
      · refine bind hR ih fun result => ?_
        split
        · exact pure hR _
        · exact ensureDir hR hmake p
      · exact pure hR _

/-- A file is placed where its path leads; above it only directories are made. -/
theorem place (hwrite : ∀ bytes, Changes R (Storage.write p bytes)) (text : String) :
    Changes R (Output.place p text).run := by
  rw [Output.place]
  split
  case h_1 dir hdir =>
    refine bindExcept hR (ensureChain hR hmake _).lift fun result => ?_
    split
    · exact pure hR _
    · refine bindExcept hR (hwrite _).lift fun result => ?_
      split <;> exact pure hR _
  case h_2 =>
    refine bindExcept hR (hwrite _).lift fun result => ?_
    split <;> exact pure hR _

theorem writeArtifact {root : Path} {a : Artifact}
    (hwrite : ∀ bytes, Changes R (Storage.write (root.join a.path) bytes)) :
    Changes R (Output.writeArtifact root a).run := by
  refine bindExcept hR (holds hR _ _).lift fun held => ?_
  split
  · exact pure hR _
  · exact bindExcept hR (place hR hmake hwrite _) fun _ => pure hR _

/-- Artifacts are put in place one after the other. -/
theorem writeAll {root : Path} {artifacts : List Artifact}
    (hwrite : ∀ a ∈ artifacts, ∀ bytes, Changes R (Storage.write (root.join a.path) bytes)) :
    Changes R (Output.writeAll root artifacts).run := by
  rw [Output.writeAll]
  -- The summary grows along the list and has no say in what is written.
  generalize ({} : WriteSummary) = summary
  induction artifacts generalizing summary with
  | nil => exact pure hR _
  | cons a artifacts ih =>
      obtain ⟨ha, hartifacts⟩ := List.forall_mem_cons.mp hwrite
      rw [List.foldlM_cons]
      exact bindExcept hR (bindExcept hR (writeArtifact hR hmake ha) fun _ => pure hR _)
        (ih hartifacts)

end Effect.Changes

/-! ## Files in a state -/

/-- How the files in a state are seen: where paths lead, and what is there. -/
structure FileView (σ : Type) where
  /-- Where a path leads, if the directories on its way are there. -/
  locate : σ → Path → Location
  /-- The bytes of the file at a place, if a file is there. -/
  file? : σ → Location → Option ByteArray

namespace FileView

open Effect

variable {v : FileView σ} {s s' : σ} {places places' : Location → Prop}

/-- Two states in which paths lead to the same places, with the same files outside of some of
them. -/
structure SameOutside (v : FileView σ) (places : Location → Prop) (s s' : σ) : Prop where
  locate_eq : v.locate s' = v.locate s
  file?_eq : ∀ place, ¬ places place → v.file? s' place = v.file? s place

theorem SameOutside.refl (s : σ) : v.SameOutside places s s := ⟨rfl, fun _ _ => rfl⟩

theorem SameOutside.trans {s₁ s₂ s₃ : σ} (h : v.SameOutside places s₁ s₂)
    (h' : v.SameOutside places s₂ s₃) : v.SameOutside places s₁ s₃ where
  locate_eq := h'.locate_eq.trans h.locate_eq
  file?_eq place hplace := (h'.file?_eq place hplace).trans (h.file?_eq place hplace)

theorem SameOutside.mono (h : v.SameOutside places s s')
    (hplaces : ∀ place, places place → places' place) : v.SameOutside places' s s' where
  locate_eq := h.locate_eq
  file?_eq place hplace := h.file?_eq place fun hp => hplace (hplaces place hp)

/-- The same files everywhere. -/
abbrev Same (v : FileView σ) (s s' : σ) : Prop := v.SameOutside (fun _ => False) s s'

theorem SameOutside.of_same (h : v.Same s s') : v.SameOutside places s s' :=
  h.mono fun _ hplace => hplace.elim

/-- Where artifacts below a directory go. -/
def targets (v : FileView σ) (s : σ) (root : Path) (artifacts : List Artifact) : List Location :=
  artifacts.map fun a => v.locate s (root.join a.path)

variable [Storage (StateM σ)]

/-- What the operations on files keep to, whether they succeed or fail. -/
structure Lawful (v : FileView σ) : Prop where
  size (p : Path) (s : σ) : v.Same s (StateT.run (Storage.size p : StateM σ _) s).2
  read (p : Path) (s : σ) : v.Same s (StateT.run (Storage.read p : StateM σ _) s).2
  isDir (p : Path) (s : σ) : v.Same s (StateT.run (Storage.isDir p : StateM σ _) s).2
  makeDir (p : Path) (s : σ) : v.Same s (StateT.run (Storage.makeDir p : StateM σ _) s).2
  /-- A write, even one that fails, changes no file but the one that its path leads to. -/
  write (p : Path) (bytes : ByteArray) (s : σ) :
    v.SameOutside (· = v.locate s p) s (StateT.run (Storage.write p bytes : StateM σ _) s).2
  /-- What a read gives is what is there. -/
  read_eq_ok {p : Path} {s : σ} {bytes : ByteArray} :
    (StateT.run (Storage.read p : StateM σ _) s).1 = .ok bytes →
      v.file? s (v.locate s p) = some bytes
  /-- What a write is done with is there after it. -/
  write_eq_ok {p : Path} {bytes : ByteArray} {s s' : σ} :
    StateT.run (Storage.write p bytes : StateM σ _) s = (.ok (), s') →
      v.file? s' (v.locate s p) = some bytes

/-- What stays the same from wherever paths lead to the same places is a kind of change. -/
theorem Lawful.isChange (hv : v.Lawful) (locate : Path → Location) (places : Location → Prop) :
    IsChange fun s s' => v.locate s = locate → v.SameOutside places s s' where
  refl s _ := .refl s
  trans h h' hs := (h hs).trans (h' ((h hs).locate_eq.trans hs))
  size p s _ := .of_same (hv.size p s)
  read p s _ := .of_same (hv.read p s)
  isDir p s _ := .of_same (hv.isDir p s)

/-- Directories come and go without any change to files. -/
theorem Lawful.ensureDirs (hv : v.Lawful) (dir : Path) (s : σ) :
    v.Same s (StateT.run (Storage.ensureDirs dir : StateM σ _) s).2 :=
  Changes.ensureChain (hv.isChange (v.locate s) _) (fun p s _ => hv.makeDir p s) _ s rfl

/-- Whatever comes of it, placing a file changes no other one. -/
theorem Lawful.place (hv : v.Lawful) (p : Path) (text : String) (s : σ) :
    v.SameOutside (· = v.locate s p) s (run s (Output.place p text)).2 := by
  refine Changes.place (hv.isChange (v.locate s) _) (fun p s _ => .of_same (hv.makeDir p s)) ?_
    text s rfl
  intro bytes s₁ hs₁
  have hwrite := hv.write p bytes s₁
  rwa [hs₁] at hwrite

/-- Whatever comes of it, putting an artifact in place changes no file but its own. -/
theorem Lawful.writeArtifact (hv : v.Lawful) (root : Path) (a : Artifact) (s : σ) :
    v.SameOutside (· = v.locate s (root.join a.path)) s
      (run s (Output.writeArtifact root a)).2 := by
  refine Changes.writeArtifact (hv.isChange (v.locate s) _)
    (fun p s _ => .of_same (hv.makeDir p s)) ?_ s rfl
  intro bytes s₁ hs₁
  have hwrite := hv.write (root.join a.path) bytes s₁
  rwa [hs₁] at hwrite

/-- Whatever comes of it, putting artifacts in place changes no file but theirs. -/
theorem Lawful.writeAll (hv : v.Lawful) (root : Path) (artifacts : List Artifact) (s : σ) :
    v.SameOutside (· ∈ v.targets s root artifacts) s
      (run s (Output.writeAll root artifacts)).2 := by
  refine Changes.writeAll (hv.isChange (v.locate s) _) (fun p s _ => .of_same (hv.makeDir p s)) ?_
    s rfl
  intro a ha bytes s₁ hs₁
  refine (hv.write (root.join a.path) bytes s₁).mono ?_
  rintro place rfl
  rw [hs₁]
  exact List.mem_map_of_mem ha

end FileView

end IdlBinder

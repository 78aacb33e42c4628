import IdlBinder.Proofs.DiskEffect

set_option autoImplicit false

/-!
# Putting artifacts in place

An artifact is left alone if its file can be read and holds its contents, and is written otherwise,
so that its file holds its contents in the end (`writeArtifact_eq_ok`). A list that gets through is
`Puts`, one step for each artifact, and the summary is read off it.

`writeAll_outcome` says what is left behind by a list whose artifacts have different targets, on any
store that is lawful, be it that reads fail or that writes break off. A list that gets through
leaves every target with its contents (`Completed`); what it leaves alone is what was there before
and can be read. A list that fails does so at one artifact: those before it are in place, and those
after it are untouched (`Stopped`).
-/

namespace IdlBinder

open Effect (run)

/-- Whether the place of an artifact holds a file with its contents. -/
def FileView.HasArtifact {σ : Type} (v : FileView σ) (s : σ) (root : Path) (a : Artifact) : Prop :=
  v.file? s (v.locate s (root.join a.path)) = some a.contents.toUTF8

instance {σ : Type} (v : FileView σ) (s : σ) (root : Path) (a : Artifact) :
    Decidable (v.HasArtifact s root a) :=
  inferInstanceAs (Decidable (_ = _))

/-- An artifact is in place as long as its file stays the same. -/
theorem FileView.SameOutside.hasArtifact_iff {σ : Type} {v : FileView σ} {s s' : σ}
    {places : Location → Prop} (h : v.SameOutside places s s') {root : Path} {a : Artifact}
    (ha : ¬ places (v.locate s (root.join a.path))) :
    v.HasArtifact s' root a ↔ v.HasArtifact s root a := by
  rw [HasArtifact, HasArtifact, h.locate_eq, h.file?_eq _ ha]

namespace Output

variable {σ : Type} [Storage (StateM σ)] {v : FileView σ} {s s' : σ}
variable {p root : Path} {a : Artifact} {artifacts : List Artifact}

/-! ## One artifact -/

/-- What reading a file gives. -/
def reading (s : σ) (p : Path) : Except Fault ByteArray :=
  (StateT.run (Storage.read p : StateM σ _) s).1

/-- Whether a file can be read. -/
def canRead (s : σ) (p : Path) : Bool := (reading s p).isOk

theorem canRead_iff : canRead s p = true ↔ ∃ bytes, reading s p = .ok bytes := by
  rw [canRead]
  cases reading s p with
  | error fault => simp [Except.isOk, Except.toBool]
  | ok bytes => simp [Except.isOk, Except.toBool]

theorem fromUTF8?_eq_some_iff {bytes : ByteArray} {text : String} :
    String.fromUTF8? bytes = some text ↔ bytes = text.toUTF8 := by
  rw [String.fromUTF8?]
  constructor
  · intro h
    split at h
    · obtain rfl := Option.some.inj h
      rfl
    · cases h
  · rintro rfl
    rw [dif_pos]
    rfl

theorem run_readText (s : σ) (p : Path) :
    StateT.run (Storage.readText p : StateM σ _) s =
      ((reading s p).bind fun bytes => (String.fromUTF8? bytes).elim (.error .notText) .ok,
        (StateT.run (Storage.read p : StateM σ _) s).2) := by
  rw [Storage.readText, StateT.run_bind, reading]
  rcases StateT.run (Storage.read p : StateM σ _) s with ⟨_ | bytes, s'⟩ <;> rfl

/-- A file holds a text if reading it gives the bytes of the text. -/
theorem run_holds (s : σ) (p : Path) (text : String) :
    ∃ held, StateT.run (holds p text : StateM σ Bool) s =
        (held, (StateT.run (Storage.read p : StateM σ _) s).2) ∧
      (held = true ↔ reading s p = .ok text.toUTF8) := by
  rw [holds, StateT.run_bind, run_readText]
  cases reading s p with
  | error fault => exact ⟨false, rfl, by simp⟩
  | ok bytes =>
      rw [Except.ok.injEq, ← fromUTF8?_eq_some_iff]
      simp only [Except.bind]
      cases String.fromUTF8? bytes with
      | none => exact ⟨false, rfl, by simp⟩
      | some old => exact ⟨old == text, rfl, by simp⟩

/-- A write whose fault is thrown on has succeeded if nothing was thrown. -/
theorem run_write_of_bind {ε : Type} {bytes : ByteArray}
    {f : Except Fault Unit → ExceptT ε (StateM σ) Unit}
    (h : run s (liftM (Storage.write p bytes : StateM σ _) >>= f) = (.ok (), s'))
    (herror : ∀ fault, ∃ e, f (.error fault) = throw e) (hok : f (.ok ()) = pure ()) :
    StateT.run (Storage.write p bytes : StateM σ _) s = (.ok (), s') := by
  rcases hwrite : StateT.run (Storage.write p bytes : StateM σ _) s with ⟨fault | ⟨⟩, s₁⟩
  · obtain ⟨e, he⟩ := herror fault
    rw [Effect.run_bind_of_ok (Effect.run_lift hwrite), he] at h
    cases h
  · rw [Effect.run_bind_of_ok (Effect.run_lift hwrite), hok] at h
    cases h
    rfl

/-- A file that is placed has been written last, and before that only directories were made. -/
theorem exists_of_place (hv : v.Lawful) {text : String}
    (h : run s (place p text) = (.ok (), s')) :
    ∃ s₁, v.Same s s₁ ∧
      StateT.run (Storage.write p text.toUTF8 : StateM σ _) s₁ = (.ok (), s') := by
  rw [place] at h
  split at h
  case h_1 dir hdir =>
    have hsame := hv.ensureDirs dir s
    rcases hensure : StateT.run (Storage.ensureDirs dir : StateM σ _) s with ⟨fault | ⟨⟩, s₁⟩ <;>
      rw [hensure] at hsame <;> rw [Effect.run_bind_of_ok (Effect.run_lift hensure)] at h
    · cases h
    · exact ⟨s₁, hsame, run_write_of_bind h (fun _ => ⟨_, rfl⟩) rfl⟩
  case h_2 => exact ⟨s, .refl s, run_write_of_bind h (fun _ => ⟨_, rfl⟩) rfl⟩

/-- An artifact whose file can be read and holds its contents is left alone. -/
theorem writeArtifact_of_reading (h : reading s (root.join a.path) = .ok a.contents.toUTF8) :
    run s (writeArtifact root a) =
      (.ok false, (StateT.run (Storage.read (root.join a.path) : StateM σ _) s).2) := by
  obtain ⟨held, hrun, hheld⟩ := run_holds s (root.join a.path) a.contents
  obtain rfl : held = true := hheld.mpr h
  rw [writeArtifact, Effect.run_bind_of_ok (Effect.run_lift hrun)]
  rfl

/-- An artifact that is put in place has been left alone after a look at its file, or it has been
written after directories were made. -/
theorem writeArtifact_cases (hv : v.Lawful) {written : Bool}
    (h : run s (writeArtifact root a) = (.ok written, s')) :
    (written = false ∧ reading s (root.join a.path) = .ok a.contents.toUTF8 ∧
        s' = (StateT.run (Storage.read (root.join a.path) : StateM σ _) s).2) ∨
      (written = true ∧ reading s (root.join a.path) ≠ .ok a.contents.toUTF8 ∧
        ∃ s₁, v.Same s s₁ ∧ StateT.run
          (Storage.write (root.join a.path) a.contents.toUTF8 : StateM σ _) s₁ = (.ok (), s')) := by
  obtain ⟨held, hrun, hheld⟩ := run_holds s (root.join a.path) a.contents
  rw [writeArtifact, Effect.run_bind_of_ok (Effect.run_lift hrun)] at h
  cases held with
  | true =>
      cases h
      exact Or.inl ⟨rfl, hheld.mp rfl, rfl⟩
  | false =>
      obtain ⟨⟨⟩, s₁, hplace, h⟩ := Effect.exists_of_run_bind h
      cases h
      obtain ⟨s₂, hmade, hwrite⟩ := exists_of_place hv hplace
      exact Or.inr ⟨rfl, by simpa using hheld, s₂, (hv.read _ s).trans hmade, hwrite⟩

/-- An artifact that is put in place is there, and it is written unless its file can be read and
holds its contents already. -/
theorem writeArtifact_eq_ok (hv : v.Lawful) {written : Bool}
    (h : run s (writeArtifact root a) = (.ok written, s')) :
    v.HasArtifact s' root a ∧
      (written = false ↔ reading s (root.join a.path) = .ok a.contents.toUTF8) := by
  have hsame := (hv.writeArtifact root a s).locate_eq
  rw [h] at hsame
  rw [FileView.HasArtifact, hsame]
  obtain ⟨rfl, hreading, rfl⟩ | ⟨rfl, hreading, s₁, hmade, hwrite⟩ := writeArtifact_cases hv h
  · refine ⟨?_, by simp [hreading]⟩
    rw [(hv.read _ _).file?_eq _ id]
    exact hv.read_eq_ok hreading
  · refine ⟨?_, iff_of_false (by simp) hreading⟩
    -- Directories were made before the write, but the path leads where it led.
    rw [← hmade.locate_eq]
    exact hv.write_eq_ok hwrite

/-! ## Artifacts one after the other -/

/-- Artifacts, each with the state in which its turn comes. -/
def turns (root : Path) : σ → List Artifact → List (σ × Artifact)
  | _, [] => []
  | s, a :: artifacts => (s, a) :: turns root (run s (writeArtifact root a)).2 artifacts

theorem map_snd_turns (root : Path) (s : σ) (artifacts : List Artifact) :
    (turns root s artifacts).map (·.2) = artifacts := by
  induction artifacts generalizing s with
  | nil => rfl
  | cons a artifacts ih => rw [turns, List.map_cons, ih]

/-- Artifacts that are put in place one after the other, each with the state in which its turn comes
and with whether it is written. -/
inductive Puts (root : Path) : σ → List ((σ × Artifact) × Bool) → σ → Prop where
  | nil (s : σ) : Puts root s [] s
  | cons {s s₁ s₂ : σ} {a : Artifact} {written : Bool} {l : List ((σ × Artifact) × Bool)} :
      run s (writeArtifact root a) = (.ok written, s₁) → Puts root s₁ l s₂ →
        Puts root s (((s, a), written) :: l) s₂

variable {l : List ((σ × Artifact) × Bool)}

theorem Puts.map_fst (h : Puts root s l s') : l.map (·.1) = turns root s (l.map (·.1.2)) := by
  induction h with
  | nil s => rfl
  | cons hrun _ ih => rw [List.map_cons, List.map_cons, turns, hrun, ih]

theorem Puts.of_append {l' : List ((σ × Artifact) × Bool)} (h : Puts root s (l ++ l') s') :
    ∃ s₁, Puts root s l s₁ ∧ Puts root s₁ l' s' := by
  induction l generalizing s with
  | nil => exact ⟨s, .nil s, h⟩
  | cons x l ih =>
      cases h with
      | cons hrun hrest =>
          obtain ⟨s₁, hl, hl'⟩ := ih hrest
          exact ⟨s₁, .cons hrun hl, hl'⟩

/-! ## The summary -/

/-- A run that gets through has put all artifacts in place. The summary grows along the list. -/
theorem run_foldlM_eq_ok_iff {t t' : WriteSummary} :
    run s (artifacts.foldlM (fun t a => t.add a.path <$> writeArtifact root a) t) = (.ok t', s') ↔
      ∃ l, l.map (·.1.2) = artifacts ∧ Puts root s l s' ∧
        t' = l.foldl (fun t x => t.add x.1.2.path x.2) t := by
  constructor
  · intro h
    induction artifacts generalizing s t with
    | nil =>
        cases h
        exact ⟨[], rfl, .nil _, rfl⟩
    | cons a artifacts ih =>
        rw [List.foldlM_cons] at h
        -- The fold stops at a fault, so the first artifact has been put in place.
        obtain ⟨t₁, s₁, hstep, hrest⟩ := Effect.exists_of_run_bind h
        rcases hrun : run s (writeArtifact root a) with ⟨_ | written, s₂⟩
        · rw [Effect.run_map_of_error hrun] at hstep
          cases hstep
        · rw [Effect.run_map_of_ok hrun] at hstep
          cases hstep
          obtain ⟨l, rfl, hputs, rfl⟩ := ih hrest
          exact ⟨((s, a), written) :: l, rfl, .cons hrun hputs, rfl⟩
  · rintro ⟨l, rfl, hputs, rfl⟩
    induction hputs generalizing t with
    | nil s => rfl
    | cons hrun _ ih =>
        rw [List.map_cons, List.foldlM_cons, Effect.run_bind_of_ok (Effect.run_map_of_ok hrun)]
        exact ih

/-- A run that fails has put the artifacts before the one that it fails at in place. -/
theorem exists_of_run_foldlM_eq_error {t : WriteSummary} {e : WriteError}
    (h : run s (artifacts.foldlM (fun t a => t.add a.path <$> writeArtifact root a) t) =
      (.error e, s')) :
    ∃ before a after l s₁, artifacts = before ++ a :: after ∧ l.map (·.1.2) = before ∧
      Puts root s l s₁ ∧ run s₁ (writeArtifact root a) = (.error e, s') := by
  induction artifacts generalizing s t with
  | nil => cases h
  | cons a artifacts ih =>
      rw [List.foldlM_cons] at h
      rcases hrun : run s (writeArtifact root a) with ⟨e' | written, s₁⟩
      · rw [Effect.run_bind_of_error (Effect.run_map_of_error hrun)] at h
        cases h
        exact ⟨[], a, artifacts, [], s, rfl, rfl, .nil s, hrun⟩
      · rw [Effect.run_bind_of_ok (Effect.run_map_of_ok hrun)] at h
        obtain ⟨before, b, after, l, s₂, rfl, rfl, hputs, hfail⟩ := ih h
        exact ⟨a :: l.map (·.1.2), b, after, ((s, a), written) :: l, s₂, rfl, rfl,
          .cons hrun hputs, hfail⟩

omit [Storage (StateM σ)] in
theorem foldl_add (l : List ((σ × Artifact) × Bool)) (t : WriteSummary) :
    l.foldl (fun t x => t.add x.1.2.path x.2) t =
      ⟨t.written ++ (l.filter (·.2)).map (·.1.2.path),
        t.unchanged ++ (l.filter (!·.2)).map (·.1.2.path)⟩ := by
  induction l generalizing t with
  | nil => simp
  | cons x l ih =>
      obtain ⟨a, written⟩ := x
      rw [List.foldl_cons, ih]
      cases written <;> simp [WriteSummary.add]

/-- A run that gets through, by the artifacts that it writes and those that it finds in place. -/
theorem writeAll_eq_ok_iff {summary : WriteSummary} :
    run s (writeAll root artifacts) = (.ok summary, s') ↔
      ∃ l, l.map (·.1.2) = artifacts ∧ Puts root s l s' ∧
        summary.written = (l.filter (·.2)).map (·.1.2.path) ∧
        summary.unchanged = (l.filter (!·.2)).map (·.1.2.path) := by
  rw [writeAll, run_foldlM_eq_ok_iff]
  obtain ⟨written, unchanged⟩ := summary
  simp [foldl_add]

/-- A summary names every artifact of the run once. -/
theorem all_perm_of_writeAll {summary : WriteSummary}
    (h : run s (writeAll root artifacts) = (.ok summary, s')) :
    summary.all.Perm (artifacts.map (·.path)) := by
  obtain ⟨l, rfl, -, hwritten, hunchanged⟩ := writeAll_eq_ok_iff.mp h
  rw [WriteSummary.all, hwritten, hunchanged, ← List.map_append, List.map_map]
  exact (List.filter_append_perm _ l).map _

/-! ## What is there in the end -/

/-- Puts are a run, so they change no file but those of their artifacts. -/
theorem Puts.sameOutside (hv : v.Lawful) (h : Puts root s l s') :
    v.SameOutside (· ∈ v.targets s root (l.map (·.1.2))) s s' := by
  have hrun : run s (writeAll root (l.map (·.1.2))) = (.ok ⟨_, _⟩, s') :=
    writeAll_eq_ok_iff.mpr ⟨l, rfl, h, rfl, rfl⟩
  have hsame := hv.writeAll root (l.map (·.1.2)) s
  rwa [hrun] at hsame

/-- An artifact stays in place if none after it has the same target. -/
theorem hasArtifact_of_writeAll (hv : v.Lawful) {before after : List Artifact}
    {summary : WriteSummary}
    (h : run s (writeAll root (before ++ a :: after)) = (.ok summary, s'))
    (hlast : v.locate s (root.join a.path) ∉ v.targets s root after) : v.HasArtifact s' root a := by
  obtain ⟨l, hl, hputs, -⟩ := writeAll_eq_ok_iff.mp h
  obtain ⟨l₁, l₂, rfl, -, hl₂⟩ := List.map_eq_append_iff.mp hl
  obtain ⟨⟨⟨t, b⟩, written⟩, l₂, rfl, rfl, rfl⟩ := List.map_eq_cons_iff.mp hl₂
  obtain ⟨s₁, hbefore, hputs⟩ := hputs.of_append
  cases hputs with
  | @cons _ s₂ _ _ _ _ hrun hafter =>
      have hsame := hv.writeArtifact root b t
      rw [hrun] at hsame
      -- The places are the same all along the run.
      have hlocate : v.locate s₂ = v.locate s :=
        hsame.locate_eq.trans (hbefore.sameOutside hv).locate_eq
      refine ((hafter.sameOutside hv).hasArtifact_iff ?_).mpr (writeArtifact_eq_ok hv hrun).1
      rw [FileView.targets, hlocate]
      exact hlast

theorem hasArtifact_of_nodup (hv : v.Lawful) {summary : WriteSummary}
    (hapart : (v.targets s root artifacts).Nodup)
    (h : run s (writeAll root artifacts) = (.ok summary, s')) :
    ∀ a ∈ artifacts, v.HasArtifact s' root a := by
  intro a ha
  obtain ⟨before, after, rfl⟩ := List.append_of_mem ha
  refine hasArtifact_of_writeAll hv h ?_
  rw [FileView.targets, List.map_append, List.map_cons] at hapart
  exact (List.nodup_cons.mp (List.nodup_append.mp hapart).2.1).1

/-- What is not written is what was there before the run and can be read when its turn comes. The
artifacts before it leave its file alone. -/
theorem Puts.unwritten_iff (hv : v.Lawful) (h : Puts root s l s')
    (hapart : (v.targets s root (l.map (·.1.2))).Nodup) :
    ∀ x ∈ l, (x.2 = false ↔
      v.HasArtifact s root x.1.2 ∧ canRead x.1.1 (root.join x.1.2.path) = true) := by
  induction h with
  | nil s => simp
  | @cons s s₁ s₂ a written l hrun hrest ih =>
      obtain ⟨-, hwritten⟩ := writeArtifact_eq_ok hv hrun
      obtain ⟨hnew, hapart⟩ := List.nodup_cons.mp hapart
      have hsame := hv.writeArtifact root a s
      rw [hrun] at hsame
      rw [List.forall_mem_cons]
      constructor
      · -- Reading gives what is there, so other contents cannot be taken for the artifact's.
        rw [hwritten, canRead_iff]
        constructor
        · exact fun hreading => ⟨hv.read_eq_ok hreading, _, hreading⟩
        · rintro ⟨hhas, bytes, hreading⟩
          rw [hreading, Option.some.inj ((hv.read_eq_ok hreading).symm.trans hhas)]
      · intro x hx
        have hapart : (v.targets s₁ root (l.map (·.1.2))).Nodup := by
          rwa [FileView.targets, hsame.locate_eq]
        rw [ih hapart x hx, hsame.hasArtifact_iff]
        exact fun heq => hnew (List.mem_map.mpr ⟨x.1.2, List.mem_map_of_mem hx, heq⟩)

/-- A run that writes nothing names all artifacts as unchanged. -/
theorem Puts.writeAll_of_unwritten (h : Puts root s l s') (hflags : ∀ x ∈ l, x.2 = false) :
    run s (writeAll root (l.map (·.1.2))) =
      (.ok ⟨[], (l.map (·.1.2)).map (·.path)⟩, s') := by
  refine writeAll_eq_ok_iff.mpr ⟨l, rfl, h, ?_, ?_⟩
  · rw [List.filter_eq_nil_iff.mpr fun x hx => by simp [hflags x hx]]
    rfl
  · rw [List.filter_eq_self.mpr fun x hx => by simp [hflags x hx], List.map_map]
    rfl

/-- Artifacts that are in place and can all be read are left alone. -/
theorem exists_puts_of_canRead (hv : v.Lawful) (hhas : ∀ a ∈ artifacts, v.HasArtifact s root a)
    (hread : ∀ x ∈ turns root s artifacts, canRead x.1 (root.join x.2.path) = true) :
    ∃ l s', Puts root s l s' ∧ l.map (·.1.2) = artifacts ∧ ∀ x ∈ l, x.2 = false := by
  induction artifacts generalizing s with
  | nil => exact ⟨[], s, .nil s, rfl, by simp⟩
  | cons a artifacts ih =>
      obtain ⟨ha, hartifacts⟩ := List.forall_mem_cons.mp hhas
      rw [turns, List.forall_mem_cons] at hread
      -- What is read is what is there, and this is the artifact.
      obtain ⟨bytes, hbytes⟩ := canRead_iff.mp hread.1
      obtain rfl := Option.some.inj ((hv.read_eq_ok hbytes).symm.trans ha)
      have hrun := writeArtifact_of_reading hbytes
      have hsame := hv.read (root.join a.path) s
      rw [hrun] at hread
      obtain ⟨l, s', hputs, hl, hflags⟩ :=
        ih (fun b hb => (hsame.hasArtifact_iff id).mpr (hartifacts b hb)) hread.2
      exact ⟨((s, a), false) :: l, s', .cons hrun hputs, by rw [List.map_cons, hl],
        List.forall_mem_cons.mpr ⟨rfl, hflags⟩⟩

/-! ## What a run leaves behind -/

/-- What a run leaves behind that gets through. -/
structure Completed (v : FileView σ) (root : Path) (artifacts : List Artifact) (s s' : σ)
    (summary : WriteSummary) : Prop where
  present : ∀ a ∈ artifacts, v.HasArtifact s' root a
  /-- Only the places of the artifacts have other files than before. -/
  others : ∀ place, place ∉ v.targets s root artifacts → v.file? s' place = v.file? s place
  /-- The two parts of the summary keep the order, and together they name every artifact once. -/
  named : summary.written.Sublist (artifacts.map (·.path)) ∧
    summary.unchanged.Sublist (artifacts.map (·.path)) ∧
    summary.all.Perm (artifacts.map (·.path))
  /-- An artifact is left alone if its place held it before the run and its file can be read when
  its turn comes. -/
  split : summary.written = ((turns root s artifacts).filter fun x =>
      ¬ (v.HasArtifact s root x.2 ∧ canRead x.1 (root.join x.2.path) = true)).map (·.2.path) ∧
    summary.unchanged = ((turns root s artifacts).filter fun x =>
      v.HasArtifact s root x.2 ∧ canRead x.1 (root.join x.2.path) = true).map (·.2.path)
  /-- Then the parts are told apart by what was there before the run, if all of it can be read. -/
  split_of_canRead :
    (∀ x ∈ turns root s artifacts, v.HasArtifact s root x.2 →
      canRead x.1 (root.join x.2.path) = true) →
    summary.written = (artifacts.filter fun a => ¬ v.HasArtifact s root a).map (·.path) ∧
      summary.unchanged = (artifacts.filter fun a => v.HasArtifact s root a).map (·.path)
  /-- A second run that gets through changes no file. -/
  again : ∀ summary' s'', run s' (writeAll root artifacts) = (.ok summary', s'') → v.Same s' s''
  /-- It does get through with nothing to write if all files can be read. -/
  again_of_canRead :
    (∀ x ∈ turns root s' artifacts, canRead x.1 (root.join x.2.path) = true) →
      ∃ s'', run s' (writeAll root artifacts) = (.ok ⟨[], artifacts.map (·.path)⟩, s'')

/-- What a run leaves behind that fails at an artifact, with some before it and some after it. -/
structure Stopped (v : FileView σ) (root : Path) (before : List Artifact) (a : Artifact)
    (after : List Artifact) (s s' : σ) : Prop where
  present : ∀ b ∈ before, v.HasArtifact s' root b
  /-- The file of a later artifact is what it was. -/
  later : ∀ b ∈ after, v.file? s' (v.locate s (root.join b.path)) =
    v.file? s (v.locate s (root.join b.path))
  /-- So are all files but those of the artifacts whose turn has come. -/
  others : ∀ place, place ∉ v.targets s root (before ++ [a]) → v.file? s' place = v.file? s place

theorem map_filter_of_iff {α β : Type} {l : List (α × Bool)} {P : α → Prop} [DecidablePred P]
    (h : ∀ x ∈ l, (x.2 = false ↔ P x.1)) (f : α → β) :
    (l.filter (·.2)).map (fun x => f x.1) = ((l.map (·.1)).filter fun a => ¬ P a).map f ∧
      (l.filter (!·.2)).map (fun x => f x.1) = ((l.map (·.1)).filter fun a => P a).map f := by
  rw [List.filter_map, List.filter_map, List.map_map, List.map_map]
  constructor
  · refine congrArg (List.map _) (List.filter_congr fun x hx => ?_)
    simp [← h x hx]
  · refine congrArg (List.map _) (List.filter_congr fun x hx => ?_)
    simp [← h x hx]

theorem map_filter_turns (P : Artifact → Prop) [DecidablePred P] (root : Path) (s : σ)
    (artifacts : List Artifact) :
    ((turns root s artifacts).filter fun x => P x.2).map (·.2.path) =
      (artifacts.filter fun a => P a).map (·.path) := by
  conv => rhs; rw [← map_snd_turns root s artifacts]
  rw [List.filter_map, List.map_map]
  rfl

/-- Artifacts that are in place may be written again, but no file changes by it. -/
theorem same_of_writeAll (hv : v.Lawful) {summary : WriteSummary}
    (hapart : (v.targets s root artifacts).Nodup)
    (hhas : ∀ a ∈ artifacts, v.HasArtifact s root a)
    (h : run s (writeAll root artifacts) = (.ok summary, s')) : v.Same s s' := by
  have hsame := hv.writeAll root artifacts s
  rw [h] at hsame
  refine ⟨hsame.locate_eq, fun place _ => ?_⟩
  by_cases hplace : place ∈ v.targets s root artifacts
  · obtain ⟨a, ha, rfl⟩ := List.mem_map.mp hplace
    have hagain := hasArtifact_of_nodup hv hapart h a ha
    rw [FileView.HasArtifact, hsame.locate_eq] at hagain
    exact hagain.trans (hhas a ha).symm
  · exact hsame.file?_eq place hplace

theorem completed_of_writeAll (hv : v.Lawful) {summary : WriteSummary}
    (hapart : (v.targets s root artifacts).Nodup)
    (h : run s (writeAll root artifacts) = (.ok summary, s')) :
    Completed v root artifacts s s' summary := by
  have hsame := hv.writeAll root artifacts s
  rw [h] at hsame
  have hpresent := hasArtifact_of_nodup hv hapart h
  have hperm := all_perm_of_writeAll h
  obtain ⟨l, hl, hputs, hwritten, hunchanged⟩ := writeAll_eq_ok_iff.mp h
  have hnamed : summary.written.Sublist (artifacts.map (·.path)) ∧
      summary.unchanged.Sublist (artifacts.map (·.path)) := by
    rw [hwritten, hunchanged, ← hl, List.map_map]
    exact ⟨List.filter_sublist.map _, List.filter_sublist.map _⟩
  have hsplit := map_filter_of_iff
    (P := fun x : σ × Artifact =>
      v.HasArtifact s root x.2 ∧ canRead x.1 (root.join x.2.path) = true)
    (hputs.unwritten_iff hv (by rwa [hl])) (·.2.path)
  rw [hputs.map_fst, hl, ← hwritten, ← hunchanged] at hsplit
  refine ⟨hpresent, hsame.file?_eq, ⟨hnamed.1, hnamed.2, hperm⟩, hsplit, ?_, ?_, ?_⟩
  · intro hread
    have hheld : ∀ x ∈ turns root s artifacts,
        (v.HasArtifact s root x.2 ∧ canRead x.1 (root.join x.2.path) = true ↔
          v.HasArtifact s root x.2) :=
      fun x hx => and_iff_left_of_imp (hread x hx)
    rw [← map_filter_turns _ root s, ← map_filter_turns _ root s, hsplit.1, hsplit.2]
    constructor <;> refine congrArg (List.map _) (List.filter_congr fun x hx => ?_) <;>
      simp only [hheld x hx]
  · intro summary' s'' hagain
    refine same_of_writeAll hv ?_ hpresent hagain
    rwa [FileView.targets, hsame.locate_eq]
  · intro hread
    obtain ⟨l, s'', hputs, rfl, hflags⟩ := exists_puts_of_canRead hv hpresent hread
    exact ⟨s'', hputs.writeAll_of_unwritten hflags⟩

theorem stopped_of_writeAll (hv : v.Lawful) {e : WriteError} {after before : List Artifact}
    {summary : WriteSummary} {s₁ : σ}
    (hapart : (v.targets s root (before ++ a :: after)).Nodup)
    (hbefore : run s (writeAll root before) = (.ok summary, s₁))
    (hfail : run s₁ (writeArtifact root a) = (.error e, s')) :
    Stopped v root before a after s s' := by
  have hsame := hv.writeAll root before s
  rw [hbefore] at hsame
  have hsame' := hv.writeArtifact root a s₁
  rw [hfail, hsame.locate_eq] at hsame'
  rw [FileView.targets, List.map_append, List.nodup_append, List.map_cons, List.nodup_cons]
    at hapart
  obtain ⟨hapart, ⟨hnew, -⟩, hdiffer⟩ := hapart
  have hothers : ∀ place, place ∉ v.targets s root (before ++ [a]) →
      v.file? s' place = v.file? s place := by
    intro place hplace
    rw [FileView.targets, List.map_append, List.mem_append, not_or, List.map_singleton,
      List.mem_singleton] at hplace
    rw [hsame'.file?_eq place hplace.2, hsame.file?_eq place hplace.1]
  refine ⟨fun b hb => ?_, fun b hb => hothers _ ?_, hothers⟩
  · refine (hsame'.hasArtifact_iff ?_).mpr (hasArtifact_of_nodup hv hapart hbefore b hb)
    rw [hsame.locate_eq]
    exact hdiffer _ (List.mem_map_of_mem hb) _ List.mem_cons_self
  · rw [FileView.targets, List.map_append, List.mem_append, not_or, List.map_singleton,
      List.mem_singleton]
    have hb : v.locate s (root.join b.path) ∈ after.map fun a => v.locate s (root.join a.path) :=
      List.mem_map_of_mem hb
    refine ⟨fun hmem => hdiffer _ hmem _ (List.mem_cons_of_mem _ hb) rfl, fun heq => hnew ?_⟩
    rwa [heq] at hb

/-- What a run over artifacts with different places leaves behind, whether it gets through or fails
at one of them. -/
theorem writeAll_outcome (hv : v.Lawful) (hapart : (v.targets s root artifacts).Nodup) :
    (∀ summary s', run s (writeAll root artifacts) = (.ok summary, s') →
      Completed v root artifacts s s' summary) ∧
    ∀ e s', run s (writeAll root artifacts) = (.error e, s') →
      ∃ before a after summary s₁, artifacts = before ++ a :: after ∧
        run s (writeAll root before) = (.ok summary, s₁) ∧
        run s₁ (writeArtifact root a) = (.error e, s') ∧
        Stopped v root before a after s s' := by
  refine ⟨fun summary s' h => completed_of_writeAll hv hapart h, fun e s' h => ?_⟩
  obtain ⟨before, a, after, l, s₁, rfl, rfl, hputs, hfail⟩ := exists_of_run_foldlM_eq_error h
  have hbefore : run s (writeAll root (l.map (·.1.2))) = (.ok ⟨_, _⟩, s₁) :=
    writeAll_eq_ok_iff.mpr ⟨l, rfl, hputs, rfl, rfl⟩
  exact ⟨_, a, after, _, s₁, rfl, hbefore, hfail, stopped_of_writeAll hv hapart hbefore hfail⟩

end Output

/-! ## A store with faults -/

namespace Sample

/-- A disk on which the files at some places cannot be read, and on which a file that has more bytes
than the limit is cut off. -/
structure Frail where
  disk : Disk
  unreadable : List Location
  limit : Nat

namespace Frail

/-- The outcome of an operation on the disk. -/
def act (s : Frail) (result : Except Fault Disk) : Except Fault Unit × Frail :=
  ((Disk.commit result s.disk).1, { s with disk := (Disk.commit result s.disk).2 })

instance : Storage (StateM Frail) where
  size p := fun s => (s.disk.size p, s)
  read p := fun s =>
    (if Disk.locate s.disk.current p ∈ s.unreadable then
      .error (.other "Permission denied (os error 13)") else s.disk.read p, s)
  isDir p := fun s => (s.disk.isDir p, s)
  makeDir p := fun s => s.act (s.disk.makeDir p)
  write p bytes := fun s =>
    if bytes.size ≤ s.limit then s.act (s.disk.write p bytes)
    else (.error (.other "File too large (os error 27)"),
      (s.act (s.disk.write p (bytes.extract 0 s.limit))).2)

def view : FileView Frail where
  locate s := Disk.locate s.disk.current
  file? s := s.disk.file?

variable {s : Frail} {places : Location → Prop}

theorem sameOutside_view {d : Disk} (h : Disk.SameOutside places s.disk d) :
    view.SameOutside places s { s with disk := d } where
  locate_eq := congrArg Disk.locate h.current_eq
  file?_eq := h.file?_eq

theorem run_write (s : Frail) (p : Path) (bytes : ByteArray) :
    StateT.run (Storage.write p bytes : StateM Frail _) s =
      if bytes.size ≤ s.limit then s.act (s.disk.write p bytes)
      else (.error (.other "File too large (os error 27)"),
        (s.act (s.disk.write p (bytes.extract 0 s.limit))).2) :=
  rfl

theorem lawful : view.Lawful where
  size _ s := .refl s
  read _ s := .refl s
  isDir _ s := .refl s
  makeDir p s := sameOutside_view (Disk.Keeps.makeDir p s.disk rfl)
  write p bytes s := by
    have hwrite := fun bytes => sameOutside_view
      (@Disk.Keeps.write _ (· = view.locate s p) p rfl bytes s.disk rfl)
    rw [run_write]
    split
    · exact hwrite bytes
    · exact hwrite (bytes.extract 0 s.limit)
  read_eq_ok := by
    intro p s bytes h
    have hread : (if Disk.locate s.disk.current p ∈ s.unreadable then
        .error (.other "Permission denied (os error 13)") else s.disk.read p) = .ok bytes := h
    split at hread
    · cases hread
    · exact (Disk.read_eq_ok_iff.mp hread).2
  write_eq_ok := by
    intro p bytes s s' h
    rw [run_write] at h
    split at h
    · obtain ⟨hok, rfl⟩ := Prod.mk.inj h
      exact Disk.lawful.write_eq_ok (Prod.ext hok rfl)
    · cases h

end Frail

/-- A disk with two files in a directory for output. -/
def shelf : Disk where
  nodes := [(["out"], .dir), (["out", "a"], .file "2".toUTF8), (["out", "b"], .file "0".toUTF8)]

/-- The same with faults. -/
def attic : Frail := { disk := shelf, unreadable := [["out", "a"]], limit := 2 }

/-- A new file in a new directory, and two that are in place. -/
def supplies : List Artifact := [⟨⟨"x/c"⟩, "1"⟩, ⟨⟨"a"⟩, "2"⟩, ⟨⟨"b"⟩, "0"⟩]

/-- The second file is too long. -/
def surplus : List Artifact := [⟨⟨"x/c"⟩, "1"⟩, ⟨⟨"a"⟩, "333"⟩, ⟨⟨"b"⟩, "4"⟩]

/-- Two files that are in place, by paths that leave a missing directory. -/
def detours : List Artifact := [⟨⟨"x/../a"⟩, "2"⟩, ⟨⟨"x/../b"⟩, "0"⟩]

end Sample

namespace Output

open Sample

/-- The file that cannot be read is written although it is in place. The one that is too long is cut
off, and the one after it stays as it was. -/
theorem attic_outcome :
    (Frail.view.targets attic ⟨"out"⟩ supplies).Nodup ∧
      (∃ s', run attic (writeAll ⟨"out"⟩ supplies) = (.ok ⟨[⟨"x/c"⟩, ⟨"a"⟩], [⟨"b"⟩]⟩, s') ∧
        Completed Frail.view ⟨"out"⟩ supplies attic s' ⟨[⟨"x/c"⟩, ⟨"a"⟩], [⟨"b"⟩]⟩) ∧
      (Frail.view.targets attic ⟨"out"⟩ surplus).Nodup ∧
      ∃ e s', run attic (writeAll ⟨"out"⟩ surplus) = (.error e, s') ∧
        s'.disk.file? ["out", "a"] = some "33".toUTF8 ∧
        ∃ before a after, surplus = before ++ a :: after ∧
          Stopped Frail.view ⟨"out"⟩ before a after attic s' := by
  have hsupplies : (Frail.view.targets attic ⟨"out"⟩ supplies).Nodup := by decide
  have hsurplus : (Frail.view.targets attic ⟨"out"⟩ surplus).Nodup := by decide
  have hsummary : (run attic (writeAll ⟨"out"⟩ supplies)).1.toOption =
      some ⟨[⟨"x/c"⟩, ⟨"a"⟩], [⟨"b"⟩]⟩ := by
    decide +kernel
  have hfails : (run attic (writeAll ⟨"out"⟩ surplus)).1.toOption = none := by decide +kernel
  have hfile : (run attic (writeAll ⟨"out"⟩ surplus)).2.disk.file? ["out", "a"] =
      some "33".toUTF8 := by
    decide +kernel
  refine ⟨hsupplies, ?_, hsurplus, ?_⟩
  · rcases hrun : run attic (writeAll ⟨"out"⟩ supplies) with ⟨_ | summary, s'⟩ <;>
      rw [hrun] at hsummary <;> cases hsummary
    exact ⟨s', rfl, (writeAll_outcome Frail.lawful hsupplies).1 _ s' hrun⟩
  · rcases hrun : run attic (writeAll ⟨"out"⟩ surplus) with ⟨e | summary, s'⟩ <;>
      rw [hrun] at hfails hfile
    · obtain ⟨before, a, after, -, -, heq, -, -, hstopped⟩ :=
        (writeAll_outcome Frail.lawful hsurplus).2 e s' hrun
      exact ⟨e, s', rfl, hfile, before, a, after, heq, hstopped⟩
    · cases hfails

/-- Both files are in place, and neither path can be followed before the run. The first one is
written all the same, which makes the missing directory, and so the second one is left alone. -/
theorem detours_differ :
    (Disk.view.targets shelf ⟨"out"⟩ detours).Nodup ∧
      (∀ a ∈ detours, Disk.view.HasArtifact shelf ⟨"out"⟩ a ∧
        canRead shelf (Path.join ⟨"out"⟩ a.path) = false) ∧
      (run shelf (writeAll ⟨"out"⟩ detours)).1.toOption =
        some ⟨[⟨"x/../a"⟩], [⟨"x/../b"⟩]⟩ :=
  ⟨by decide, by decide +kernel, by decide +kernel⟩

end Output

end IdlBinder

import IdlBinder.Idl.Encode
import IdlBinder.Proofs.LiteralType
import IdlBinder.Proofs.Rendering
import Mathlib.Logic.Hydra

set_option autoImplicit false

/-!
# References replaced by values

A reference stands for the value of the constant that it names. `Unfolds` puts one such value in the
place of one reference, and `Literal.expand` does so for all references of a literal, in rounds. In
constants that can be defined, references only look back. So there is nothing left to replace in the
end, wherever one begins, and the end is always the same; and since a reference has the very type of
its constant, the literals stay acceptable: `references_expand`.
-/

namespace IdlBinder

open Traversal Relation

/-! ## Replacing references -/

namespace Literal

mutual

/-- The names that a literal refers to, from left to right. -/
def references : Literal → List String
  | constRef target => [target]
  | record entries => referencesAll entries
  | int _ | float _ | bool _ | string _ | enumOption _ => []

/-- The names that the values of a record literal refer to. -/
def referencesAll : List (String × Literal) → List String
  | [] => []
  | (_, v) :: rest => v.references ++ referencesAll rest

end

mutual

/-- A literal with a literal in the place of each reference. -/
def replace (values : String → Literal) : Literal → Literal
  | constRef target => values target
  | record entries => record (replaceAll values entries)
  | v => v

/-- The entries of a record literal with a literal in the place of each reference. -/
def replaceAll (values : String → Literal) : List (String × Literal) → List (String × Literal)
  | [] => []
  | (name, v) :: rest => (name, v.replace values) :: replaceAll values rest

end

theorem referencesAll_eq (entries : List (String × Literal)) :
    referencesAll entries = entries.flatMap (·.2.references) := by
  induction entries with
  | nil => rfl
  | cons p entries ih => rw [referencesAll, ih, List.flatMap_cons]

theorem replaceAll_eq (values : String → Literal) (entries : List (String × Literal)) :
    replaceAll values entries = entries.map fun p => (p.1, p.2.replace values) := by
  induction entries with
  | nil => rfl
  | cons p entries ih => rw [replaceAll, ih, List.map_cons]

theorem mem_references_record {target : String} {entries : List (String × Literal)} :
    target ∈ (record entries).references ↔ ∃ p ∈ entries, target ∈ p.2.references := by
  rw [references, referencesAll_eq, List.mem_flatMap]

theorem replace_record (values : String → Literal) (entries : List (String × Literal)) :
    (record entries).replace values = record (entries.map fun p => (p.1, p.2.replace values)) := by
  rw [replace, replaceAll_eq]

/-- What is neither a reference nor a record has nothing to replace. -/
theorem replace_of_not_record {values : String → Literal} {v : Literal}
    (hv : ∀ target, v ≠ .constRef target) (hrec : ∀ entries, v ≠ .record entries) :
    v.replace values = v := by
  cases v with
  | constRef target => exact absurd rfl (hv target)
  | record entries => exact absurd rfl (hrec entries)
  | _ => simp only [replace]

theorem references_of_not_record {v : Literal} (hv : ∀ target, v ≠ .constRef target)
    (hrec : ∀ entries, v ≠ .record entries) : v.references = [] := by
  cases v with
  | constRef target => exact absurd rfl (hv target)
  | record entries => exact absurd rfl (hrec entries)
  | _ => simp only [references]

/-- Values that agree on the references of a literal give the same. -/
theorem replace_congr {values values' : String → Literal} {v : Literal}
    (h : ∀ target ∈ v.references, values target = values' target) :
    v.replace values = v.replace values' := by
  induction v using referenceInduction with
  | record entries ih =>
      rw [replace_record, replace_record]
      congr 1
      refine List.map_congr_left fun p hp => ?_
      rw [ih p hp fun target ht => h target (mem_references_record.mpr ⟨p, hp, ht⟩)]
  | constRef target => exact h target (by simp [references])
  | other v hv hrec => rw [replace_of_not_record hv hrec, replace_of_not_record hv hrec]

theorem replace_constRef (v : Literal) : v.replace .constRef = v := by
  induction v using referenceInduction with
  | record entries ih =>
      rw [replace_record]
      congr 1
      refine (List.map_congr_left fun p hp => ?_).trans (List.map_id entries)
      rw [ih p hp]
      rfl
  | constRef target => rfl
  | other v hv hrec => exact replace_of_not_record hv hrec

theorem replace_of_references_eq_nil {values : String → Literal} {v : Literal}
    (h : v.references = []) : v.replace values = v := by
  have hsame : v.replace values = v.replace .constRef := replace_congr (by simp [h])
  rw [hsame, replace_constRef]

/-- The references after a replacement are those of the values. -/
theorem mem_references_replace {values : String → Literal} {v : Literal} {target : String} :
    target ∈ (v.replace values).references ↔
      ∃ name ∈ v.references, target ∈ (values name).references := by
  induction v using referenceInduction with
  | record entries ih =>
      rw [replace_record, mem_references_record]
      simp only [mem_references_record, List.mem_map, exists_exists_and_eq_and]
      constructor
      · rintro ⟨p, hp, htarget⟩
        obtain ⟨name, hname, hvalue⟩ := (ih p hp).mp htarget
        exact ⟨name, ⟨p, hp, hname⟩, hvalue⟩
      · rintro ⟨name, ⟨p, hp, hname⟩, hvalue⟩
        exact ⟨p, hp, (ih p hp).mpr ⟨name, hname, hvalue⟩⟩
  | constRef name => simp [replace, references]
  | other v hv hrec => simp [replace_of_not_record hv hrec, references_of_not_record hv hrec]

end Literal

/-! ## The constants that are named -/

/-- The position of the first constant of a name; beyond the end if there is none. -/
def position (consts : List Const) (name : String) : Nat := consts.findIdx (·.name == name)

/-- The value of the first constant of a name. A name without a constant stays as it is. -/
def valueOf (consts : List Const) (name : String) : Literal :=
  match consts[position consts name]? with
  | some c => c.value
  | none => .constRef name

theorem firstNamed_iff_position {consts : List Const} {name : String} {i : Nat} {c : Const} :
    FirstNamed consts name i c ↔ i = position consts name ∧ consts[i]? = some c := by
  constructor
  · rintro ⟨before, after, rfl, rfl, rfl, hbefore⟩
    refine ⟨?_, by simp⟩
    have hnone : before.findIdx (·.name == c.name) = before.length :=
      List.findIdx_eq_length.mpr (by simpa using hbefore)
    have hhead : (c :: after).findIdx (·.name == c.name) = 0 := by simp [List.findIdx_cons]
    rw [position, List.findIdx_append, hnone, hhead]
    simp
  · rintro ⟨rfl, hc⟩
    obtain ⟨hlt, rfl⟩ := List.getElem?_eq_some_iff.mp hc
    refine ⟨consts.take (position consts name), consts.drop (position consts name + 1),
      ?_, ?_, ?_, ?_⟩
    · rw [← List.drop_eq_getElem_cons hlt, List.take_append_drop]
    · simp [hlt.le]
    · have hnamed : (consts[position consts name].name == name) = true :=
        List.findIdx_getElem (w := hlt)
      simpa using hnamed
    · intro b hb
      obtain ⟨j, hj, rfl⟩ := List.mem_take_iff_getElem.mp hb
      have hlt : j < consts.findIdx (·.name == name) := by
        rw [position] at hj
        omega
      simpa using List.not_of_lt_findIdx hlt

theorem valueOf_eq {consts : List Const} {name : String} {i : Nat} {c : Const}
    (h : FirstNamed consts name i c) : valueOf consts name = c.value := by
  obtain ⟨rfl, hc⟩ := firstNamed_iff_position.mp h
  rw [valueOf, hc]

/-- All references of a literal are to constants before a position. -/
def RefersBelow (consts : List Const) (bound : Nat) (v : Literal) : Prop :=
  ∀ target ∈ v.references, ∃ i c, FirstNamed consts target i c ∧ i < bound

theorem RefersBelow.mono {consts : List Const} {k n : Nat} {v : Literal}
    (h : RefersBelow consts k v) (hle : k ≤ n) : RefersBelow consts n v := by
  intro target htarget
  obtain ⟨i, c, hfirst, hlt⟩ := h target htarget
  exact ⟨i, c, hfirst, by omega⟩

/-- The references of every constant are to constants before it. -/
def ReferBack (consts : List Const) : Prop :=
  ∀ (i : Nat) c, consts[i]? = some c → RefersBelow consts i c.value

theorem ReferBack.value {consts : List Const} (hback : ReferBack consts) {name : String} {i : Nat}
    {c : Const} (h : FirstNamed consts name i c) : RefersBelow consts i c.value :=
  hback i c (firstNamed_iff_position.mp h).2

/-! ## Round after round -/

/-- A literal with all references replaced by values, round after round. -/
def Literal.expand (consts : List Const) (v : Literal) : Literal :=
  (Literal.replace (valueOf consts))^[consts.length] v

section Rounds

variable {consts : List Const} (hback : ReferBack consts)
include hback

/-- A round brings the references down by a position. -/
theorem RefersBelow.replace {k : Nat} {v : Literal} (h : RefersBelow consts (k + 1) v) :
    RefersBelow consts k (v.replace (valueOf consts)) := by
  intro target htarget
  obtain ⟨name, hname, hvalue⟩ := Literal.mem_references_replace.mp htarget
  obtain ⟨i, c, hfirst, hlt⟩ := h name hname
  rw [valueOf_eq hfirst] at hvalue
  exact (hback.value hfirst).mono (by omega) target hvalue

/-- As many rounds as there are positions to refer to leave no reference. -/
theorem RefersBelow.references_iterate {k : Nat} {v : Literal} (h : RefersBelow consts k v) :
    ((Literal.replace (valueOf consts))^[k] v).references = [] := by
  induction k generalizing v with
  | zero =>
      refine List.eq_nil_iff_forall_not_mem.mpr fun target htarget => ?_
      obtain ⟨i, _, -, hlt⟩ := h target htarget
      omega
  | succ k ih => exact ih (h.replace hback)

end Rounds

theorem Literal.expand_of_references_eq_nil {consts : List Const} {v : Literal}
    (h : v.references = []) : v.expand consts = v :=
  Function.iterate_fixed (replace_of_references_eq_nil h) _

theorem Literal.iterate_replace_record (values : String → Literal) (n : Nat)
    (entries : List (String × Literal)) :
    (replace values)^[n] (.record entries) =
      .record (entries.map fun p => (p.1, (replace values)^[n] p.2)) := by
  induction n generalizing entries with
  | zero => simp
  | succ n ih =>
      rw [Function.iterate_succ_apply, replace_record, ih, List.map_map]
      rfl

/-! ## One reference at a time -/

/-- The value of a constant is put in the place of one reference to it. -/
inductive Unfolds (consts : List Const) : Literal → Literal → Prop where
  | reference {target : String} {i : Nat} {c : Const} : FirstNamed consts target i c →
      Unfolds consts (.constRef target) c.value
  | entry {before after : List (String × Literal)} {name : String} {v w : Literal} :
      Unfolds consts v w →
      Unfolds consts (.record (before ++ (name, v) :: after))
        (.record (before ++ (name, w) :: after))

/-- The positions that a literal refers to. -/
def positions (consts : List Const) (v : Literal) : Multiset Nat :=
  (v.references.map (position consts) : List Nat)

theorem positions_record (consts : List Const) (before after : List (String × Literal))
    (name : String) (v : Literal) :
    positions consts (.record (before ++ (name, v) :: after)) =
      positions consts (.record before) +
        (positions consts v + positions consts (.record after)) := by
  simp [positions, Literal.references, Literal.referencesAll_eq]

/-- Where there are references to constants, one of them can be replaced. -/
theorem RefersBelow.exists_unfolds {consts : List Const} {k : Nat} {v : Literal}
    (h : RefersBelow consts k v) (hv : v.references ≠ []) : ∃ w, Unfolds consts v w := by
  induction v using Literal.referenceInduction with
  | record entries ih =>
      obtain ⟨target, htarget⟩ := List.exists_mem_of_ne_nil _ hv
      obtain ⟨p, hp, hin⟩ := Literal.mem_references_record.mp htarget
      have hbelow : RefersBelow consts k p.2 := fun name hname =>
        h name (Literal.mem_references_record.mpr ⟨p, hp, hname⟩)
      obtain ⟨w, hw⟩ := ih p hp hbelow (List.ne_nil_of_mem hin)
      obtain ⟨before, after, rfl⟩ := List.append_of_mem hp
      exact ⟨_, .entry hw⟩
  | constRef target =>
      obtain ⟨i, c, hfirst, -⟩ := h target (by simp [Literal.references])
      exact ⟨c.value, .reference hfirst⟩
  | other v hconst hrec => exact absurd (Literal.references_of_not_record hconst hrec) hv

section Steps

variable {consts : List Const} (hback : ReferBack consts)
include hback

/-- One position is replaced by positions before it. -/
theorem cutExpand_of_unfolds {v w : Literal} (h : Unfolds consts v w) :
    CutExpand (· < ·) (positions consts w) (positions consts v) := by
  induction h with
  | @reference target i c hfirst =>
      obtain ⟨rfl, -⟩ := firstNamed_iff_position.mp hfirst
      refine cutExpand_singleton fun p hp => ?_
      obtain ⟨name, hname, rfl⟩ := List.mem_map.mp (Multiset.mem_coe.mp hp)
      obtain ⟨j, k, hfirst', hlt⟩ := hback.value hfirst name hname
      rwa [← (firstNamed_iff_position.mp hfirst').1]
  | entry _ ih =>
      rw [positions_record, positions_record]
      exact (cutExpand_add_left _).mpr ((cutExpand_add_right _).mpr ih)

theorem wellFounded_unfolds : WellFounded fun w v => Unfolds consts v w := by
  have hpositions : WellFounded (InvImage (CutExpand (· < ·)) (positions consts)) :=
    InvImage.wf _ Nat.lt_wfRel.wf.cutExpand
  exact Subrelation.wf (fun h => cutExpand_of_unfolds hback h) hpositions

theorem RefersBelow.of_unfolds {k : Nat} {v w : Literal} (h : RefersBelow consts k v)
    (hstep : Unfolds consts v w) : RefersBelow consts k w := by
  induction hstep with
  | @reference target i c hfirst =>
      obtain ⟨j, c', hfirst', hlt⟩ := h target (by simp [Literal.references])
      obtain rfl : i = j :=
        (firstNamed_iff_position.mp hfirst).1.trans (firstNamed_iff_position.mp hfirst').1.symm
      exact (hback.value hfirst).mono hlt.le
  | @entry before after name v w _ ih =>
      have hmem : ∀ {u : Literal} {target : String},
          target ∈ (Literal.record (before ++ (name, u) :: after)).references ↔
            target ∈ (Literal.record before).references ∨ target ∈ u.references ∨
              target ∈ (Literal.record after).references := by
        intro u target
        simp [Literal.references, Literal.referencesAll_eq]
      intro target htarget
      rcases hmem.mp htarget with hin | hin | hin
      · exact h target (hmem.mpr (Or.inl hin))
      · exact ih (fun t ht => h t (hmem.mpr (Or.inr (Or.inl ht)))) target hin
      · exact h target (hmem.mpr (Or.inr (Or.inr hin)))

/-- It makes no difference which reference is replaced first. -/
theorem expand_eq_of_unfolds {v w : Literal} (h : Unfolds consts v w) :
    v.expand consts = w.expand consts := by
  induction h with
  | @reference target i c hfirst =>
      obtain ⟨m, hm⟩ : ∃ m, consts.length = m + 1 := by
        obtain ⟨before, after, rfl, -⟩ := hfirst
        exact ⟨before.length + after.length, by simp [Nat.add_assoc]⟩
      have hlt : i < consts.length :=
        (List.getElem?_eq_some_iff.mp (firstNamed_iff_position.mp hfirst).2).1
      -- One round gives the value, and the rounds that remain are enough for it.
      have hclosed := ((hback.value hfirst).mono (show i ≤ m by omega)).references_iterate hback
      rw [Literal.expand, Literal.expand, hm, Function.iterate_succ_apply, Literal.replace,
        valueOf_eq hfirst, Function.iterate_succ_apply',
        Literal.replace_of_references_eq_nil hclosed]
  | entry _ ih =>
      unfold Literal.expand at ih ⊢
      rw [Literal.iterate_replace_record, Literal.iterate_replace_record]
      simp only [List.map_append, List.map_cons, ih]

theorem reflTransGen_expand {k : Nat} {v : Literal} (h : RefersBelow consts k v) :
    ReflTransGen (Unfolds consts) v (v.expand consts) := by
  induction v using (wellFounded_unfolds hback).induction with
  | _ v ih =>
      by_cases hv : v.references = []
      · rw [Literal.expand_of_references_eq_nil hv]
      · obtain ⟨w, hw⟩ := h.exists_unfolds hv
        rw [expand_eq_of_unfolds hback hw]
        exact (ih w hw (h.of_unfolds hback hw)).head hw

/-- However far the references of a literal are replaced, one can go on to its expansion. -/
theorem reflTransGen_expand_of_reaches {k : Nat} {v w : Literal} (h : RefersBelow consts k v)
    (hw : ReflTransGen (Unfolds consts) v w) :
    ReflTransGen (Unfolds consts) w (v.expand consts) := by
  have hreached : RefersBelow consts k w ∧ v.expand consts = w.expand consts := by
    induction hw with
    | refl => exact ⟨h, rfl⟩
    | tail _ hstep ih =>
        exact ⟨ih.1.of_unfolds hback hstep, ih.2.trans (expand_eq_of_unfolds hback hstep)⟩
  rw [hreached.2]
  exact reflTransGen_expand hback hreached.1

end Steps

/-! ## What is accepted -/

namespace LiteralContext

/-- A literal is accepted at a type. -/
def Accepts (ctx : LiteralContext) (v : Literal) (t : TypeExpr) : Prop :=
  ∃ i, ctx.elaborate v t = .ok i

variable {ctx ctx' : LiteralContext}

theorem accepts_constRef_iff {target : String} {t : TypeExpr} :
    ctx.Accepts (.constRef target) t ↔
      ∃ position c, FirstNamed ctx.scope.consts target position c ∧ position < ctx.index ∧
        c.type = t := by
  rw [Accepts, elaborate, reference_isOk_iff]

theorem plain_record_ne_ok {entries : List (String × Literal)} {t : TypeExpr} {i : Initializer} :
    ctx.plain (.record entries) t ≠ .ok i := by
  intro h
  unfold plain at h
  split at h
  next p _ => cases p <;> simp [primitive] at h
  next => cases h
  next d _ => obtain ⟨name, _ | _ | _⟩ := d <;> simp at h
  all_goals cases h

/-- A record literal is accepted where a record is asked for, if it has just its fields. -/
theorem accepts_record_iff {entries : List (String × Literal)} {t : TypeExpr} :
    ctx.Accepts (.record entries) t ↔
      ∃ name r, t.core.head = .declared ⟨name, .record⟩ ∧ ctx.registry.record? name = some r ∧
        (∀ key ∈ NameMap.names entries, ∃ f ∈ r.fields, f.name = key) ∧
        ∀ f ∈ r.fields, ∃ v, NameMap.find? f.name entries = some v ∧ ctx.Accepts v f.type := by
  unfold Accepts
  rcases ctx.elaborate_record with ⟨name, hhead, hvalue⟩ | ⟨hhead, hvalue⟩
  · rw [hvalue]
    cases hr : ctx.registry.record? name with
    | none =>
        refine iff_of_false (by simp [construct, hr]) ?_
        rintro ⟨name', r, hhead', hr', -⟩
        cases hhead.symm.trans hhead'
        simp [hr] at hr'
    | some r =>
        rw [construct_isOk_iff hr]
        constructor
        · rintro ⟨hkeys, hfields⟩
          exact ⟨name, r, hhead, hr, hkeys, hfields⟩
        · rintro ⟨name', r', hhead', hr', hkeys, hfields⟩
          cases hhead.symm.trans hhead'
          cases hr.symm.trans hr'
          exact ⟨hkeys, hfields⟩
  · rw [hvalue]
    refine iff_of_false ?_ ?_
    · rintro ⟨i, hi⟩
      exact plain_record_ne_ok hi
    · rintro ⟨name, r, hhead', -⟩
      exact hhead name hhead'

/-- For literals without parts only the declarations matter. -/
theorem isOk_plain_of_registry_eq (hregistry : ctx'.registry = ctx.registry) {v : Literal}
    {t : TypeExpr} (h : ∃ i, ctx.plain v t = .ok i) : ∃ i, ctx'.plain v t = .ok i := by
  obtain ⟨i, hi⟩ := h
  unfold plain at hi ⊢
  split at hi
  next p _ => exact ⟨i, primitive_congr hi⟩
  next => cases hi
  next d _ =>
    split at hi
    next option _ =>
      rw [enumerator] at hi ⊢
      rw [hregistry]
      split at hi
      next hfound => exact ⟨_, if_pos hfound⟩
      next => cases hi
    next => cases hi
    next => cases hi
  all_goals cases hi

/-- A literal stays acceptable when what is put in the place of its references is accepted wherever
the references were. -/
theorem Accepts.replace (hregistry : ctx'.registry = ctx.registry) {values : String → Literal}
    (hvalues : ∀ target t, ctx.Accepts (.constRef target) t → ctx'.Accepts (values target) t)
    {v : Literal} {t : TypeExpr} (h : ctx.Accepts v t) : ctx'.Accepts (v.replace values) t := by
  induction v using Literal.referenceInduction generalizing t with
  | record entries ih =>
      obtain ⟨name, r, hhead, hr, hkeys, hfields⟩ := accepts_record_iff.mp h
      rw [Literal.replace_record]
      refine accepts_record_iff.mpr ⟨name, r, hhead, hregistry ▸ hr, ?_, fun f hf => ?_⟩
      · have hnames : NameMap.names (entries.map fun p => (p.1, p.2.replace values)) =
            NameMap.names entries := by simp [NameMap.names, Function.comp_def]
        rwa [hnames]
      · obtain ⟨v, hfind, hv⟩ := hfields f hf
        refine ⟨v.replace values, ?_, ih (f.name, v) (NameMap.mem_of_find? hfind) hv⟩
        rw [NameMap.find?_map, hfind, Option.map_some]
  | constRef target => exact hvalues target t h
  | other v hv hrec =>
      rw [Literal.replace_of_not_record hv hrec]
      rw [Accepts, elaborate_of_not_record hv hrec] at h ⊢
      exact isOk_plain_of_registry_eq hregistry h

theorem Accepts.mono (hregistry : ctx'.registry = ctx.registry)
    (hrefs : ∀ target t, ctx.Accepts (.constRef target) t → ctx'.Accepts (.constRef target) t)
    {v : Literal} {t : TypeExpr} (h : ctx.Accepts v t) : ctx'.Accepts v t := by
  have hsame := h.replace hregistry hrefs
  rwa [Literal.replace_constRef] at hsame

/-- The references of a literal that is accepted look back. No value can hide behind another of the
same name, since the entries are in order. -/
theorem Accepts.refersBelow {v : Literal} {t : TypeExpr} (h : ctx.Accepts v t)
    (horder : v.InOrder) : RefersBelow ctx.scope.consts ctx.index v := by
  induction v using Literal.referenceInduction generalizing t with
  | record entries ih =>
      obtain ⟨name, r, -, -, hkeys, hfields⟩ := accepts_record_iff.mp h
      cases horder with
      | other hrec => exact absurd rfl (hrec entries)
      | record hordered hvalues =>
          intro target htarget
          obtain ⟨p, hp, hin⟩ := Literal.mem_references_record.mp htarget
          obtain ⟨f, hf, hname⟩ := hkeys p.1 (List.mem_map_of_mem hp)
          obtain ⟨v, hfind, hv⟩ := hfields f hf
          obtain rfl : p = (f.name, v) :=
            eq_of_nodup_map hordered.nodup hp (NameMap.mem_of_find? hfind) hname.symm
          exact ih _ hp hv (hvalues _ hp) target hin
  | constRef target =>
      obtain ⟨i, c, hfirst, hlt, -⟩ := accepts_constRef_iff.mp h
      intro name hname
      obtain rfl : name = target := by simpa [Literal.references] using hname
      exact ⟨i, c, hfirst, hlt⟩
  | other v hv hrec =>
      intro target htarget
      rw [Literal.references_of_not_record hv hrec] at htarget
      cases htarget

end LiteralContext

/-! ## Constants that are accepted -/

namespace Emitter

variable {e : Emitter} {scope : ConstScope}

theorem constDefs_isOk_iff {template : Option Cpp.Template} :
    (∃ defs, e.constDefs scope template = .ok defs) ↔
      ∀ (i : Nat) c, scope.consts[i]? = some c →
        (e.literalContext scope i c.name).Accepts c.value c.type := by
  constructor
  · rintro ⟨defs, hdefs⟩ i c hc
    obtain ⟨value, hvalue, -⟩ := (getElem?_of_constDefs hdefs).2 i c hc
    exact ⟨value, hvalue⟩
  · intro h
    refine mapM_isOk.mpr fun p hp => ?_
    obtain ⟨value, hvalue⟩ := h p.2 p.1 (List.mk_mem_zipIdx_iff_getElem?.mp hp)
    exact map_isOk.mpr ⟨value, hvalue⟩

/-- Further down, no less is accepted. -/
theorem accepts_of_le {i j : Nat} {name name' : String} {v : Literal} {t : TypeExpr} (hle : i ≤ j)
    (h : (e.literalContext scope i name).Accepts v t) :
    (e.literalContext scope j name').Accepts v t := by
  refine h.mono ?_ fun target u hu => ?_
  · rfl
  · obtain ⟨position, c, hfirst, hlt, htype⟩ := LiteralContext.accepts_constRef_iff.mp hu
    exact LiteralContext.accepts_constRef_iff.mpr
      ⟨position, c, hfirst, Nat.lt_of_lt_of_le hlt hle, htype⟩

/-- What is accepted before all constants is accepted everywhere. -/
theorem accepts_of_accepts_zero {scope' : ConstScope} {i : Nat} {name name' : String} {v : Literal}
    {t : TypeExpr} (h : (e.literalContext scope 0 name).Accepts v t) :
    (e.literalContext scope' i name').Accepts v t := by
  refine h.mono ?_ fun target u hu => ?_
  · rfl
  · obtain ⟨position, c, -, hlt, -⟩ := LiteralContext.accepts_constRef_iff.mp hu
    exact absurd hlt (Nat.not_lt_zero position)

section Accepted

variable (hall : ∀ (i : Nat) c, scope.consts[i]? = some c →
  (e.literalContext scope i c.name).Accepts c.value c.type)
include hall

/-- A round leaves a literal acceptable one position up: a reference has the type of its constant,
and the value of that was accepted where the constant stands. -/
theorem accepts_replace {k : Nat} {name : String} {v : Literal} {t : TypeExpr}
    (h : (e.literalContext scope (k + 1) name).Accepts v t) :
    (e.literalContext scope k name).Accepts (v.replace (valueOf scope.consts)) t := by
  refine h.replace ?_ fun target u hu => ?_
  · rfl
  · obtain ⟨position, c, hfirst, hlt, rfl⟩ := LiteralContext.accepts_constRef_iff.mp hu
    have hvalue : valueOf scope.consts target = c.value := valueOf_eq hfirst
    have hle : position ≤ k := Nat.lt_succ_iff.mp hlt
    rw [hvalue]
    exact accepts_of_le hle (hall position c (firstNamed_iff_position.mp hfirst).2)

theorem accepts_iterate {k : Nat} {name : String} {v : Literal} {t : TypeExpr}
    (h : (e.literalContext scope k name).Accepts v t) :
    (e.literalContext scope 0 name).Accepts ((Literal.replace (valueOf scope.consts))^[k] v) t := by
  induction k generalizing v with
  | zero => exact h
  | succ k ih => exact ih (accepts_replace hall h)

theorem referBack (horder : ∀ c ∈ scope.consts, c.value.InOrder) : ReferBack scope.consts :=
  fun i c hc => (hall i c hc).refersBelow (horder c (List.mem_of_getElem? hc))

end Accepted

end Emitter

/-- The constants of a list with their values expanded. -/
def expanded (consts : List Const) : List Const :=
  consts.map fun c => { c with value := c.value.expand consts }

/-- In constants that can be defined, references can be replaced by values in any order: this comes
to an end, and the end is the expansion of the literal, which has no references. The constants can
be defined just as well with the expansions in the place of the literals. -/
theorem references_expand (e : Emitter) (scope : ConstScope) (template : Option Cpp.Template)
    {defs : List Cpp.ConstDef} (horder : ∀ c ∈ scope.consts, c.value.InOrder)
    (h : e.constDefs scope template = .ok defs) :
    (WellFounded fun w v => Unfolds scope.consts v w) ∧
    (∀ c ∈ scope.consts, (c.value.expand scope.consts).references = [] ∧
      ∀ w, ReflTransGen (Unfolds scope.consts) c.value w →
        ReflTransGen (Unfolds scope.consts) w (c.value.expand scope.consts)) ∧
    ∃ defs', e.constDefs { scope with consts := expanded scope.consts } template =
      .ok defs' := by
  have hall := Emitter.constDefs_isOk_iff.mp ⟨defs, h⟩
  have hback := Emitter.referBack hall horder
  have hle : ∀ (i : Nat) c, scope.consts[i]? = some c → i ≤ scope.consts.length :=
    fun i c hc => (List.getElem?_eq_some_iff.mp hc).1.le
  refine ⟨wellFounded_unfolds hback, fun c hc => ?_, ?_⟩
  · obtain ⟨i, hi⟩ := List.mem_iff_getElem?.mp hc
    have hbelow := (hback i c hi).mono (hle i c hi)
    exact ⟨hbelow.references_iterate hback, fun w hw =>
      reflTransGen_expand_of_reaches hback hbelow hw⟩
  · refine Emitter.constDefs_isOk_iff.mpr fun i c' hc' => ?_
    obtain ⟨c, hc, rfl⟩ : ∃ c, scope.consts[i]? = some c ∧
        { c with value := c.value.expand scope.consts } = c' := by
      simpa [expanded] using hc'
    have hlast : (e.literalContext scope scope.consts.length c.name).Accepts c.value c.type :=
      Emitter.accepts_of_le (hle i c hc) (hall i c hc)
    exact Emitter.accepts_of_accepts_zero (Emitter.accepts_iterate hall hlast)

namespace Sample

/-- A constant that is another one, which refers to a third. -/
def copy : Const := ⟨"copy", [], .node (.declared ⟨"line", .record⟩) [], .constRef "axis"⟩

def chain : ConstScope := ⟨"line", "Line", [origin, axis, copy]⟩

end Sample

open Sample in
theorem copy_expands :
    (∀ c ∈ chain.consts, c.value.InOrder) ∧ (∃ defs, emitter.constDefs chain none = .ok defs) ∧
      copy.value.expand chain.consts = .record [("start", origin.value),
        ("stop", .record [("size", .int 2), ("tint", .enumOption "green")])] ∧
      ReflTransGen (Unfolds chain.consts) copy.value (copy.value.expand chain.consts) ∧
      ∃ defs, emitter.constDefs { chain with consts := expanded chain.consts } none = .ok defs := by
  -- The literals are in order since they can be read.
  have horder : ∀ c ∈ chain.consts, c.value.InOrder := by
    intro c hc
    have hread : Decode.literal 8 (Encode.literal c.value) = some c.value := by
      simp only [chain, List.mem_cons, List.not_mem_nil, or_false] at hc
      rcases hc with rfl | rfl | rfl <;> rfl
    exact Decode.inOrder_of_literal hread
  have hdefs : ∃ defs, emitter.constDefs chain none = .ok defs := ⟨_, rfl⟩
  obtain ⟨defs, hdefs'⟩ := hdefs
  obtain ⟨-, hvalues, haccepted⟩ := references_expand emitter chain none horder hdefs'
  have hcopy : copy ∈ chain.consts := by simp [chain]
  exact ⟨horder, ⟨defs, hdefs'⟩, rfl, (hvalues copy hcopy).2 _ .refl, haccepted⟩

end IdlBinder

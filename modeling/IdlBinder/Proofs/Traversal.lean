set_option autoImplicit false

/-!
# Traversals that stop at the first failure

A computation in `Except` that walks over a list either gets through it or stops at one element, and
what comes after that element has no say. The lemmas here cut the list at that element.
-/

namespace IdlBinder.Traversal

variable {ε α β σ : Type}

/-! ## One step -/

theorem bind_eq_ok {x : Except ε α} {f : α → Except ε β} {b : β} :
    (x >>= f) = .ok b ↔ ∃ a, x = .ok a ∧ f a = .ok b := by
  cases x with
  | error e => simp [bind, Except.bind]
  | ok a => simp [bind, Except.bind]

theorem bind_eq_error {x : Except ε α} {f : α → Except ε β} {e : ε} :
    (x >>= f) = .error e ↔ x = .error e ∨ ∃ a, x = .ok a ∧ f a = .error e := by
  cases x with
  | error e' => simp [bind, Except.bind]
  | ok a => simp [bind, Except.bind]

theorem map_eq_ok {x : Except ε α} {f : α → β} {b : β} :
    x.map f = .ok b ↔ ∃ a, x = .ok a ∧ f a = b := by
  cases x with
  | error e => simp [Except.map]
  | ok a => simp [Except.map]

theorem map_isOk {x : Except ε α} {f : α → β} : (∃ b, x.map f = .ok b) ↔ ∃ a, x = .ok a := by
  cases x with
  | error e => simp [Except.map]
  | ok a => simp [Except.map]

theorem map_eq_error {x : Except ε α} {f : α → β} {e : ε} :
    x.map f = .error e ↔ x = .error e := by
  cases x with
  | error e' => simp [Except.map]
  | ok a => simp [Except.map]

theorem toOption_map_eq_some {x : Except ε α} {f : α → β} {b : β} :
    x.toOption.map f = some b ↔ ∃ a, x = .ok a ∧ f a = b := by
  cases x with
  | error e => simp [Except.toOption]
  | ok a => simp [Except.toOption]

/-! ## Folds -/

/-- A fold fails with what some element fails with, in the state that the elements before it lead
to. -/
theorem foldlM_eq_error {f : σ → α → Except ε σ} {l : List α} {s : σ} {e : ε} :
    l.foldlM f s = .error e ↔
      ∃ before x after t, l = before ++ x :: after ∧ before.foldlM f s = .ok t ∧
        f t x = .error e := by
  constructor
  · intro h
    induction l generalizing s with
    | nil => cases h
    | cons y l ih =>
        rw [List.foldlM_cons, bind_eq_error] at h
        rcases h with hy | ⟨t, hy, hl⟩
        · exact ⟨[], y, l, s, rfl, rfl, hy⟩
        · obtain ⟨before, x, after, u, rfl, hbefore, hx⟩ := ih hl
          refine ⟨y :: before, x, after, u, rfl, ?_, hx⟩
          rw [List.foldlM_cons, bind_eq_ok]
          exact ⟨t, hy, hbefore⟩
  · rintro ⟨before, x, after, t, rfl, hbefore, hx⟩
    rw [List.foldlM_append, bind_eq_error]
    refine Or.inr ⟨t, hbefore, ?_⟩
    rw [List.foldlM_cons, bind_eq_error]
    exact Or.inl hx

/-! ## Elements one by one -/

theorem forM_eq_ok {f : α → Except ε PUnit} {l : List α} :
    l.forM f = .ok () ↔ ∀ x ∈ l, f x = .ok () := by
  induction l with
  | nil => simp [List.forM, pure, Except.pure]
  | cons y l ih =>
      show (f y >>= fun _ => l.forM f) = .ok () ↔ _
      rw [bind_eq_ok, List.forall_mem_cons, ← ih]
      constructor
      · rintro ⟨⟨⟩, hy, hl⟩
        exact ⟨hy, hl⟩
      · rintro ⟨hy, hl⟩
        exact ⟨(), hy, hl⟩

theorem forM_eq_error {f : α → Except ε PUnit} {l : List α} {e : ε} :
    l.forM f = .error e ↔
      ∃ before x after, l = before ++ x :: after ∧ (∀ b ∈ before, f b = .ok ()) ∧
        f x = .error e := by
  constructor
  · intro h
    induction l with
    | nil => cases h
    | cons y l ih =>
        have h : (f y >>= fun _ => l.forM f) = .error e := h
        rw [bind_eq_error] at h
        rcases h with hy | ⟨⟨⟩, hy, hl⟩
        · exact ⟨[], y, l, rfl, by simp, hy⟩
        · obtain ⟨before, x, after, rfl, hbefore, hx⟩ := ih hl
          exact ⟨y :: before, x, after, rfl, List.forall_mem_cons.mpr ⟨hy, hbefore⟩, hx⟩
  · rintro ⟨before, x, after, rfl, hbefore, hx⟩
    induction before with
    | nil =>
        show (f x >>= fun _ => after.forM f) = .error e
        exact bind_eq_error.mpr (Or.inl hx)
    | cons y before ih =>
        obtain ⟨hy, hbefore⟩ := List.forall_mem_cons.mp hbefore
        show (f y >>= fun _ => (before ++ x :: after).forM f) = .error e
        exact bind_eq_error.mpr (Or.inr ⟨(), hy, ih hbefore⟩)

theorem forM_congr {f g : α → Except ε PUnit} {l : List α} (h : ∀ x ∈ l, f x = g x) :
    l.forM f = l.forM g := by
  induction l with
  | nil => rfl
  | cons x l ih =>
      obtain ⟨hx, hl⟩ := List.forall_mem_cons.mp h
      show (f x >>= fun _ => l.forM f) = (g x >>= fun _ => l.forM g)
      rw [hx, ih hl]

theorem forM_map {f : α → Except ε PUnit} {g : β → α} {l : List β} :
    (l.map g).forM f = l.forM fun b => f (g b) :=
  List.forM_map

/-- A walk within a walk is one walk. -/
theorem forM_flatMap {f : α → Except ε PUnit} {g : β → List α} {l : List β} :
    (l.flatMap g).forM f = l.forM fun b => (g b).forM f := by
  induction l with
  | nil => rfl
  | cons b l ih =>
      show _ = ((g b).forM f >>= fun _ => l.forM fun b => (g b).forM f)
      rw [List.flatMap_cons, ← ih]
      exact List.forM_append

/-- A map gets through a list when it gets through every element. -/
theorem mapM_isOk {f : α → Except ε β} {l : List α} :
    (∃ bs, l.mapM f = .ok bs) ↔ ∀ x ∈ l, ∃ b, f x = .ok b := by
  induction l with
  | nil => simp [pure, Except.pure]
  | cons y l ih =>
      rw [List.mapM_cons, List.forall_mem_cons, ← ih]
      constructor
      · rintro ⟨cs, h⟩
        obtain ⟨b, hb, h⟩ := bind_eq_ok.mp h
        obtain ⟨bs, hbs, -⟩ := bind_eq_ok.mp h
        exact ⟨⟨b, hb⟩, ⟨bs, hbs⟩⟩
      · rintro ⟨⟨b, hb⟩, ⟨bs, hbs⟩⟩
        exact ⟨b :: bs, bind_eq_ok.mpr ⟨b, hb, bind_eq_ok.mpr ⟨bs, hbs, rfl⟩⟩⟩

/-- A map over keys whose values are known. -/
theorem mapM_map_eq_ok {γ : Type} {f : α → Except ε β} {l : List γ} {key : γ → α} {val : γ → β}
    (h : ∀ c ∈ l, f (key c) = .ok (val c)) : (l.map key).mapM f = .ok (l.map val) := by
  induction l with
  | nil => rfl
  | cons c l ih =>
      obtain ⟨hc, hl⟩ := List.forall_mem_cons.mp h
      rw [List.map_cons, List.mapM_cons, hc, ih hl]
      rfl

/-- What a map yields stands where its element stood. -/
theorem getElem?_of_mapM_eq_ok {f : α → Except ε β} {l : List α} {bs : List β}
    (h : l.mapM f = .ok bs) :
    bs.length = l.length ∧
      ∀ (i : Nat) (x : α), l[i]? = some x → ∃ b, bs[i]? = some b ∧ f x = .ok b := by
  induction l generalizing bs with
  | nil =>
      cases h
      simp
  | cons y l ih =>
      rw [List.mapM_cons] at h
      obtain ⟨b, hb, h⟩ := bind_eq_ok.mp h
      obtain ⟨bs', hbs, h⟩ := bind_eq_ok.mp h
      cases h
      obtain ⟨hlength, hvalues⟩ := ih hbs
      refine ⟨by simp [hlength], fun i x hx => ?_⟩
      cases i with
      | zero =>
          obtain rfl : y = x := by simpa using hx
          exact ⟨b, rfl, hb⟩
      | succ i =>
          obtain ⟨b', hb', hx'⟩ := hvalues i x (by simpa using hx)
          exact ⟨b', by simpa using hb', hx'⟩

/-- Maps that yield the same for every element yield the same. -/
theorem eq_of_mapM_eq_ok {f g : α → Except ε β} {l : List α} {bs cs : List β}
    (hf : l.mapM f = .ok bs) (hg : l.mapM g = .ok cs)
    (h : ∀ x ∈ l, ∀ b c, f x = .ok b → g x = .ok c → b = c) : bs = cs := by
  obtain ⟨hbs, hb⟩ := getElem?_of_mapM_eq_ok hf
  obtain ⟨hcs, hc⟩ := getElem?_of_mapM_eq_ok hg
  refine List.ext_getElem? fun i => ?_
  cases hx : l[i]? with
  | none =>
      rw [List.getElem?_eq_none_iff] at hx
      rw [List.getElem?_eq_none (by omega), List.getElem?_eq_none (by omega)]
  | some x =>
      obtain ⟨b, hb, hfx⟩ := hb i x hx
      obtain ⟨c, hc, hgx⟩ := hc i x hx
      rw [hb, hc, h x (List.mem_of_getElem? hx) b c hfx hgx]

theorem exists_of_mapM_eq_error {f : α → Except ε β} {l : List α} {e : ε}
    (h : l.mapM f = .error e) : ∃ x ∈ l, f x = .error e := by
  induction l with
  | nil => cases h
  | cons y l ih =>
      rw [List.mapM_cons, bind_eq_error] at h
      rcases h with hy | ⟨b, -, h⟩
      · exact ⟨y, by simp, hy⟩
      · rcases bind_eq_error.mp h with hl | ⟨bs, -, h⟩
        · obtain ⟨x, hx, he⟩ := ih hl
          exact ⟨x, List.mem_cons_of_mem y hx, he⟩
        · cases h

/-! ## What a traversal adds at the end -/

/-- One more element keeps keys apart exactly when its key is new. -/
theorem nodup_map_snoc {key : α → β} {l : List α} {x : α} :
    ((l ++ [x]).map key).Nodup ↔ key x ∉ l.map key ∧ (l.map key).Nodup := by
  rw [List.map_append, List.nodup_append]
  constructor
  · rintro ⟨hnodup, -, hapart⟩
    exact ⟨fun hmem => hapart _ hmem _ (by simp) rfl, hnodup⟩
  · rintro ⟨hnew, hnodup⟩
    refine ⟨hnodup, by simp, ?_⟩
    rintro k hk _ hlast rfl
    rw [List.map_cons, List.map_nil, List.mem_singleton] at hlast
    exact hnew (hlast ▸ hk)

/-- Where keys are apart, elements with one key are equal. -/
theorem eq_of_nodup_map {key : α → β} {l : List α} (h : (l.map key).Nodup) {x y : α}
    (hx : x ∈ l) (hy : y ∈ l) (hkey : key x = key y) : x = y := by
  induction l with
  | nil => cases hx
  | cons z l ih =>
      rw [List.map_cons, List.nodup_cons] at h
      rw [List.mem_cons] at hx hy
      rcases hx with rfl | hx <;> rcases hy with rfl | hy
      · rfl
      · exact absurd (hkey ▸ List.mem_map_of_mem hy) h.1
      · exact absurd (hkey ▸ List.mem_map_of_mem hx) h.1
      · exact ih h.2 hx hy

/-! ## Two computations side by side -/

/-- Two computations fail alike, or both get through, with results that are related. -/
inductive Alike (R : α → β → Prop) : Except ε α → Except ε β → Prop where
  | error (e : ε) : Alike R (.error e) (.error e)
  | ok {a : α} {b : β} (h : R a b) : Alike R (.ok a) (.ok b)

namespace Alike

variable {γ δ : Type} {R : α → β → Prop} {S : γ → δ → Prop}

theorem of_eq {x y : Except ε α} (h : x = y) : Alike (fun _ _ => True) x y := by
  subst h
  cases x with
  | error e => exact .error e
  | ok a => exact .ok trivial

theorem error_iff {x : Except ε α} {y : Except ε β} (h : Alike R x y) {e : ε} :
    x = .error e ↔ y = .error e := by
  cases h with
  | error e' => simp
  | ok h => simp

theorem bind {x : Except ε α} {y : Except ε β} {f : α → Except ε γ} {g : β → Except ε δ}
    (h : Alike R x y) (hstep : ∀ a b, R a b → Alike S (f a) (g b)) :
    Alike S (x >>= f) (y >>= g) := by
  cases h with
  | error e => exact .error e
  | ok h => exact hstep _ _ h

theorem map {x : Except ε α} {y : Except ε β} {f : α → γ} {g : β → δ} (h : Alike R x y)
    (hmap : ∀ a b, R a b → S (f a) (g b)) : Alike S (x.map f) (y.map g) := by
  cases h with
  | error e => exact .error e
  | ok h => exact .ok (hmap _ _ h)

theorem mapM {f : γ → Except ε α} {g : γ → Except ε β} {l : List γ}
    (h : ∀ x ∈ l, Alike R (f x) (g x)) : Alike (fun _ _ => True) (l.mapM f) (l.mapM g) := by
  induction l with
  | nil => exact .ok trivial
  | cons x l ih =>
      obtain ⟨hx, hl⟩ := List.forall_mem_cons.mp h
      rw [List.mapM_cons, List.mapM_cons]
      exact hx.bind fun _ _ _ => (ih hl).bind fun _ _ _ => .ok trivial

/-- What every step of two folds keeps related is related in the end. -/
theorem foldlM {f : α → γ → Except ε α} {g : β → γ → Except ε β} {l : List γ} {s : α} {t : β}
    (hstep : ∀ x ∈ l, ∀ s t, R s t → Alike R (f s x) (g t x)) (h : R s t) :
    Alike R (l.foldlM f s) (l.foldlM g t) := by
  induction l generalizing s t with
  | nil => exact .ok h
  | cons x l ih =>
      obtain ⟨hx, hl⟩ := List.forall_mem_cons.mp hstep
      rw [List.foldlM_cons, List.foldlM_cons]
      exact (hx s t h).bind fun _ _ h => ih hl h

end Alike

end IdlBinder.Traversal

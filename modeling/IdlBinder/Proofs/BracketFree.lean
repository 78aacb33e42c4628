import IdlBinder.Constant.Elaborate
import IdlBinder.Proofs.Brackets
import IdlBinder.Proofs.CamelCase
import IdlBinder.Proofs.JsonText

set_option autoImplicit false

/-!
# Names and numbers without brackets

No letter is a bracket in its other case, so the built-in casing styles make names without brackets
out of names without brackets: `Casing.bracketFree_apply`. All generated names follow from that.
Numbers have no brackets either.
-/

namespace IdlBinder

open Brackets

/-! ## Letters -/

/-- What holds of the six brackets. -/
theorem Brackets.forall_isBracket {P : Char → Prop}
    (h : P '(' ∧ P ')' ∧ P '{' ∧ P '}' ∧ P '<' ∧ P '>') {c : Char} (hc : isBracket c = true) :
    P c := by
  obtain ⟨hround, hround', hcurly, hcurly', hangle, hangle'⟩ := h
  have hcases : (closing? c).isSome = true ∨ isClosing c = true := by
    simpa only [isBracket, Bool.or_eq_true] using hc
  rcases hcases with hopening | hclosing
  · unfold closing? at hopening
    split at hopening
    · exact hround
    · exact hcurly
    · exact hangle
    · cases hopening
  · simp only [isClosing, Bool.or_eq_true, decide_eq_true_eq] at hclosing
    rcases hclosing with (rfl | rfl) | rfl
    · exact hround'
    · exact hcurly'
    · exact hangle'

namespace Text

theorem isBracket_ofNat {n : Nat} (h : 0x7D < n) : isBracket (Char.ofNat n) = false := by
  by_cases hn : n.isValidChar
  · refine Bool.eq_false_iff.mpr fun hbracket => ?_
    have hle := forall_isBracket (P := fun c => c.toNat ≤ 0x7D) (by decide) hbracket
    have htoNat : (Char.ofNatAux n hn).toNat = n := rfl
    rw [Char.ofNat, dif_pos hn, htoNat] at hle
    omega
  · rw [Char.ofNat, dif_neg hn]
    rfl

/-- Whether a run of code points maps to no bracket: it maps beyond the brackets, or it is a single
one that maps to another character. -/
def Shift.avoidsBrackets (s : Shift) : Bool :=
  0x7D < s.target || s.first == s.last && !isBracket (Char.ofNat s.target)

theorem isBracket_shifted? {shifts : List Shift} (h : ∀ s ∈ shifts, s.avoidsBrackets = true)
    {n m : Nat} (hm : shifted? shifts n = some m) : isBracket (Char.ofNat m) = false := by
  obtain ⟨s, hs, rfl⟩ := Option.map_eq_some_iff.mp hm
  have hhas : s.has n = true := by simpa using List.find?_some hs
  simp only [Span.has, Bool.and_eq_true, decide_eq_true_eq] at hhas
  have havoids := h s (List.mem_of_find?_eq_some hs)
  simp only [Shift.avoidsBrackets, Bool.or_eq_true, Bool.and_eq_true, decide_eq_true_eq,
    beq_iff_eq, Bool.not_eq_true'] at havoids
  -- A run of several code points maps beyond the brackets; only a single one may map below them.
  rcases havoids with htarget | ⟨hsingle, htarget⟩
  · exact isBracket_ofNat (by omega)
  · have hn : n - s.first = 0 := by omega
    rwa [hn, Nat.add_zero]

theorem free_upperChar {c : Char} (h : isBracket c = false) : Free (upperChar c) := by
  -- What the tables of the case mapping say of brackets, each gone through once.
  have hascii : ∀ n < 0x80, isBracket (Char.ofNat n) = false →
      isBracket (Char.ofNat n).toUpper = false := by decide
  have hexpansions : ∀ e ∈ upperExpansions, Free (e.2.map Char.ofNat) := by decide +kernel
  have hshifts : ∀ s ∈ upperShifts, s.avoidsBrackets = true := by decide +kernel
  unfold upperChar
  split
  next hlt =>
    refine free_cons.mpr ⟨?_, free_nil⟩
    rw [← Char.ofNat_toNat c] at h ⊢
    exact hascii _ hlt h
  next =>
    split
    next codes hcodes =>
      obtain ⟨before, after, htable, -⟩ := List.lookup_eq_some_iff.mp hcodes
      exact hexpansions (c.toNat, codes) (by rw [htable]; simp)
    next =>
      refine free_cons.mpr ⟨?_, free_nil⟩
      cases hm : shifted? upperShifts c.toNat with
      | none => exact h
      | some m => exact isBracket_shifted? hshifts hm

theorem free_lowerChar {c : Char} (h : isBracket c = false) : Free (lowerChar c) := by
  have hascii : ∀ n < 0x80, isBracket (Char.ofNat n) = false →
      isBracket (Char.ofNat n).toLower = false := by decide
  have hshifts : ∀ s ∈ lowerShifts, s.avoidsBrackets = true := by decide +kernel
  unfold lowerChar
  split
  next hlt =>
    refine free_cons.mpr ⟨?_, free_nil⟩
    rw [← Char.ofNat_toNat c] at h ⊢
    exact hascii _ hlt h
  next =>
    split
    next => decide
    next =>
      refine free_cons.mpr ⟨?_, free_nil⟩
      cases hm : shifted? lowerShifts c.toNat with
      | none => exact h
      | some m => exact isBracket_shifted? hshifts hm

theorem free_lowerAfter {before w : List Char} (h : Free w) : Free (lowerAfter before w) := by
  induction w generalizing before with
  | nil => exact free_nil
  | cons c w ih =>
      obtain ⟨hc, hw⟩ := free_cons.mp h
      rw [lowerAfter, free_append]
      refine ⟨?_, ih hw⟩
      split
      · split <;> decide
      · exact free_lowerChar hc

theorem free_capitalize {w : List Char} (h : Free w) : Free (capitalize w) := by
  cases w with
  | nil => exact free_nil
  | cons c w =>
      obtain ⟨hc, hw⟩ := free_cons.mp h
      rw [capitalize, free_append, free_flatMap]
      exact ⟨free_upperChar hc, fun b hb => free_lowerChar (hw b hb)⟩

end Text

/-! ## Casing -/

namespace Casing

/-- Whether a style is one of the built-in ones. -/
def isBuiltIn : Casing → Bool
  | custom _ => false
  | upperCamel | lowerCamel | snake | screamingSnake | verbatim => true

theorem free_of_mem_words {name : String} (h : BracketFree name) :
    ∀ w ∈ Name.words name.toList, Free w := by
  intro w hw
  refine Free.of_subset h fun c hc => ?_
  have hflat : c ∈ (Name.words name.toList).flatten := List.mem_flatten.mpr ⟨w, hw, hc⟩
  rw [Name.flatten_words] at hflat
  exact (List.mem_filter.mp hflat).1

/-- Words that are respelled without brackets have none between them either. -/
theorem free_joined {ws : List (List Char)} {f : List Char → List Char}
    (h : ∀ w ∈ ws, Free (f w)) : Free (['_'].intercalate (ws.map f)) := by
  cases ws with
  | nil => exact free_nil
  | cons w ws =>
      obtain ⟨hw, hws⟩ := List.forall_mem_cons.mp h
      rw [List.map_cons, Name.intercalate_cons, free_append, free_flatMap]
      exact ⟨hw, List.forall_mem_map.mpr fun v hv => free_cons.mpr ⟨rfl, hws v hv⟩⟩

/-- The built-in styles bring no brackets into a name. -/
theorem bracketFree_apply {casing : Casing} (hcasing : casing.isBuiltIn = true) {name : String}
    (h : BracketFree name) : BracketFree (casing.apply name) := by
  have hwords := free_of_mem_words h
  cases casing with
  | upperCamel =>
      rw [apply, bracketFree_ofList, free_flatMap]
      exact fun w hw => Text.free_capitalize (hwords w hw)
  | lowerCamel =>
      rw [apply, bracketFree_ofList]
      cases hws : Name.words name.toList with
      | nil => exact free_nil
      | cons w ws =>
          rw [hws] at hwords
          obtain ⟨hfirst, hrest⟩ := List.forall_mem_cons.mp hwords
          rw [lowerFirst, free_append, free_flatMap]
          exact ⟨Text.free_lowerAfter hfirst, fun v hv => Text.free_capitalize (hrest v hv)⟩
  | snake =>
      rw [apply, bracketFree_ofList]
      exact free_joined fun w hw => Text.free_lowerAfter (hwords w hw)
  | screamingSnake =>
      rw [apply, bracketFree_ofList]
      refine free_joined fun w hw => ?_
      rw [Text.upperWord, free_flatMap]
      exact fun c hc => Text.free_upperChar (hwords w hw c hc)
  | verbatim => exact h
  | custom respell => cases hcasing

end Casing

/-- The styles of all kinds of identifiers. -/
def Styles.casings (s : Styles) : List Casing :=
  [s.type, s.typeParam, s.method, s.field, s.localName, s.enumOption, s.constant, s.file]

theorem Name.bracketFree_escapeKeyword {name : String} (h : BracketFree name) :
    BracketFree (escapeKeyword name) := by
  rw [escapeKeyword]
  split
  · exact bracketFree_append.mpr ⟨h, by decide⟩
  · exact h

/-! ## Generated names -/

namespace Settings

/-- The texts of the settings that stand in generated files. -/
def texts (s : Settings) : List String :=
  [s.nativeNamespace, s.componentNamespace, s.supportNamespace, s.supportInclude, s.includePrefix,
    s.headerExt, s.extSuffix]

/-- Settings that bring no brackets into generated files. -/
structure IsBracketFree (s : Settings) : Prop where
  styles : ∀ c ∈ s.nativeStyles.casings ++ s.componentStyles.casings, c.isBuiltIn = true
  texts : AllFree s.texts

namespace IsBracketFree

variable {s : Settings} {name : String}

theorem apply_native (hs : s.IsBracketFree) {c : Casing} (hc : c ∈ s.nativeStyles.casings)
    (h : BracketFree name) : BracketFree (c.apply name) :=
  Casing.bracketFree_apply (hs.styles c (List.mem_append_left _ hc)) h

theorem apply_component (hs : s.IsBracketFree) {c : Casing} (hc : c ∈ s.componentStyles.casings)
    (h : BracketFree name) : BracketFree (c.apply name) :=
  Casing.bracketFree_apply (hs.styles c (List.mem_append_right _ hc)) h

theorem nativeType (hs : s.IsBracketFree) (h : BracketFree name) :
    BracketFree (s.nativeType name) :=
  hs.apply_native (by simp [Styles.casings]) h

theorem nativeTypeParam (hs : s.IsBracketFree) (h : BracketFree name) :
    BracketFree (s.nativeTypeParam name) :=
  hs.apply_native (by simp [Styles.casings]) h

theorem nativeField (hs : s.IsBracketFree) (h : BracketFree name) :
    BracketFree (s.nativeField name) :=
  Name.bracketFree_escapeKeyword (hs.apply_native (by simp [Styles.casings]) h)

theorem nativeMethod (hs : s.IsBracketFree) (h : BracketFree name) :
    BracketFree (s.nativeMethod name) :=
  Name.bracketFree_escapeKeyword (hs.apply_native (by simp [Styles.casings]) h)

theorem nativeLocal (hs : s.IsBracketFree) (h : BracketFree name) :
    BracketFree (s.nativeLocal name) :=
  Name.bracketFree_escapeKeyword (hs.apply_native (by simp [Styles.casings]) h)

theorem nativeConst (hs : s.IsBracketFree) (h : BracketFree name) :
    BracketFree (s.nativeConst name) :=
  Name.bracketFree_escapeKeyword (hs.apply_native (by simp [Styles.casings]) h)

theorem nativeEnumOption (hs : s.IsBracketFree) (h : BracketFree name) :
    BracketFree (s.nativeEnumOption name) :=
  Name.bracketFree_escapeKeyword (hs.apply_native (by simp [Styles.casings]) h)

theorem componentField (hs : s.IsBracketFree) (h : BracketFree name) :
    BracketFree (s.componentField name) :=
  hs.apply_component (by simp [Styles.casings]) h

theorem recordBase (hs : s.IsBracketFree) (h : BracketFree name) (ext : Extension) :
    BracketFree (s.recordBase name ext) := by
  have hsuffix := hs.texts s.extSuffix (by simp [Settings.texts])
  rw [Settings.recordBase]
  split
  · simp only [bracketFree_append]
    exact ⟨⟨h, by decide⟩, hsuffix⟩
  · exact h

theorem bridgeBase (hs : s.IsBracketFree) (h : BracketFree name) (ext : Extension) :
    BracketFree (s.bridgeBase name ext) := by
  have hsuffix := hs.texts s.extSuffix (by simp [Settings.texts])
  rw [Settings.bridgeBase]
  split
  · simp only [bracketFree_append]
    exact ⟨⟨⟨h, by decide⟩, hsuffix⟩, by decide⟩
  · exact bracketFree_append.mpr ⟨h, by decide⟩

theorem structName (hs : s.IsBracketFree) (h : BracketFree name) (ext : Extension) :
    BracketFree (s.structName name ext) :=
  hs.nativeType (hs.recordBase h ext)

theorem bridgeName (hs : s.IsBracketFree) (h : BracketFree name) (ext : Extension) :
    BracketFree (s.bridgeName name ext) :=
  hs.nativeType (hs.bridgeBase h ext)

theorem qualify (hs : s.IsBracketFree) (h : BracketFree name) : BracketFree (s.qualify name) := by
  have hnamespace := hs.texts s.nativeNamespace (by simp [Settings.texts])
  rw [Settings.qualify]
  split
  · exact bracketFree_append.mpr ⟨by decide, h⟩
  · simp only [bracketFree_append]
    exact ⟨⟨⟨by decide, hnamespace⟩, by decide⟩, h⟩

theorem nativeQualified (hs : s.IsBracketFree) (h : BracketFree name) :
    BracketFree (s.nativeQualified name) :=
  hs.qualify (hs.nativeType h)

theorem projectedNamespace (hs : s.IsBracketFree) : BracketFree s.projectedNamespace := by
  have hnamespace := hs.texts s.componentNamespace (by simp [Settings.texts])
  rw [Settings.projectedNamespace, bracketFree_ofList, free_flatMap]
  intro c hc
  split
  · decide
  · exact free_cons.mpr ⟨hnamespace c hc, free_nil⟩

theorem componentQualified (hs : s.IsBracketFree) (h : BracketFree name) :
    BracketFree (s.componentQualified name) := by
  have htype := hs.apply_component (c := s.componentStyles.type) (by simp [Styles.casings]) h
  rw [Settings.componentQualified]
  split
  · exact bracketFree_append.mpr ⟨by decide, htype⟩
  · simp only [bracketFree_append]
    exact ⟨⟨⟨by decide, hs.projectedNamespace⟩, by decide⟩, htype⟩

theorem supportType (hs : s.IsBracketFree) (h : BracketFree name) :
    BracketFree (s.supportType name) := by
  have hnamespace := hs.texts s.supportNamespace (by simp [Settings.texts])
  simp only [Settings.supportType, bracketFree_append]
  exact ⟨⟨⟨by decide, hnamespace⟩, by decide⟩, h⟩

theorem includeTarget (hs : s.IsBracketFree) {stem : String} (h : BracketFree stem) :
    BracketFree (s.includeTarget stem) := by
  have hlead := hs.texts s.includePrefix (by simp [Settings.texts])
  have hext := hs.texts s.headerExt (by simp [Settings.texts])
  simp only [Settings.includeTarget, bracketFree_append]
  exact ⟨⟨⟨⟨⟨by decide, hlead⟩, h⟩, by decide⟩, hext⟩, by decide⟩

theorem fileStem (hs : s.IsBracketFree) (h : BracketFree name) : BracketFree (s.fileStem name) :=
  hs.apply_native (by simp [Styles.casings]) h

theorem recordFileStem (hs : s.IsBracketFree) (h : BracketFree name) (ext : Extension) :
    BracketFree (s.recordFileStem name ext) :=
  hs.fileStem (hs.recordBase h ext)

theorem bridgeFileStem (hs : s.IsBracketFree) (h : BracketFree name) (ext : Extension) :
    BracketFree (s.bridgeFileStem name ext) :=
  hs.fileStem (hs.bridgeBase h ext)

theorem supportTarget (hs : s.IsBracketFree) : BracketFree s.supportTarget := by
  have hinclude := hs.texts s.supportInclude (by simp [Settings.texts])
  simp only [Settings.supportTarget, bracketFree_append]
  exact ⟨⟨by decide, hinclude⟩, by decide⟩

/-- The header of the projected types stands in angle brackets. -/
theorem projectionHeader (hs : s.IsBracketFree) : Balanced s.projectionHeader := by
  have hnamespace := hs.texts s.componentNamespace (by simp [Settings.texts])
  rw [Settings.projectionHeader]
  split
  · decide
  · exact hnamespace.balanced.enclosed rfl rfl

end IsBracketFree

end Settings

/-! ## Numbers -/

theorem isBracket_of_isDigit {c : Char} (h : c.isDigit = true) : isBracket c = false := by
  refine Bool.eq_false_iff.mpr fun hbracket => ?_
  have hdigit := forall_isBracket (P := fun c => c.isDigit = false) (by decide) hbracket
  rw [hdigit] at h
  cases h

theorem free_toDigits (n : Nat) : Free (Nat.toDigits 10 n) :=
  fun _ hc => isBracket_of_isDigit (Json.Numeral.isDigit_of_mem_toDigits hc)

theorem bracketFree_toString (i : Int) : BracketFree (toString i) := by
  rw [BracketFree, Json.Numeral.toList_toString, free_append]
  refine ⟨?_, free_toDigits _⟩
  split <;> decide

namespace Decimal

theorem free_positional {digits : List Char} (h : Free digits) (point : Int) :
    Free (positional digits point) := by
  have hzeros : ∀ n, Free (List.replicate n '0') := by
    intro n c hc
    rw [List.eq_of_mem_replicate hc]
    rfl
  unfold positional
  split
  · simp only [free_cons, free_append]
    exact ⟨rfl, rfl, hzeros _, h⟩
  · split
    · simp only [free_append]
      exact ⟨⟨h, hzeros _⟩, by decide⟩
    · simp only [free_append, free_cons]
      exact ⟨h.of_subset (List.take_subset _ _), rfl, h.of_subset (List.drop_subset _ _)⟩

theorem free_scientific {digits : List Char} (h : Free digits) (lead : Int) :
    Free (scientific digits lead) := by
  simp only [scientific, free_append, free_cons]
  refine ⟨?_, rfl, ?_, free_toDigits _⟩
  · split
    · simp only [free_cons] at h ⊢
      exact ⟨h.1, rfl, h.2⟩
    · exact h
  · split <;> decide

theorem bracketFree_text (x : Binary64) : BracketFree (text x) := by
  have hmagnitude : Free (magnitudeText x) := by
    unfold magnitudeText
    split
    · decide
    · simp only
      split
      · exact free_positional (free_toDigits _) _
      · exact free_scientific (free_toDigits _) _
  unfold text
  split
  · rw [bracketFree_ofList, free_append]
    refine ⟨?_, hmagnitude⟩
    split <;> decide
  · split
    · decide
    · split <;> decide

end Decimal

end IdlBinder

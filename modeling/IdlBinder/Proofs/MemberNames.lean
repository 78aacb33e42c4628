import IdlBinder.Naming
import IdlBinder.Proofs.WordCasing

set_option autoImplicit false

/-!
# Names of members

A member may be called like its identifier in any of the four styles that go by words. Such a
spelling starts with a letter, has letters, digits and single underscores after it, and never ends
with an underscore: `Casing.spelled_apply`. So it is an identifier of C++, and the underscore that
keeps it apart from a keyword makes it neither another keyword nor the name of another member:
`member_names_valid`. Types go without that underscore because no keyword starts with a capital.
-/

namespace IdlBinder

open Name Text

namespace Name

/-- Whether a name is a letter followed by letters, digits, underscores and hyphens. -/
def isIdentifier (name : String) : Bool :=
  match name.toList with
  | [] => false
  | c :: rest => c.isAlpha && rest.all fun d => d.isAlphanum || d == '_' || d == '-'

/-- Whether a name is an identifier of C++. -/
def isCppIdentifier (name : String) : Bool :=
  match name.toList with
  | [] => false
  | c :: rest => (c.isAlpha || c == '_') && rest.all fun d => d.isAlphanum || d == '_'

/-! ## Letters and digits -/

theorem ascii_of_isAlphanum {c : Char} (h : c.isAlphanum) : c.toNat < 0x80 := by
  have hkinds : c.isAlphanum = ((c.isUpper || c.isLower) || c.isDigit) := rfl
  have hupper : c.isUpper = decide (65 ≤ c.val ∧ c.val ≤ 90) := rfl
  have hlower : c.isLower = (decide (97 ≤ c.val) && decide (c.val ≤ 122)) := rfl
  have hdigit : c.isDigit = (decide (48 ≤ c.val) && decide (c.val ≤ 57)) := rfl
  rw [hkinds, hupper, hlower, hdigit] at h
  show c.val.toNat < 0x80
  simp only [Bool.or_eq_true, Bool.and_eq_true, decide_eq_true_eq, UInt32.le_iff_toNat_le,
    UInt32.reduceToNat] at h
  omega

theorem isSeparator_of_isAlphanum {c : Char} (h : c.isAlphanum) : isSeparator c = false :=
  of_ascii (P := fun c => c.isAlphanum → isSeparator c = false) (by decide)
    (ascii_of_isAlphanum h) h

/-- Letters stay letters in either case, and digits stay digits. -/
theorem isAlphanum_cased {c : Char} (h : c.isAlphanum) :
    (c.toLower.isAlphanum ∧ c.toLower.isAlpha = c.isAlpha) ∧
      c.toUpper.isAlphanum ∧ c.toUpper.isAlpha = c.isAlpha :=
  of_ascii (P := fun c => c.isAlphanum →
    (c.toLower.isAlphanum ∧ c.toLower.isAlpha = c.isAlpha) ∧
      c.toUpper.isAlphanum ∧ c.toUpper.isAlpha = c.isAlpha) (by decide) (ascii_of_isAlphanum h) h

/-- A respelling of words that makes letters and digits of letters and digits, and puts a letter in
front where there was one. -/
structure KeepsKinds (f : List Char → List Char) : Prop where
  alphanum : ∀ w, (∀ c ∈ w, c.isAlphanum) → ∀ c ∈ f w, c.isAlphanum
  start : ∀ c w, (∀ b ∈ c :: w, b.isAlphanum) → ∃ d v, f (c :: w) = d :: v ∧ d.isAlpha = c.isAlpha

theorem keepsKinds_lowerWord : KeepsKinds lowerWord where
  alphanum w hw := by
    rw [lowerWord_of_ascii fun c hc => ascii_of_isAlphanum (hw c hc)]
    exact List.forall_mem_map.mpr fun c hc => (isAlphanum_cased (hw c hc)).1.1
  start c w hw := by
    rw [lowerWord_of_ascii fun b hb => ascii_of_isAlphanum (hw b hb), List.map_cons]
    exact ⟨c.toLower, _, rfl, (isAlphanum_cased (hw c List.mem_cons_self)).1.2⟩

theorem keepsKinds_upperWord : KeepsKinds upperWord where
  alphanum w hw := by
    rw [upperWord_of_ascii fun c hc => ascii_of_isAlphanum (hw c hc)]
    exact List.forall_mem_map.mpr fun c hc => (isAlphanum_cased (hw c hc)).2.1
  start c w hw := by
    rw [upperWord_of_ascii fun b hb => ascii_of_isAlphanum (hw b hb), List.map_cons]
    exact ⟨c.toUpper, _, rfl, (isAlphanum_cased (hw c List.mem_cons_self)).2.2⟩

theorem keepsKinds_capitalize : KeepsKinds capitalize where
  alphanum w hw := by
    cases w with
    | nil => exact hw
    | cons c w =>
        rw [capitalize_of_ascii fun b hb => ascii_of_isAlphanum (hw b hb)]
        obtain ⟨hc, hw⟩ := List.forall_mem_cons.mp hw
        refine List.forall_mem_cons.mpr ⟨(isAlphanum_cased hc).2.1, ?_⟩
        exact List.forall_mem_map.mpr fun b hb => (isAlphanum_cased (hw b hb)).1.1
  start c w hw := by
    rw [capitalize_of_ascii fun b hb => ascii_of_isAlphanum (hw b hb)]
    exact ⟨c.toUpper, _, rfl, (isAlphanum_cased (hw c List.mem_cons_self)).2.2⟩

/-! ## Words of identifiers -/

/-- An identifier has a first word, which starts with a letter, and all its words are of letters and
digits. -/
theorem exists_words_of_isIdentifier {name : String} (h : isIdentifier name) :
    ∃ c w ws, words name.toList = (c :: w) :: ws ∧ c.isAlpha ∧
      ∀ v ∈ words name.toList, v ≠ [] ∧ ∀ b ∈ v, b.isAlphanum := by
  rw [isIdentifier] at h
  split at h
  case h_1 => cases h
  case h_2 c rest hname =>
    simp only [Bool.and_eq_true, List.all_eq_true, Bool.or_eq_true, beq_iff_eq] at h
    obtain ⟨hc, hrest⟩ := h
    have hfirst : c.isAlphanum = (c.isAlpha || c.isDigit) := rfl
    rw [hc, Bool.true_or] at hfirst
    obtain ⟨w, ws, hwords⟩ := exists_words_cons (isSeparator_of_isAlphanum hfirst) rest
    refine ⟨c, w, ws, by rw [hname, hwords], hc, fun v hv => ⟨ne_nil_of_mem_words hv, ?_⟩⟩
    intro b hb
    -- What an identifier may hold besides letters and digits separates words.
    have hmem : b ∈ c :: rest := by
      rw [← hname]
      exact mem_of_mem_words hv hb
    have hsep := isSeparator_of_mem_words hv hb
    rcases List.mem_cons.mp hmem with rfl | hmem
    · exact hfirst
    · rcases hrest b hmem with (halphanum | rfl) | rfl
      · exact halphanum
      · simp [isSeparator] at hsep
      · simp [isSeparator] at hsep

/-! ## Spellings -/

/-- The characters of a name that a style makes of an identifier. -/
structure Spelled (cs : List Char) : Prop where
  start : ∃ c rest, cs = c :: rest ∧ c.isAlpha
  chars : ∀ c ∈ cs, c.isAlphanum ∨ c = '_'
  last : cs.getLast? ≠ some '_'

theorem last_of_alphanum {cs : List Char} (h : ∀ c ∈ cs, c.isAlphanum) :
    cs.getLast? ≠ some '_' := by
  intro hlast
  exact absurd (h '_' (List.mem_of_getLast? hlast)) (by decide)

/-- A further word may follow with or without an underscore in front. -/
theorem Spelled.append {cs sep w : List Char} (h : Spelled cs) (hsep : sep = [] ∨ sep = ['_'])
    (hne : w ≠ []) (hw : ∀ c ∈ w, c.isAlphanum) : Spelled (cs ++ (sep ++ w)) where
  start := by
    obtain ⟨c, rest, rfl, hc⟩ := h.start
    exact ⟨c, rest ++ (sep ++ w), rfl, hc⟩
  chars := by
    intro c hc
    simp only [List.mem_append] at hc
    rcases hc with hc | hc | hc
    · exact h.chars c hc
    · rcases hsep with rfl | rfl
      · cases hc
      · exact Or.inr (List.mem_singleton.mp hc)
    · exact Or.inl (hw c hc)
  last := by
    rw [← List.append_assoc, List.getLast?_append_of_ne_nil _ hne]
    exact last_of_alphanum hw

end Name

namespace Casing

/-- How a style puts the words of a name together: the first word in one spelling, and every further
one in another behind the same separator. -/
structure Joins (casing : Casing) (first : List Char → List Char) (sep : List Char)
    (next : List Char → List Char) : Prop where
  keeps_first : KeepsKinds first
  sep_eq : sep = [] ∨ sep = ['_']
  keeps_next : KeepsKinds next
  apply_eq : ∀ {name w ws}, words name.toList = w :: ws →
    (casing.apply name).toList = first w ++ ws.flatMap fun v => sep ++ next v

theorem exists_joins {casing : Casing} (h : casing.isWordwise) :
    ∃ first sep next, casing.Joins first sep next := by
  cases casing with
  | upperCamel =>
      refine ⟨capitalize, [], capitalize, keepsKinds_capitalize, Or.inl rfl, keepsKinds_capitalize,
        ?_⟩
      intro name w ws hwords
      simp [apply, hwords]
  | lowerCamel =>
      refine ⟨lowerWord, [], capitalize, keepsKinds_lowerWord, Or.inl rfl, keepsKinds_capitalize,
        ?_⟩
      intro name w ws hwords
      simp [apply, hwords, lowerFirst]
  | snake =>
      refine ⟨lowerWord, ['_'], lowerWord, keepsKinds_lowerWord, Or.inr rfl, keepsKinds_lowerWord,
        ?_⟩
      intro name w ws hwords
      rw [apply, String.toList_ofList, hwords, List.map_cons, intercalate_cons, List.flatMap_map]
  | screamingSnake =>
      refine ⟨upperWord, ['_'], upperWord, keepsKinds_upperWord, Or.inr rfl, keepsKinds_upperWord,
        ?_⟩
      intro name w ws hwords
      rw [apply, String.toList_ofList, hwords, List.map_cons, intercalate_cons, List.flatMap_map]
  | verbatim => cases h
  | custom respell => cases h

theorem spelled_flatMap {sep : List Char} {next : List Char → List Char}
    (hsep : sep = [] ∨ sep = ['_']) (hnext : KeepsKinds next) {ws : List (List Char)}
    (hws : ∀ v ∈ ws, v ≠ [] ∧ ∀ b ∈ v, b.isAlphanum) {cs : List Char} (h : Spelled cs) :
    Spelled (cs ++ ws.flatMap fun v => sep ++ next v) := by
  induction ws generalizing cs with
  | nil => simpa using h
  | cons v ws ih =>
      obtain ⟨⟨hne, hv⟩, hws⟩ := List.forall_mem_cons.mp hws
      rw [List.flatMap_cons, ← List.append_assoc]
      refine ih hws (h.append hsep ?_ (hnext.alphanum v hv))
      obtain ⟨c, rest, rfl⟩ := List.exists_cons_of_ne_nil hne
      obtain ⟨d, more, heq, -⟩ := hnext.start c rest hv
      simp [heq]

/-- What the styles that go by words make of identifiers. -/
theorem spelled_apply {casing : Casing} (hcasing : casing.isWordwise) {name : String}
    (h : isIdentifier name) : Spelled (casing.apply name).toList := by
  obtain ⟨c, w, ws, hwords, hc, hkinds⟩ := exists_words_of_isIdentifier h
  obtain ⟨first, sep, next, hjoins⟩ := exists_joins hcasing
  rw [hwords] at hkinds
  obtain ⟨⟨-, hw⟩, hws⟩ := List.forall_mem_cons.mp hkinds
  rw [hjoins.apply_eq hwords]
  refine spelled_flatMap hjoins.sep_eq hjoins.keeps_next hws ⟨?_, ?_, ?_⟩
  · obtain ⟨d, v, heq, hd⟩ := hjoins.keeps_first.start c w hw
    exact ⟨d, v, heq, by rw [hd, hc]⟩
  · exact fun b hb => Or.inl (hjoins.keeps_first.alphanum _ hw b hb)
  · exact last_of_alphanum (hjoins.keeps_first.alphanum _ hw)

/-- A capital is in front of the camel case of an identifier. -/
theorem exists_isUpper_upperCamel {name : String} (h : isIdentifier name) :
    ∃ c, (upperCamel.apply name).toList.head? = some c ∧ c.isUpper := by
  obtain ⟨c, w, ws, hwords, hc, hkinds⟩ := exists_words_of_isIdentifier h
  have hw : ∀ b ∈ c :: w, b.toNat < 0x80 := by
    intro b hb
    exact ascii_of_isAlphanum ((hkinds (c :: w) (by simp [hwords])).2 b hb)
  refine ⟨c.toUpper, ?_, ?_⟩
  · rw [apply, String.toList_ofList, hwords, List.flatMap_cons, capitalize_of_ascii hw]
    rfl
  · exact of_ascii (P := fun c => c.isAlpha → c.toUpper.isUpper) (by decide)
      (hw c List.mem_cons_self) hc

end Casing

/-! ## Keywords -/

namespace Name

theorem isCppIdentifier_of_chars {name : String}
    (hstart : ∃ c rest, name.toList = c :: rest ∧ c.isAlpha)
    (hchars : ∀ c ∈ name.toList, c.isAlphanum ∨ c = '_') : isCppIdentifier name := by
  obtain ⟨c, rest, hname, hc⟩ := hstart
  rw [hname] at hchars
  simp only [isCppIdentifier, hname, hc, Bool.true_or, Bool.true_and, List.all_eq_true,
    Bool.or_eq_true, beq_iff_eq]
  exact (List.forall_mem_cons.mp hchars).2

theorem Spelled.isCppIdentifier {name : String} (h : Spelled name.toList) : isCppIdentifier name :=
  isCppIdentifier_of_chars h.start h.chars

theorem Spelled.isCppIdentifier_escapeKeyword {name : String} (h : Spelled name.toList) :
    Name.isCppIdentifier (escapeKeyword name) := by
  rw [escapeKeyword]
  split
  · obtain ⟨c, rest, hname, hc⟩ := h.start
    refine isCppIdentifier_of_chars ⟨c, rest ++ ['_'], by simp [hname], hc⟩ ?_
    intro b hb
    rw [String.toList_append, List.mem_append] at hb
    rcases hb with hb | hb
    · exact h.chars b hb
    · exact Or.inr (by simpa using hb)
  · exact h.isCppIdentifier

theorem last_of_mem_keywords {name : String} (h : name ∈ keywords) :
    name.toList.getLast? ≠ some '_' := by
  have hall : ∀ k ∈ keywords, k.toList.getLast? ≠ some '_' := by decide +kernel
  exact hall name h

theorem head_of_mem_keywords {name : String} (h : name ∈ keywords) :
    name.toList.head?.any Char.isUpper = false := by
  have hall : ∀ k ∈ keywords, k.toList.head?.any Char.isUpper = false := by decide +kernel
  exact hall name h

theorem escapeKeyword_notMem_keywords (name : String) : escapeKeyword name ∉ keywords := by
  intro h
  by_cases hkeyword : isKeyword name
  · rw [escapeKeyword, if_pos hkeyword] at h
    exact last_of_mem_keywords h (by simp)
  · rw [escapeKeyword, if_neg hkeyword] at h
    exact hkeyword (List.contains_iff_mem.mpr h)

/-- Names that do not end with an underscore stay apart. -/
theorem eq_of_escapeKeyword_eq {a b : String} (ha : a.toList.getLast? ≠ some '_')
    (hb : b.toList.getLast? ≠ some '_') (h : escapeKeyword a = escapeKeyword b) : a = b := by
  -- If one of them is escaped and the other is not, the other ends with an underscore.
  by_cases hka : isKeyword a
  · by_cases hkb : isKeyword b
    · rw [escapeKeyword, escapeKeyword, if_pos hka, if_pos hkb] at h
      simpa [← String.toList_inj] using h
    · rw [escapeKeyword, escapeKeyword, if_pos hka, if_neg hkb] at h
      exact absurd (by simp [← h]) hb
  · by_cases hkb : isKeyword b
    · rw [escapeKeyword, escapeKeyword, if_neg hka, if_pos hkb] at h
      exact absurd (by simp [h]) ha
    · rw [escapeKeyword, escapeKeyword, if_neg hka, if_neg hkb] at h
      exact h

/-- A name with a capital in front is no keyword. -/
theorem upperCamel_notMem_keywords {name : String} (h : isIdentifier name) :
    Casing.upperCamel.apply name ∉ keywords := by
  intro hkeyword
  obtain ⟨c, hhead, hc⟩ := Casing.exists_isUpper_upperCamel h
  have hsmall := head_of_mem_keywords hkeyword
  simp [hhead, hc] at hsmall

end Name

/-! ## Members -/

namespace Settings

/-- The kinds of members: for each its style, and the spelling of its names. -/
def memberNames (s : Settings) : List (Casing × (String → String)) := [
  (s.nativeStyles.field, s.nativeField), (s.nativeStyles.method, s.nativeMethod),
  (s.nativeStyles.localName, s.nativeLocal), (s.nativeStyles.constant, s.nativeConst),
  (s.nativeStyles.enumOption, s.nativeEnumOption)]

theorem eq_escapeKeyword_of_mem {s : Settings} {m : Casing × (String → String)}
    (h : m ∈ s.memberNames) (name : String) : m.2 name = escapeKeyword (m.1.apply name) := by
  simp only [memberNames, List.mem_cons, List.not_mem_nil, or_false] at h
  rcases h with rfl | rfl | rfl | rfl | rfl <;> rfl

/-- Members of every kind and in every style that goes by words have names that C++ accepts, and
escaping a keyword gives no two of them one name. Under the usual styles the names of types are
accepted without being escaped. -/
theorem member_names_valid (s : Settings) :
    (∀ m ∈ s.memberNames, m.1.isWordwise → ∀ a, isIdentifier a →
      isCppIdentifier (m.2 a) ∧ m.2 a ∉ keywords ∧
        ∀ m' ∈ s.memberNames, m'.1.isWordwise → ∀ b, isIdentifier b →
          m.2 a = m'.2 b → m.1.apply a = m'.1.apply b) ∧
    (s.nativeStyles = .native → ∀ a, isIdentifier a →
      (isCppIdentifier (s.nativeType a) ∧ s.nativeType a ∉ keywords) ∧
        isCppIdentifier (s.nativeTypeParam a) ∧ s.nativeTypeParam a ∉ keywords) := by
  constructor
  · intro m hm hcasing a ha
    have hspelled := Casing.spelled_apply hcasing ha
    rw [eq_escapeKeyword_of_mem hm]
    refine ⟨hspelled.isCppIdentifier_escapeKeyword, escapeKeyword_notMem_keywords _, ?_⟩
    intro m' hm' hcasing' b hb hsame
    rw [eq_escapeKeyword_of_mem hm'] at hsame
    exact eq_of_escapeKeyword_eq hspelled.last (Casing.spelled_apply hcasing' hb).last hsame
  · intro hstyles a ha
    have hspelled : Spelled (Casing.upperCamel.apply a).toList := Casing.spelled_apply rfl ha
    rw [nativeType, nativeTypeParam, hstyles]
    have htype := And.intro hspelled.isCppIdentifier (upperCamel_notMem_keywords ha)
    exact ⟨htype, htype⟩

/-- A field and a method with the keyword `thread_local` as their name, and the type `Union`. -/
theorem thread_local_valid :
    ({} : Settings).nativeField "thread-local" = "thread_local_" ∧
      isCppIdentifier "thread_local_" ∧ "thread_local_" ∉ keywords ∧
      Casing.snake.apply "thread-local" = Casing.snake.apply "ThreadLocal" ∧
      isCppIdentifier (({} : Settings).nativeType "union") ∧
      ({} : Settings).nativeType "union" ∉ keywords := by
  obtain ⟨hmembers, htypes⟩ := member_names_valid {}
  have hfield : ({} : Settings).nativeField "thread-local" = "thread_local_" := by decide +kernel
  have hmethod : ({} : Settings).nativeMethod "ThreadLocal" = "thread_local_" := by decide +kernel
  obtain ⟨hvalid, hkeyword, hapart⟩ :=
    hmembers (.snake, ({} : Settings).nativeField) List.mem_cons_self rfl "thread-local" (by decide)
  have hsame := hapart (.snake, ({} : Settings).nativeMethod)
    (List.mem_cons_of_mem _ List.mem_cons_self) rfl "ThreadLocal" (by decide)
    (hfield.trans hmethod.symm)
  obtain ⟨⟨htype, htypeKeyword⟩, -⟩ := htypes rfl "union" (by decide)
  dsimp only at hvalid hkeyword
  rw [hfield] at hvalid hkeyword
  exact ⟨hfield, hvalid, hkeyword, hsame, htype, htypeKeyword⟩

end Settings

end IdlBinder

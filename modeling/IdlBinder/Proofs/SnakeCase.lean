import IdlBinder.Naming
import IdlBinder.Proofs.WordCasing

set_option autoImplicit false

/-!
# Snake case as a normal form

The snake case of an ASCII name keeps its words: between small characters only the underscores end a
word, `words_snake`. Every built-in style spells a name from its words and does not ask for their
case, so it makes of the snake case what it makes of the name, `Casing.apply_snake`. Identifiers
with one file name are therefore spelled alike in all other places, `snake_canonical`.
-/

namespace IdlBinder

open Name Text

namespace Name

/-! ## Lowered words -/

variable {w : List Char}

theorem toLower_of_ascii {c : Char} (h : c.toNat < 0x80) :
    c.toLower.toNat < 0x80 ∧ c.toLower.toLower = c.toLower ∧ c.toLower.toUpper = c.toUpper :=
  of_ascii (P := fun c => c.toLower.toNat < 0x80 ∧ c.toLower.toLower = c.toLower ∧
    c.toLower.toUpper = c.toUpper) (by decide) h

theorem isSmall_toLower {c : Char} (h : c.toNat < 0x80) (hsep : isSeparator c = false) :
    isSeparator c.toLower = false ∧ isUppercase c.toLower = false :=
  of_ascii (P := fun c => isSeparator c = false →
    isSeparator c.toLower = false ∧ isUppercase c.toLower = false) (by decide) h hsep

theorem ascii_lowerWord (h : ∀ c ∈ w, c.toNat < 0x80) : ∀ c ∈ lowerWord w, c.toNat < 0x80 := by
  rw [lowerWord_of_ascii h]
  exact List.forall_mem_map.mpr fun c hc => (toLower_of_ascii (h c hc)).1

theorem lowerWord_lowerWord (h : ∀ c ∈ w, c.toNat < 0x80) :
    lowerWord (lowerWord w) = lowerWord w := by
  rw [lowerWord_of_ascii (ascii_lowerWord h), lowerWord_of_ascii h, List.map_map]
  exact List.map_congr_left fun c hc => (toLower_of_ascii (h c hc)).2.1

theorem upperWord_lowerWord (h : ∀ c ∈ w, c.toNat < 0x80) :
    upperWord (lowerWord w) = upperWord w := by
  rw [upperWord_of_ascii (ascii_lowerWord h), upperWord_of_ascii h, lowerWord_of_ascii h,
    List.map_map]
  exact List.map_congr_left fun c hc => (toLower_of_ascii (h c hc)).2.2

theorem capitalize_lowerWord (h : ∀ c ∈ w, c.toNat < 0x80) :
    capitalize (lowerWord w) = capitalize w := by
  cases w with
  | nil => rfl
  | cons c w =>
      have hlower := ascii_lowerWord h
      rw [lowerWord_of_ascii h, List.map_cons] at hlower ⊢
      rw [capitalize_of_ascii hlower, capitalize_of_ascii h]
      obtain ⟨hc, hw⟩ := List.forall_mem_cons.mp h
      rw [(toLower_of_ascii hc).2.2, List.map_map]
      congr 1
      exact List.map_congr_left fun b hb => (toLower_of_ascii (hw b hb)).2.1

/-! ## Words of the snake case -/

/-- A lowered word is found again as one word. -/
theorem words_lowerWord {cs : List Char} (h : ∀ c ∈ cs, c.toNat < 0x80) (hw : w ∈ words cs) :
    words (lowerWord w) = [lowerWord w] := by
  have hascii := ascii_of_mem_words h hw
  rw [lowerWord_of_ascii hascii]
  refine words_eq_singleton ?_ (List.forall_mem_map.mpr fun c hc => ?_)
  · simpa using ne_nil_of_mem_words hw
  · exact isSmall_toLower (hascii c hc) (isSeparator_of_mem_words hw hc)

/-- The words of the snake case are the lowered words of the name. -/
theorem words_snake {name : String} (h : IsAscii name) :
    words (Casing.snake.apply name).toList = (words name.toList).map lowerWord := by
  -- Underscores part the words again, and inside a lowered word nothing does.
  rw [Casing.apply, String.toList_ofList, words_intercalate, List.flatMap_map, List.map_eq_flatMap]
  exact List.flatMap_congr fun w hw => words_lowerWord h hw

end Name

/-! ## The other styles -/

namespace Casing

/-- A style spells two names alike if it cannot tell their words apart. -/
theorem apply_congr {casing : Casing} (hcasing : casing.isWordwise) {a b : String}
    (hlower : (words a.toList).map lowerWord = (words b.toList).map lowerWord)
    (hupper : (words a.toList).map upperWord = (words b.toList).map upperWord)
    (hcapital : (words a.toList).map capitalize = (words b.toList).map capitalize) :
    casing.apply a = casing.apply b := by
  cases casing with
  | upperCamel =>
      rw [apply, apply, List.flatMap_def, List.flatMap_def, hcapital]
  | lowerCamel =>
      rw [apply, apply]
      congr 1
      cases ha : words a.toList with
      | nil =>
          rw [ha, List.map_nil, eq_comm, List.map_eq_nil_iff] at hlower
          rw [hlower]
      | cons w ws =>
          cases hb : words b.toList with
          | nil => simp [ha, hb] at hlower
          | cons v vs =>
              rw [ha, hb, List.map_cons, List.map_cons, List.cons.injEq] at hlower hcapital
              rw [lowerFirst, lowerFirst, hlower.1, List.flatMap_def, List.flatMap_def, hcapital.2]
  | snake => rw [apply, apply, hlower]
  | screamingSnake => rw [apply, apply, hupper]
  | verbatim => cases hcasing
  | custom respell => cases hcasing

/-- A built-in style makes of the snake case of an ASCII name what it makes of the name. -/
theorem apply_snake {casing : Casing} (hcasing : casing.isWordwise) {name : String}
    (h : IsAscii name) : casing.apply (snake.apply name) = casing.apply name := by
  have hascii : ∀ w ∈ words name.toList, ∀ c ∈ w, c.toNat < 0x80 :=
    fun w hw => ascii_of_mem_words h hw
  refine apply_congr hcasing ?_ ?_ ?_ <;> rw [words_snake h, List.map_map]
  · exact List.map_congr_left fun w hw => lowerWord_lowerWord (hascii w hw)
  · exact List.map_congr_left fun w hw => upperWord_lowerWord (hascii w hw)
  · exact List.map_congr_left fun w hw => capitalize_lowerWord (hascii w hw)

/-- Two ASCII names with one snake case are spelled alike by all built-in styles. -/
theorem apply_eq_of_snake_eq {casing : Casing} (hcasing : casing.isWordwise) {a b : String}
    (ha : IsAscii a) (hb : IsAscii b) (h : snake.apply a = snake.apply b) :
    casing.apply a = casing.apply b := by
  calc casing.apply a
      = casing.apply (snake.apply a) := (apply_snake hcasing ha).symm
    _ = casing.apply (snake.apply b) := by rw [h]
    _ = casing.apply b := apply_snake hcasing hb

end Casing

/-! ## Identifiers with one file name -/

namespace Settings

/-- Two identifiers that are spelled alike wherever they stand on the native side. -/
structure SpellsAlike (s : Settings) (a b : String) : Prop where
  type : s.nativeType a = s.nativeType b
  typeParam : s.nativeTypeParam a = s.nativeTypeParam b
  field : s.nativeField a = s.nativeField b
  method : s.nativeMethod a = s.nativeMethod b
  localName : s.nativeLocal a = s.nativeLocal b
  constant : s.nativeConst a = s.nativeConst b
  enumOption : s.nativeEnumOption a = s.nativeEnumOption b

theorem spellsAlike_of_fileStem_eq {s : Settings} (hstyles : s.nativeStyles = .native)
    {a b : String} (ha : IsAscii a) (hb : IsAscii b) (h : s.fileStem a = s.fileStem b) :
    s.SpellsAlike a b := by
  rw [fileStem, fileStem, hstyles] at h
  have hsame : ∀ {casing : Casing}, casing.isWordwise → casing.apply a = casing.apply b :=
    fun hcasing => Casing.apply_eq_of_snake_eq hcasing ha hb h
  constructor
  · rw [nativeType, nativeType, hstyles]
    exact hsame rfl
  · rw [nativeTypeParam, nativeTypeParam, hstyles]
    exact hsame rfl
  · rw [nativeField, nativeField, hstyles]
    exact congrArg escapeKeyword (hsame rfl)
  · rw [nativeMethod, nativeMethod, hstyles]
    exact congrArg escapeKeyword (hsame rfl)
  · rw [nativeLocal, nativeLocal, hstyles]
    exact congrArg escapeKeyword (hsame rfl)
  · rw [nativeConst, nativeConst, hstyles]
    exact congrArg escapeKeyword (hsame rfl)
  · rw [nativeEnumOption, nativeEnumOption, hstyles]
    exact congrArg escapeKeyword (hsame rfl)

theorem isAscii_recordBase {s : Settings} {name : String} (hname : IsAscii name)
    (hsuffix : IsAscii s.extSuffix) (ext : Extension) : IsAscii (s.recordBase name ext) := by
  rw [recordBase]
  split
  · intro c hc
    simp only [String.toList_append, List.mem_append] at hc
    rcases hc with (hc | hc) | hc
    · exact hname c hc
    · rw [List.mem_singleton.mp hc]
      decide
    · exact hsuffix c hc
  · exact hname

end Settings

/-- The snake case of an ASCII name is a normal form of it. It has the words of the name, lowered,
so each of the four styles that go by words spells it like the name itself. Under the usual styles,
identifiers with one file name are spelled alike everywhere, and records whose structs go into one
file give them one name. -/
theorem snake_canonical {name : String} (hname : IsAscii name) :
    splitWords (Casing.snake.apply name) =
        (splitWords name).map (fun w => String.ofList (lowerWord w.toList)) ∧
      (∀ casing : Casing, casing.isWordwise →
        casing.apply (Casing.snake.apply name) = casing.apply name) ∧
      Casing.snake.apply (Casing.snake.apply name) = Casing.snake.apply name ∧
      ∀ (s : Settings) (other : String), s.nativeStyles = .native → IsAscii other →
        (s.fileStem name = s.fileStem other → s.SpellsAlike name other) ∧
        ∀ ext ext', IsAscii s.extSuffix → s.recordFileStem name ext = s.recordFileStem other ext' →
          s.structName name ext = s.structName other ext' := by
  refine ⟨?_, fun casing hcasing => Casing.apply_snake hcasing hname, Casing.apply_snake rfl hname,
    fun s other hstyles hother => ⟨?_, fun ext ext' hsuffix hstem => ?_⟩⟩
  · rw [splitWords, splitWords, words_snake hname, List.map_map, List.map_map]
    exact List.map_congr_left fun w _ => by simp
  · exact Settings.spellsAlike_of_fileStem_eq hstyles hname hother
  · have hbase := Settings.isAscii_recordBase hname hsuffix ext
    have hbase' := Settings.isAscii_recordBase hother hsuffix ext'
    exact (Settings.spellsAlike_of_fileStem_eq hstyles hbase hbase' hstem).type

/-- Two names with one snake case, and a name that is spelled like the struct of a record which is
finished by hand. -/
theorem httpServer_canonical :
    Casing.snake.apply "HTTPServer-2" = "http_server_2" ∧
      splitWords "http_server_2" = ["http", "server", "2"] ∧
      Casing.lowerCamel.apply "http_server_2" = Casing.lowerCamel.apply "HTTPServer-2" ∧
      ({} : Settings).SpellsAlike "HTTPServer-2" "http_Server_2" ∧
      ({} : Settings).structName "HTTPServer-Base" {} =
        ({} : Settings).structName "HttpServer" { native := true } := by
  have hserver : IsAscii "HTTPServer-2" := by decide
  have hbase : IsAscii "HTTPServer-Base" := by decide
  have hsnake : Casing.snake.apply "HTTPServer-2" = "http_server_2" := by decide +kernel
  obtain ⟨hwords, hstyles, -, halike⟩ := snake_canonical hserver
  obtain ⟨-, -, -, hstructs⟩ := snake_canonical hbase
  rw [hsnake] at hwords hstyles
  refine ⟨hsnake, ?_, hstyles .lowerCamel rfl, ?_, ?_⟩
  · rw [hwords]
    decide +kernel
  · exact (halike {} "http_Server_2" rfl (by decide)).1 (by decide +kernel)
  · obtain ⟨-, hnames⟩ := hstructs {} "HttpServer" rfl (by decide)
    exact hnames {} { native := true } (by decide) (by decide +kernel)

end IdlBinder

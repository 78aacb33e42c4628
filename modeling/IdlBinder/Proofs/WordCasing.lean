import IdlBinder.Proofs.CamelCase
import Mathlib.Data.List.Basic

set_option autoImplicit false

/-!
# Words and their casing

What the built-in casing styles rest on. A separator ends a word whatever stands around it, so the
words of a joined name are those of its parts, `words_append_separator` and `words_intercalate`.
Small characters without a separator are one word, `words_eq_singleton`. The words of ASCII names
are respelled character by character, `lowerWord_of_ascii` and its companions.
-/

namespace IdlBinder.Name

open IdlBinder.Text

/-! ## Words of joined names -/

/-- The code points of the separators. -/
def separatorCodes : List Nat :=
  List.range' 0x9 5 ++ List.range' 0x2000 11 ++
    [0x20, 0x2D, 0x5F, 0x85, 0xA0, 0x1680, 0x2028, 0x2029, 0x202F, 0x205F, 0x3000]

theorem toNat_mem_separatorCodes {c : Char} (h : isSeparator c) : c.toNat ∈ separatorCodes := by
  simp only [isSeparator, Bool.or_eq_true, beq_iff_eq] at h
  rcases h with (rfl | rfl) | h
  · decide
  · decide
  · simp only [isBlank, Bool.or_eq_true, Bool.and_eq_true, decide_eq_true_eq, beq_iff_eq] at h
    simp only [separatorCodes, List.mem_append, List.mem_range'_1, List.mem_cons, List.not_mem_nil,
      or_false]
    omega

/-- No separator is a small letter. -/
theorem isLowercase_of_isSeparator {c : Char} (h : isSeparator c) : isLowercase c = false := by
  have hall : ∀ n ∈ separatorCodes, isLowercase (Char.ofNat n) = false := by decide +kernel
  rw [← Char.ofNat_toNat c]
  exact hall c.toNat (toNat_mem_separatorCodes h)

/-- A word that ends does so whatever comes after the next separator. -/
theorem endsBefore_append_separator {s : Char} (hs : isSeparator s) (c : Char) (a b : List Char) :
    endsBefore c (a ++ s :: b) = endsBefore c a := by
  rcases a with _ | ⟨d, _ | ⟨e, a⟩⟩
  · simp [endsBefore, hs]
  · -- The separator is looked at as the character after `d`, and says as little as none.
    simp [endsBefore, breaksBetween, isLowercase_of_isSeparator hs]
  · rfl

/-- A character that is no separator stands in front of the first word. -/
theorem exists_words_cons {c : Char} (h : isSeparator c = false) (rest : List Char) :
    ∃ w ws, words (c :: rest) = (c :: w) :: ws := by
  rw [words, if_neg (by simp [h])]
  split
  · exact ⟨[], _, rfl⟩
  · cases words rest with
    | nil => exact ⟨[], [], rfl⟩
    | cons w ws => exact ⟨w, ws, rfl⟩

theorem words_ne_nil_of_endsBefore {c : Char} {rest : List Char} (h : endsBefore c rest = false) :
    words rest ≠ [] := by
  cases rest with
  | nil => simp [endsBefore] at h
  | cons d rest =>
      simp only [endsBefore, Bool.or_eq_false_iff] at h
      obtain ⟨w, ws, hws⟩ := exists_words_cons h.1 rest
      simp [hws]

theorem consHead_append {c : Char} {ws : List (List Char)} (h : ws ≠ []) (vs : List (List Char)) :
    consHead c (ws ++ vs) = consHead c ws ++ vs := by
  cases ws with
  | nil => exact absurd rfl h
  | cons w ws => rfl

/-- The words of two names with a separator between them are the words of the one and then those of
the other. -/
theorem words_append_separator {s : Char} (hs : isSeparator s) (a b : List Char) :
    words (a ++ s :: b) = words a ++ words b := by
  induction a with
  | nil => simp [words, hs]
  | cons c a ih =>
      -- Where the word of `c` ends is decided by up to two characters, before what `b` could say.
      rw [List.cons_append, words, words, endsBefore_append_separator hs, ih]
      by_cases hsep : isSeparator c
      · rw [if_pos hsep, if_pos hsep]
      · rw [if_neg hsep, if_neg hsep]
        by_cases hend : endsBefore c a
        · rw [if_pos hend, if_pos hend, List.cons_append]
        · rw [if_neg hend, if_neg hend]
          exact consHead_append (words_ne_nil_of_endsBefore (by simpa using hend)) _

theorem words_intercalate (parts : List (List Char)) :
    words (['_'].intercalate parts) = parts.flatMap words := by
  cases parts with
  | nil => rfl
  | cons part parts =>
      rw [intercalate_cons, List.flatMap_cons]
      induction parts generalizing part with
      | nil => simp
      | cons next parts ih =>
          rw [List.flatMap_cons, List.flatMap_cons, List.singleton_append, List.cons_append,
            words_append_separator (by decide), ih]

/-- A name has no words iff there are only separators in it. -/
theorem words_eq_nil_iff {cs : List Char} : words cs = [] ↔ ∀ c ∈ cs, isSeparator c := by
  constructor
  · intro h c hc
    have hflat : cs.filter (!isSeparator ·) = [] := by rw [← flatten_words, h]; rfl
    simpa using List.filter_eq_nil_iff.mp hflat c hc
  · intro h
    induction cs with
    | nil => rfl
    | cons c cs ih =>
        rw [words, if_pos (h c List.mem_cons_self)]
        exact ih fun d hd => h d (List.mem_cons_of_mem c hd)

theorem mem_filter_of_mem_words {cs w : List Char} {c : Char} (hw : w ∈ words cs) (hc : c ∈ w) :
    c ∈ cs.filter (!isSeparator ·) := by
  rw [← flatten_words]
  exact List.mem_flatten.mpr ⟨w, hw, hc⟩

theorem mem_of_mem_words {cs w : List Char} {c : Char} (hw : w ∈ words cs) (hc : c ∈ w) : c ∈ cs :=
  (List.mem_filter.mp (mem_filter_of_mem_words hw hc)).1

theorem isSeparator_of_mem_words {cs w : List Char} {c : Char} (hw : w ∈ words cs) (hc : c ∈ w) :
    isSeparator c = false := by
  simpa using (List.mem_filter.mp (mem_filter_of_mem_words hw hc)).2

/-- Where there are neither separators nor capitals, no word ends early. -/
theorem words_eq_singleton {w : List Char} (hne : w ≠ [])
    (h : ∀ c ∈ w, isSeparator c = false ∧ isUppercase c = false) : words w = [w] := by
  induction w with
  | nil => exact absurd rfl hne
  | cons c w ih =>
      obtain ⟨hc, hw⟩ := List.forall_mem_cons.mp h
      rw [words, if_neg (by simp [hc.1])]
      cases w with
      | nil => rfl
      | cons d w =>
          obtain ⟨hd, -⟩ := List.forall_mem_cons.mp hw
          have hend : endsBefore c (d :: w) = false := by
            simp [endsBefore, breaksBetween, hd.1, hd.2]
          rw [if_neg (by simp [hend]), ih (by simp) hw]
          rfl

/-! ## ASCII words -/

/-- A name of ASCII characters. -/
def IsAscii (name : String) : Prop := ∀ c ∈ name.toList, c.toNat < 0x80

instance (name : String) : Decidable (IsAscii name) := List.decidableBAll _ name.toList

/-- What holds of the first 128 code points holds of ASCII characters. -/
theorem of_ascii {P : Char → Prop} (h : ∀ n < 0x80, P (Char.ofNat n)) {c : Char}
    (hc : c.toNat < 0x80) : P c := by
  rw [← Char.ofNat_toNat c]
  exact h c.toNat hc

theorem lowerChar_of_ascii {c : Char} (h : c.toNat < 0x80) : lowerChar c = [c.toLower] := if_pos h

theorem upperChar_of_ascii {c : Char} (h : c.toNat < 0x80) : upperChar c = [c.toUpper] := if_pos h

variable {w : List Char}

theorem lowerWord_of_ascii (h : ∀ c ∈ w, c.toNat < 0x80) : lowerWord w = w.map Char.toLower := by
  have hsinks : w.all sinks := List.all_eq_true.mpr fun c hc => sinks_of_ascii (h c hc)
  rw [lowerWord, lowerAfter_of_sinks [] hsinks, List.map_eq_flatMap]
  exact List.flatMap_congr fun c hc => lowerChar_of_ascii (h c hc)

theorem upperWord_of_ascii (h : ∀ c ∈ w, c.toNat < 0x80) : upperWord w = w.map Char.toUpper := by
  rw [upperWord, List.map_eq_flatMap]
  exact List.flatMap_congr fun c hc => upperChar_of_ascii (h c hc)

theorem capitalize_of_ascii {c : Char} (h : ∀ b ∈ c :: w, b.toNat < 0x80) :
    capitalize (c :: w) = c.toUpper :: w.map Char.toLower := by
  obtain ⟨hc, hw⟩ := List.forall_mem_cons.mp h
  have hrest : w.flatMap lowerChar = w.map Char.toLower := by
    rw [List.map_eq_flatMap]
    exact List.flatMap_congr fun b hb => lowerChar_of_ascii (hw b hb)
  rw [capitalize, upperChar_of_ascii hc, hrest, List.singleton_append]

end IdlBinder.Name

namespace IdlBinder.Casing

/-- Whether a style spells a name word by word. -/
def isWordwise : Casing → Bool
  | upperCamel | lowerCamel | snake | screamingSnake => true
  | verbatim | custom _ => false

end IdlBinder.Casing

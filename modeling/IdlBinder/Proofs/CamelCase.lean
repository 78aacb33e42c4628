import IdlBinder.Name.Casing

set_option autoImplicit false

/-!
# Reading camel case back

Camel case shows where a word starts by a capital only. `legible` says of which names this is
enough: every word after the first starts with a letter that has a capital, and lowering what the
style has done gives the lowered words again. The snake case of such a name can be read off its
camel case (`snakeOfCamel_upperCamel`), so that two of them with one camel case have one snake case.
-/

namespace IdlBinder.Name

open IdlBinder.Text

/-! ## Legible names -/

/-- Whether a character has the same small form as its capital, which is one character. -/
def returns (c : Char) : Bool :=
  match upperChar c with
  | [u] => lowerChar u == lowerChar c
  | _ => false

/-- Whether in addition the capital can be told from small characters. -/
def rises (c : Char) : Bool := returns c && (upperChar c).all isUppercase

/-- Whether a character inside a word is lowered on its own, and to small characters. -/
def sinks (c : Char) : Bool := c != 'Σ' && (lowerChar c).all (!isUppercase ·)

/-- Whether a word can be read back, with a condition on its first character. -/
def legibleWord (start : Char → Bool) : List Char → Bool
  | [] => false
  | c :: rest => start c && rest.all sinks

/-- Whether the words of a name can be read back from its camel case. -/
def legible (name : String) : Bool :=
  match words name.toList with
  | [] => true
  | w :: ws => legibleWord returns w && ws.all (legibleWord rises)

/-! ## ASCII names -/

theorem flatten_consHead (c : Char) (ws : List (List Char)) :
    (consHead c ws).flatten = c :: ws.flatten := by
  cases ws <;> rfl

/-- Words lose nothing but the separators. -/
theorem flatten_words (cs : List Char) : (words cs).flatten = cs.filter (!isSeparator ·) := by
  induction cs using words.induct with
  | case1 => rfl
  | case2 c rest hsep ih => simp [words, hsep, ih]
  | case3 c rest hsep hend ih => simp [words, hsep, hend, ih]
  | case4 c rest hsep hend ih => simp [words, hsep, hend, ih, flatten_consHead]

theorem ne_nil_of_mem_consHead {c : Char} {ws : List (List Char)} {w : List Char}
    (hws : ∀ v ∈ ws, v ≠ []) (h : w ∈ consHead c ws) : w ≠ [] := by
  cases ws with
  | nil => simp_all [consHead]
  | cons v vs =>
      rcases List.mem_cons.mp h with rfl | h
      · simp
      · exact hws w (List.mem_cons_of_mem v h)

/-- No word is empty. -/
theorem ne_nil_of_mem_words {cs w : List Char} (h : w ∈ words cs) : w ≠ [] := by
  induction cs using words.induct generalizing w with
  | case1 => simp [words] at h
  | case2 c rest hsep ih =>
      rw [words, if_pos hsep] at h
      exact ih h
  | case3 c rest hsep hend ih =>
      rw [words, if_neg hsep, if_pos hend] at h
      rcases List.mem_cons.mp h with rfl | h
      · simp
      · exact ih h
  | case4 c rest hsep hend ih =>
      rw [words, if_neg hsep, if_neg hend] at h
      exact ne_nil_of_mem_consHead (fun v hv => ih hv) h

theorem returns_of_ascii {c : Char} (h : c.toNat < 0x80) : returns c := by
  have hall : ∀ n < 0x80, returns (Char.ofNat n) := by decide
  rw [← Char.ofNat_toNat c]
  exact hall _ h

theorem rises_eq_of_ascii {c : Char} (h : c.toNat < 0x80) : rises c = c.isAlpha := by
  have hall : ∀ n < 0x80, rises (Char.ofNat n) = (Char.ofNat n).isAlpha := by decide
  rw [← Char.ofNat_toNat c]
  exact hall _ h

theorem sinks_of_ascii {c : Char} (h : c.toNat < 0x80) : sinks c := by
  have hall : ∀ n < 0x80, sinks (Char.ofNat n) := by decide
  rw [← Char.ofNat_toNat c]
  exact hall _ h

theorem legibleWord_of_ascii {start : Char → Bool} {c : Char} {rest : List Char}
    (h : ∀ b ∈ rest, b.toNat < 0x80) : legibleWord start (c :: rest) = start c := by
  have hrest : rest.all sinks := List.all_eq_true.mpr fun b hb => sinks_of_ascii (h b hb)
  rw [legibleWord, hrest, Bool.and_true]

theorem legibleWord_rises_iff_of_ascii {w : List Char} (h : ∀ b ∈ w, b.toNat < 0x80) :
    legibleWord rises w ↔ ∃ c rest, w = c :: rest ∧ c.isAlpha := by
  cases w with
  | nil => simp [legibleWord]
  | cons c rest =>
      rw [legibleWord_of_ascii fun b hb => h b (List.mem_cons_of_mem c hb),
        rises_eq_of_ascii (h c List.mem_cons_self)]
      simp

theorem ascii_of_mem_words {cs w : List Char} (h : ∀ c ∈ cs, c.toNat < 0x80) (hw : w ∈ words cs) :
    ∀ c ∈ w, c.toNat < 0x80 := by
  intro c hc
  have hflat : c ∈ (words cs).flatten := List.mem_flatten.mpr ⟨w, hw, hc⟩
  rw [flatten_words] at hflat
  exact h c (List.mem_filter.mp hflat).1

/-- An ASCII name is legible iff every word after the first starts with a letter. -/
theorem legible_iff_of_ascii {name : String} (h : ∀ c ∈ name.toList, c.toNat < 0x80) :
    legible name ↔ ∀ w ∈ (words name.toList).tail, ∃ c rest, w = c :: rest ∧ c.isAlpha := by
  have hascii : ∀ w ∈ words name.toList, ∀ c ∈ w, c.toNat < 0x80 :=
    fun w hw => ascii_of_mem_words h hw
  have hne : ∀ w ∈ words name.toList, w ≠ [] := fun w hw => ne_nil_of_mem_words hw
  rw [legible]
  cases hws : words name.toList with
  | nil => simp
  | cons w ws =>
      rw [hws] at hascii hne
      obtain ⟨c, rest, rfl⟩ := List.exists_cons_of_ne_nil (hne w List.mem_cons_self)
      -- Every ASCII character lowers back, so the first word is no condition.
      have hfirst : legibleWord returns (c :: rest) := by
        have hc := hascii _ List.mem_cons_self
        rw [legibleWord_of_ascii fun b hb => hc b (List.mem_cons_of_mem c hb)]
        exact returns_of_ascii (hc c List.mem_cons_self)
      simp only [hfirst, Bool.true_and, List.all_eq_true, List.tail_cons]
      refine forall₂_congr fun v hv => ?_
      exact legibleWord_rises_iff_of_ascii (hascii v (List.mem_cons_of_mem _ hv))

/-! ## Lowering -/

theorem lowerAfter_of_sinks {rest : List Char} (before : List Char) (h : rest.all sinks) :
    lowerAfter before rest = rest.flatMap lowerChar := by
  induction rest generalizing before with
  | nil => rfl
  | cons c rest ih =>
      simp only [List.all_cons, Bool.and_eq_true, sinks, bne_iff_ne] at h
      rw [lowerAfter, if_neg h.1.1, ih _ h.2, List.flatMap_cons]

/-- A word is lowered character by character; a sigma in front is no final one. -/
theorem lowerWord_of_sinks (c : Char) {rest : List Char} (h : rest.all sinks) :
    lowerWord (c :: rest) = lowerChar c ++ rest.flatMap lowerChar := by
  rw [lowerWord, lowerAfter, lowerAfter_of_sinks _ h]
  congr 1
  split
  case isTrue hc =>
    have hbefore : meetsCased [] = false := rfl
    rw [hc, hbefore, Bool.false_and, if_neg Bool.false_ne_true]
    decide
  case isFalse hc => rfl

theorem capitalize_of_returns {c : Char} (h : returns c) (rest : List Char) :
    ∃ u, upperChar c = [u] ∧ capitalize (c :: rest) = u :: rest.flatMap lowerChar ∧
      lowerChar u = lowerChar c := by
  rw [returns] at h
  split at h
  case h_1 u hu => exact ⟨u, hu, by rw [capitalize, hu]; rfl, by simpa using h⟩
  case h_2 => simp at h

/-! ## Reading back -/

/-- What a character of a camel-case name after the first stands for: a capital starts a word. -/
def mark (c : Char) : List Char := if isUppercase c then '_' :: lowerChar c else [c]

/-- The snake case of a name, read off its camel case. -/
def snakeOfCamel : List Char → List Char
  | [] => []
  | c :: rest => lowerChar c ++ rest.flatMap mark

theorem flatMap_mark_of_sinks {rest : List Char} (h : rest.all sinks) :
    (rest.flatMap lowerChar).flatMap mark = rest.flatMap lowerChar := by
  have hsmall : ∀ c ∈ rest.flatMap lowerChar, mark c = [c] := by
    intro c hc
    obtain ⟨b, hb, hcb⟩ := List.mem_flatMap.mp hc
    have hsinks := List.all_eq_true.mp h b hb
    simp only [sinks, Bool.and_eq_true, List.all_eq_true, Bool.not_eq_true'] at hsinks
    rw [mark, if_neg (by simp [hsinks.2 c hcb])]
  -- From here on only that marking keeps each character matters.
  generalize rest.flatMap lowerChar = l at hsmall
  induction l with
  | nil => rfl
  | cons c l ih =>
      rw [List.flatMap_cons, hsmall c (by simp), ih fun x hx => hsmall x (by simp [hx])]
      rfl

/-- The first word is read back without a mark in front. -/
theorem snakeOfCamel_capitalize_append {w : List Char} (h : legibleWord returns w)
    (more : List Char) :
    snakeOfCamel (capitalize w ++ more) = lowerWord w ++ more.flatMap mark := by
  cases w with
  | nil => simp [legibleWord] at h
  | cons c rest =>
      simp only [legibleWord, Bool.and_eq_true] at h
      obtain ⟨u, -, hword, hu⟩ := capitalize_of_returns h.1 rest
      rw [hword, lowerWord_of_sinks c h.2, List.cons_append, snakeOfCamel, List.flatMap_append,
        flatMap_mark_of_sinks h.2, hu, List.append_assoc]

theorem flatMap_mark_capitalize {w : List Char} (h : legibleWord rises w) :
    (capitalize w).flatMap mark = '_' :: lowerWord w := by
  cases w with
  | nil => simp [legibleWord] at h
  | cons c rest =>
      -- The capital in front becomes the mark, and the small characters behind it stay.
      simp only [legibleWord, rises, Bool.and_eq_true] at h
      obtain ⟨u, hupper, hword, hu⟩ := capitalize_of_returns h.1.1 rest
      have hcapital : isUppercase u := by simpa [hupper] using h.1.2
      rw [hword, lowerWord_of_sinks c h.2, List.flatMap_cons, flatMap_mark_of_sinks h.2, mark,
        if_pos hcapital, hu, List.cons_append]

/-- Every further word is read back with a mark in front. -/
theorem flatMap_mark_words {ws : List (List Char)} (h : ws.all (legibleWord rises)) :
    (ws.flatMap capitalize).flatMap mark = (ws.map lowerWord).flatMap (['_'] ++ ·) := by
  induction ws with
  | nil => rfl
  | cons w ws ih =>
      simp only [List.all_cons, Bool.and_eq_true] at h
      rw [List.flatMap_cons, List.flatMap_append, flatMap_mark_capitalize h.1, ih h.2]
      rfl

theorem intercalate_cons {α : Type} (sep first : List α) (rest : List (List α)) :
    sep.intercalate (first :: rest) = first ++ rest.flatMap (sep ++ ·) := by
  induction rest generalizing first with
  | nil => simp
  | cons next rest ih => simp [List.intercalate_cons_cons, ih]

/-- The snake case of a legible name can be read off its camel case. -/
theorem snakeOfCamel_upperCamel {name : String} (h : legible name) :
    String.ofList (snakeOfCamel (Casing.upperCamel.apply name).toList) =
      Casing.snake.apply name := by
  simp only [Casing.apply, String.toList_ofList]
  congr 1
  rw [legible] at h
  split at h
  case h_1 hwords => rw [hwords]; rfl
  case h_2 w ws hwords =>
    rw [hwords]
    simp only [Bool.and_eq_true] at h
    rw [List.flatMap_cons, snakeOfCamel_capitalize_append h.1, flatMap_mark_words h.2,
      List.map_cons, intercalate_cons]

/-- Two legible names with one camel case have one snake case. -/
theorem snake_eq_of_upperCamel_eq {a b : String} (ha : legible a) (hb : legible b)
    (h : Casing.upperCamel.apply a = Casing.upperCamel.apply b) :
    Casing.snake.apply a = Casing.snake.apply b := by
  rw [← snakeOfCamel_upperCamel ha, h, snakeOfCamel_upperCamel hb]

end IdlBinder.Name

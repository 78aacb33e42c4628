import IdlBinder.Proofs.WordCasing

set_option autoImplicit false

/-!
# Where words end

The characters of a name that are no separators stand in its words one after the other, so each has
a place there. The number of its word is the number of the word ends before it, `placeOf_succ`, and
this decides which neighbours are in one word, `placeOf_ne_iff`, and that a separator parts,
`placeOf_lt`.

The words can also be found in a single reading from left to right, which keeps the words that have
ended and the current one, and looks back at the character before a capital. `Scan.OnTrack` says
where such a reading stands. Each step keeps it, `Scan.OnTrack.step`, so the reading never looks
back before the name or into another word, and finds the words of the name, `scan_eq_words`.
-/

namespace IdlBinder.Name

open IdlBinder.Text

/-! ## The place of a character -/

/-- Where the `k`-th character of all words stands: in which word, and at which position there. -/
def place : List (List Char) → Nat → Nat × Nat
  | [], k => (0, k)
  | w :: ws, k => if k < w.length then (0, k) else (place ws (k - w.length)).map (· + 1) id

/-- Where the character at a position of a name stands among its words, separators not counted. -/
def placeOf (cs : List Char) (i : Nat) : Nat × Nat :=
  place (words cs) ((cs.take i).countP (!isSeparator ·))

theorem getElem?_place (ws : List (List Char)) (k : Nat) :
    ws[(place ws k).1]?.bind (fun w => w[(place ws k).2]?) = ws.flatten[k]? := by
  induction ws generalizing k with
  | nil => rfl
  | cons w ws ih =>
      rw [place, List.flatten_cons]
      split
      case isTrue hk => simp [List.getElem?_append_left hk]
      case isFalse hk =>
        rw [List.getElem?_append_right (Nat.le_of_not_lt hk), ← ih]
        simp

/-- Where a character goes when those of another sort are left out. -/
theorem getElem?_filter_countP {p : Char → Bool} {cs : List Char} {i : Nat} {c : Char}
    (h : cs[i]? = some c) (hc : p c) : (cs.filter p)[(cs.take i).countP p]? = some c := by
  induction cs generalizing i with
  | nil => simp at h
  | cons d cs ih =>
      cases i with
      | zero =>
          have hd : d = c := by simpa using h
          simp [hd, hc]
      | succ i =>
          have hnext := ih (i := i) (by simpa using h)
          by_cases hd : p d
          · simpa [hd] using hnext
          · simpa [hd] using hnext

/-- A character that is no separator stands at its place. -/
theorem getElem?_placeOf {cs : List Char} {i : Nat} {c : Char} (h : cs[i]? = some c)
    (hc : isSeparator c = false) :
    ∃ w, (words cs)[(placeOf cs i).1]? = some w ∧ w[(placeOf cs i).2]? = some c := by
  have hfound : (words cs).flatten[(cs.take i).countP (!isSeparator ·)]? = some c := by
    rw [flatten_words]
    exact getElem?_filter_countP h (by simp [hc])
  rw [← getElem?_place] at hfound
  exact Option.bind_eq_some_iff.mp hfound

theorem placeOf_zero (cs : List Char) : (placeOf cs 0).1 = 0 := by
  rw [placeOf, List.take_zero, List.countP_nil]
  cases hws : words cs with
  | nil => rfl
  | cons w ws =>
      have hw : w ≠ [] := ne_nil_of_mem_words (hws ▸ List.mem_cons_self)
      rw [place, if_pos (List.length_pos_iff.mpr hw)]

/-- A character in front of the first word moves the others in it by one. -/
theorem place_consHead_fst (c : Char) {ws : List (List Char)} (h : ws ≠ []) (k : Nat) :
    (place (consHead c ws) (k + 1)).1 = (place ws k).1 := by
  obtain ⟨w, ws, rfl⟩ := List.exists_cons_of_ne_nil h
  rw [consHead, place, place, List.length_cons]
  by_cases hk : k < w.length
  · rw [if_pos hk, if_pos (Nat.succ_lt_succ hk)]
  · rw [if_neg hk, if_neg (by omega), Nat.add_sub_add_right]

/-- The number of a word is the number of the word ends before it. -/
theorem placeOf_succ (c : Char) (cs : List Char) (i : Nat) :
    (placeOf (c :: cs) (i + 1)).1 =
      (placeOf cs i).1 + if !isSeparator c && endsBefore c cs then 1 else 0 := by
  rw [placeOf, placeOf, List.take_succ_cons, List.countP_cons, words]
  by_cases hsep : isSeparator c
  · simp [hsep]
  · by_cases hend : endsBefore c cs
    · simp [hsep, hend, place]
    · have hws : words cs ≠ [] := words_ne_nil_of_endsBefore (by simpa using hend)
      simp [hsep, hend, place_consHead_fst c hws]

/-! ## Neighbours -/

/-- Two neighbours are in one word, unless it ends between them. -/
theorem placeOf_ne_iff {cs : List Char} {i : Nat} {a b : Char} (ha : cs[i]? = some a)
    (hb : cs[i + 1]? = some b) (hsepa : isSeparator a = false) (hsepb : isSeparator b = false) :
    (placeOf cs i).1 ≠ (placeOf cs (i + 1)).1 ↔ breaksBetween a b cs[i + 2]? := by
  induction cs generalizing i with
  | nil => simp at ha
  | cons c cs ih =>
      cases i with
      | zero =>
          have hne : cs ≠ [] := by
            rintro rfl
            simp at hb
          obtain ⟨d, cs, rfl⟩ := List.exists_cons_of_ne_nil hne
          have hc : c = a := by simpa using ha
          have hd : d = b := by simpa using hb
          subst hc hd
          rw [placeOf_zero, placeOf_succ, placeOf_zero, List.getElem?_cons_succ,
            List.getElem?_cons_succ, ← List.head?_eq_getElem?]
          simp [hsepa, endsBefore, hsepb]
      | succ i =>
          rw [placeOf_succ, placeOf_succ, ne_eq, Nat.add_right_cancel_iff]
          exact ih (by simpa using ha) (by simpa using hb)

/-- Characters with a separator between them are in different words. -/
theorem placeOf_lt {cs : List Char} {i k j : Nat} {a s : Char} (ha : cs[i]? = some a)
    (hs : cs[k]? = some s) (hsepa : isSeparator a = false) (hseps : isSeparator s) (hik : i < k)
    (hkj : k < j) : (placeOf cs i).1 < (placeOf cs j).1 := by
  induction cs generalizing i k j a with
  | nil => simp at ha
  | cons c cs ih =>
      obtain ⟨k, rfl⟩ := Nat.exists_eq_add_one_of_ne_zero (Nat.ne_zero_of_lt hik)
      obtain ⟨j, rfl⟩ := Nat.exists_eq_add_one_of_ne_zero (Nat.ne_zero_of_lt hkj)
      have hs : cs[k]? = some s := by simpa using hs
      have hkj : k < j := Nat.lt_of_succ_lt_succ hkj
      rw [placeOf_succ]
      cases i with
      | zero =>
          have hc : c = a := by simpa using ha
          subst hc
          rw [placeOf_zero]
          by_cases hend : endsBefore c cs
          · simp [hsepa, hend]
          · -- The word goes on with the next character, which is still before the separator.
            have hne : cs ≠ [] := by
              rintro rfl
              simp at hs
            obtain ⟨d, cs, rfl⟩ := List.exists_cons_of_ne_nil hne
            have hd : isSeparator d = false := by
              simp only [endsBefore, Bool.or_eq_true, not_or, Bool.not_eq_true] at hend
              exact hend.1
            have hk : k ≠ 0 := by
              rintro rfl
              have hds : d = s := by simpa using hs
              rw [hds, hseps] at hd
              cases hd
            have hrest := ih (i := 0) (by simp) hs hd (Nat.pos_of_ne_zero hk) hkj
            omega
      | succ i =>
          rw [placeOf_succ]
          have hrest := ih (by simpa using ha) hs hsepa (Nat.lt_of_succ_lt_succ hik) hkj
          omega

/-! ## Reading a name from left to right -/

/-- How far a reading has come: the words that have ended, and the characters of the current one. -/
structure Scan where
  done : List (List Char) := []
  current : List Char := []
deriving DecidableEq

namespace Scan

/-- Ends the current word, if there is one. -/
def close (s : Scan) : Scan := if s.current.isEmpty then s else ⟨s.done ++ [s.current], []⟩

/-- Adds a character to the current word. -/
def push (s : Scan) (c : Char) : Scan := { s with current := s.current ++ [c] }

/-- Whether the character before `c` is looked at: a capital might end the current word. -/
def looksBack (s : Scan) (c : Char) : Bool := isUppercase c && !s.current.isEmpty

end Scan

/-- The character before a position; there is none before the first one. -/
def before? (cs : List Char) : Nat → Option Char
  | 0 => none
  | i + 1 => cs[i]?

/-- Reads the character at a position. It fails where there is none, or none to look back at. -/
def scanAt (cs : List Char) (s : Scan) (i : Nat) : Option Scan :=
  cs[i]?.bind fun c =>
    if isSeparator c then some s.close
    else if s.looksBack c then
      (before? cs i).map fun b => (if breaksBetween b c cs[i + 1]? then s.close else s).push c
    else some (s.push c)

/-- How far a reading has come after so many characters. -/
def scanTo (cs : List Char) (n : Nat) : Option Scan := (List.range n).foldlM (scanAt cs) {}

/-- The words that a reading finds. -/
def scan (cs : List Char) : Option (List (List Char)) :=
  (scanTo cs cs.length).map (·.close.done)

/-- The words that follow when the word `u` has been begun. -/
def resume (u rest : List Char) : List (List Char) :=
  match u.getLast? with
  | none => words rest
  | some a => u.dropLast.foldr consHead (words (a :: rest))

theorem resume_nil (rest : List Char) : resume [] rest = words rest := rfl

theorem resume_concat (u : List Char) (a : Char) (rest : List Char) :
    resume (u ++ [a]) rest = u.foldr consHead (words (a :: rest)) := by
  simp [resume]

theorem foldr_consHead (u w : List Char) (ws : List (List Char)) :
    u.foldr consHead (w :: ws) = (u ++ w) :: ws := by
  induction u with
  | nil => rfl
  | cons c u ih => rw [List.foldr_cons, ih, consHead, List.cons_append]

/-- A word that was begun ends here. -/
theorem resume_of_endsBefore {a : Char} (ha : isSeparator a = false) (u : List Char)
    {rest : List Char} (h : endsBefore a rest) :
    resume (u ++ [a]) rest = (u ++ [a]) :: words rest := by
  rw [resume_concat, words, if_neg (by simp [ha]), if_pos h, foldr_consHead]

/-- A word that was begun goes on. -/
theorem resume_of_continues {a : Char} (ha : isSeparator a = false) (u : List Char) {c : Char}
    {rest : List Char} (h : endsBefore a (c :: rest) = false) :
    resume (u ++ [a]) (c :: rest) = resume (u ++ [a] ++ [c]) rest := by
  rw [resume_concat, resume_concat, List.foldr_append, words, if_neg (by simp [ha]),
    if_neg (by simp [h])]
  rfl

/-- What holds of a reading that has come to a position: the current word is what was read last, has
no separators, and the words of the name are those that have ended and those that follow. -/
structure Scan.OnTrack (cs : List Char) (i : Nat) (s : Scan) : Prop where
  read : s.current <:+ cs.take i
  clean : ∀ c ∈ s.current, isSeparator c = false
  words_eq : words cs = s.done ++ resume s.current (cs.drop i)

variable {cs : List Char} {i : Nat} {s : Scan} {c : Char}

theorem take_of_getElem? (hc : cs[i]? = some c) : cs.take (i + 1) = cs.take i ++ [c] := by
  rw [List.take_add_one, hc]
  rfl

theorem drop_of_getElem? (hc : cs[i]? = some c) : cs.drop i = c :: cs.drop (i + 1) := by
  obtain ⟨hi, hget⟩ := List.getElem?_eq_some_iff.mp hc
  rw [List.drop_eq_getElem_cons hi, hget]

theorem endsBefore_drop (hc : cs[i]? = some c) (a : Char) :
    endsBefore a (cs.drop i) = (isSeparator c || breaksBetween a c cs[i + 1]?) := by
  rw [drop_of_getElem? hc, endsBefore, List.head?_drop]

namespace Scan

theorem current_close (s : Scan) : s.close.current = [] := by
  rw [close]
  split
  case isTrue h => exact List.isEmpty_iff.mp h
  case isFalse => rfl

theorem exists_last_of_looksBack (h : s.looksBack c) : ∃ a, s.current.getLast? = some a := by
  refine Option.isSome_iff_exists.mp (List.getLast?_isSome.mpr ?_)
  intro hnil
  simp [looksBack, hnil] at h

/-- Looking back shows the last character of the current word. -/
theorem OnTrack.before?_eq (h : s.OnTrack cs i) (hi : i ≤ cs.length) {a : Char}
    (ha : s.current.getLast? = some a) : before? cs i = some a := by
  obtain ⟨t, ht⟩ := h.read
  have hlast : (cs.take i).getLast? = some a := by
    rw [← ht, List.getLast?_append, ha]
    rfl
  cases i with
  | zero => simp at hlast
  | succ i =>
      have hget : cs[i]? = some cs[i] := List.getElem?_eq_getElem hi
      rw [take_of_getElem? hget, List.getLast?_concat] at hlast
      rw [before?, hget, hlast]

/-- The words of a name when the current one ends here. -/
theorem OnTrack.words_eq_close (h : s.OnTrack cs i)
    (hends : ∀ a, s.current.getLast? = some a → endsBefore a (cs.drop i)) :
    words cs = s.close.done ++ words (cs.drop i) := by
  rw [h.words_eq, close]
  rcases List.eq_nil_or_concat' s.current with hnil | ⟨u, a, hcurrent⟩
  · simp [hnil, resume_nil]
  · have ha : isSeparator a = false := h.clean a (by simp [hcurrent])
    rw [hcurrent, resume_of_endsBefore ha u (hends a (by simp [hcurrent]))]
    simp

/-- A separator ends the current word. -/
theorem OnTrack.close (h : s.OnTrack cs i) (hc : cs[i]? = some c) (hsep : isSeparator c) :
    s.close.OnTrack cs (i + 1) where
  read := by simp [current_close]
  clean := by simp [current_close]
  words_eq := by
    have hends : ∀ a, s.current.getLast? = some a → endsBefore a (cs.drop i) := by
      intro a _
      simp [endsBefore_drop hc, hsep]
    rw [h.words_eq_close hends, drop_of_getElem? hc, words, if_pos hsep, current_close, resume_nil]

/-- A capital before which a word ends begins the next one. -/
theorem OnTrack.close_push (h : s.OnTrack cs i) (hc : cs[i]? = some c)
    (hsep : isSeparator c = false)
    (hbreak : ∀ a, s.current.getLast? = some a → breaksBetween a c cs[i + 1]?) :
    (s.close.push c).OnTrack cs (i + 1) where
  read := by
    rw [push, current_close, take_of_getElem? hc]
    exact List.suffix_append _ _
  clean := by simp [push, current_close, hsep]
  words_eq := by
    have hends : ∀ a, s.current.getLast? = some a → endsBefore a (cs.drop i) := by
      intro a ha
      simp [endsBefore_drop hc, hbreak a ha]
    rw [h.words_eq_close hends, drop_of_getElem? hc, push, current_close, resume_concat]
    rfl

/-- Any other character goes on with the current word, or begins one. -/
theorem OnTrack.push (h : s.OnTrack cs i) (hc : cs[i]? = some c) (hsep : isSeparator c = false)
    (hgoesOn : ∀ a, s.current.getLast? = some a → breaksBetween a c cs[i + 1]? = false) :
    (s.push c).OnTrack cs (i + 1) where
  read := by
    obtain ⟨t, ht⟩ := h.read
    exact ⟨t, by rw [Scan.push, take_of_getElem? hc, ← ht, List.append_assoc]⟩
  clean := by
    intro d hd
    rcases List.mem_append.mp hd with hd | hd
    · exact h.clean d hd
    · rw [List.mem_singleton.mp hd, hsep]
  words_eq := by
    rw [h.words_eq, Scan.push]
    rcases List.eq_nil_or_concat' s.current with hnil | ⟨u, a, hcurrent⟩
    · rw [hnil, resume_nil, resume_concat, drop_of_getElem? hc, List.foldr_nil]
    · have ha : isSeparator a = false := h.clean a (by simp [hcurrent])
      have hends : endsBefore a (cs.drop i) = false := by
        simp [endsBefore_drop hc, hsep, hgoesOn a (by simp [hcurrent])]
      rw [drop_of_getElem? hc] at hends ⊢
      rw [hcurrent, resume_of_continues ha u hends]

/-- One step of a reading does not fail, and stays on track. -/
theorem OnTrack.step (h : s.OnTrack cs i) (hc : cs[i]? = some c) :
    ∃ t, scanAt cs s i = some t ∧ t.OnTrack cs (i + 1) := by
  have hi : i ≤ cs.length := Nat.le_of_lt (List.getElem?_eq_some_iff.mp hc).1
  rw [scanAt, hc, Option.bind_some]
  by_cases hsep : isSeparator c
  · rw [if_pos hsep]
    exact ⟨_, rfl, h.close hc hsep⟩
  · have hsep' : isSeparator c = false := by simpa using hsep
    rw [if_neg hsep]
    by_cases hback : s.looksBack c
    · rw [if_pos hback]
      obtain ⟨a, ha⟩ := exists_last_of_looksBack hback
      have honly : ∀ {b}, s.current.getLast? = some b → b = a := by
        intro b hb
        simpa [hb] using ha
      refine ⟨_, by rw [h.before?_eq hi ha, Option.map_some], ?_⟩
      split
      case isTrue hbreak =>
        exact h.close_push hc hsep' fun b hb => honly hb ▸ hbreak
      case isFalse hbreak =>
        exact h.push hc hsep' fun b hb => by simpa [honly hb] using hbreak
    · rw [if_neg hback]
      refine ⟨_, rfl, h.push hc hsep' fun a ha => ?_⟩
      -- No capital ends a word here, for the character is none or there is no word to end.
      have hne : s.current ≠ [] := by
        intro hnil
        simp [hnil] at ha
      have hup : isUppercase c = false := by simpa [looksBack, hne] using hback
      simp [breaksBetween, hup]

/-- A reading gets to every position, and is on track there. -/
theorem exists_onTrack (hi : i ≤ cs.length) :
    ∃ s, scanTo cs i = some s ∧ s.OnTrack cs i := by
  induction i with
  | zero => exact ⟨{}, rfl, by simp, by simp, rfl⟩
  | succ i ih =>
      obtain ⟨s, hs, htrack⟩ := ih (Nat.le_of_succ_le hi)
      obtain ⟨t, ht, hnext⟩ := htrack.step (List.getElem?_eq_getElem hi)
      refine ⟨t, ?_, hnext⟩
      rw [scanTo] at hs ⊢
      rw [List.range_succ, List.foldlM_append, hs]
      simpa using ht

/-- Wherever a reading looks back, there is a character before, and it is the last of the current
word. -/
theorem exists_before (hs : scanTo cs i = some s) (hc : cs[i]? = some c) (hback : s.looksBack c) :
    1 ≤ i ∧ ∃ b, cs[i - 1]? = some b ∧ s.current.getLast? = some b := by
  have hi : i ≤ cs.length := Nat.le_of_lt (List.getElem?_eq_some_iff.mp hc).1
  obtain ⟨t, ht, htrack⟩ := exists_onTrack hi
  obtain rfl : s = t := by simpa [hs] using ht
  obtain ⟨b, hb⟩ := exists_last_of_looksBack hback
  have hbefore := htrack.before?_eq hi hb
  cases i with
  | zero => cases hbefore
  | succ i => exact ⟨Nat.succ_pos i, b, hbefore, hb⟩

end Scan

/-- Reading a name from left to right gives its words. -/
theorem scan_eq_words (cs : List Char) : scan cs = some (words cs) := by
  obtain ⟨s, hs, htrack⟩ := Scan.exists_onTrack (Nat.le_refl cs.length)
  have hwords := htrack.words_eq_close (by simp [endsBefore])
  rw [scan, hs, Option.map_some, hwords, List.drop_length]
  simp [words]

/-! ## The words of a name -/

theorem breaksBetween_iff {a b : Char} {next : Option Char} :
    breaksBetween a b next ↔
      isUppercase b ∧ (isLowercase a ∨ a.isDigit ∨
        isUppercase a ∧ ∃ c, next = some c ∧ isLowercase c) := by
  simp only [breaksBetween, Bool.and_eq_true, Bool.or_eq_true, Option.any_eq_true, or_assoc]

/-- The words of a name are not empty, have no separators in them, and together are the name without
its separators. Each other character has a place in them. Of two neighbours the second begins a word
iff it is a capital and the first is a small letter or a digit, or a capital with a small letter
after the two; characters with a separator between them are in different words. A reading from left
to right finds these words. Wherever it looks back it is past the first character, and what it sees
is the last character of the current word. -/
theorem splitWords_boundaries (name : String) :
    (∀ w ∈ splitWords name, w ≠ "" ∧ ∀ c ∈ w.toList, isSeparator c = false) ∧
      String.join (splitWords name) = String.ofList (name.toList.filter (!isSeparator ·)) ∧
      (∀ i c, name.toList[i]? = some c → isSeparator c = false →
        ∃ w, (splitWords name)[(placeOf name.toList i).1]? = some w ∧
          w.toList[(placeOf name.toList i).2]? = some c) ∧
      (∀ i a b, name.toList[i]? = some a → name.toList[i + 1]? = some b →
        isSeparator a = false → isSeparator b = false →
        ((placeOf name.toList i).1 ≠ (placeOf name.toList (i + 1)).1 ↔
          isUppercase b ∧ (isLowercase a ∨ a.isDigit ∨
            isUppercase a ∧ ∃ c, name.toList[i + 2]? = some c ∧ isLowercase c))) ∧
      (∀ i k j a s, i < k → k < j → name.toList[i]? = some a → name.toList[k]? = some s →
        isSeparator a = false → isSeparator s →
        (placeOf name.toList i).1 < (placeOf name.toList j).1) ∧
      (scan name.toList).map (·.map String.ofList) = some (splitWords name) ∧
      ∀ i s c, scanTo name.toList i = some s → name.toList[i]? = some c → s.looksBack c →
        1 ≤ i ∧ ∃ b, name.toList[i - 1]? = some b ∧ s.current.getLast? = some b := by
  refine ⟨?_, ?_, ?_, ?_, ?_, ?_, ?_⟩
  · intro w hw
    obtain ⟨v, hv, rfl⟩ := List.mem_map.mp hw
    simpa using ⟨ne_nil_of_mem_words hv, fun c hc => isSeparator_of_mem_words hv hc⟩
  · rw [← String.toList_inj, String.toList_ofList, ← flatten_words, splitWords]
    simp [List.flatMap_map, List.flatMap_id']
  · intro i c hc hsep
    obtain ⟨w, hw, hwc⟩ := getElem?_placeOf hc hsep
    exact ⟨String.ofList w, by simp [splitWords, hw], by simpa using hwc⟩
  · intro i a b ha hb hsepa hsepb
    rw [placeOf_ne_iff ha hb hsepa hsepb, breaksBetween_iff]
  · intro i k j a s hik hkj ha hs hsepa hseps
    exact placeOf_lt ha hs hsepa hseps hik hkj
  · rw [scan_eq_words, Option.map_some, splitWords]
  · intro i s c hs hc hback
    exact Scan.exists_before hs hc hback

theorem httpServer_boundaries :
    splitWords "HTTPServer2Go-x" = ["HTTP", "Server2", "Go", "x"] ∧
      (placeOf "HTTPServer2Go-x".toList 3).1 ≠ (placeOf "HTTPServer2Go-x".toList 4).1 ∧
      (placeOf "HTTPServer2Go-x".toList 12).1 < (placeOf "HTTPServer2Go-x".toList 14).1 ∧
      ∃ s, scanTo "HTTPServer2Go-x".toList 4 = some s ∧ s.looksBack 'S' ∧
        ∃ b, "HTTPServer2Go-x".toList[3]? = some b ∧ s.current.getLast? = some b := by
  obtain ⟨-, -, -, hparted, hapart, hscan, hback⟩ := splitWords_boundaries "HTTPServer2Go-x"
  have hread : scanTo "HTTPServer2Go-x".toList 4 = some ⟨[], "HTTP".toList⟩ := by decide +kernel
  refine ⟨?_, ?_, ?_, _, hread, ?_, ?_⟩
  · exact Option.some.inj (hscan.symm.trans (by decide +kernel))
  · refine (hparted 3 'P' 'S' rfl rfl ?_ ?_).mpr ⟨?_, .inr (.inr ⟨?_, 'e', rfl, ?_⟩)⟩ <;>
      decide +kernel
  · refine hapart 12 13 14 'o' '-' (by decide) (by decide) rfl rfl ?_ ?_ <;> decide +kernel
  · decide +kernel
  · exact (hback 4 _ 'S' hread rfl (by decide +kernel)).2

end IdlBinder.Name

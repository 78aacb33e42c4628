import IdlBinder.Json.Printer
import IdlBinder.Json.Reader

set_option autoImplicit false

/-!
# Reading what is written in JSON

The text of a value is read in two steps, and each step has its own inverse: the characters of a
value are scanned into its tokens (`IsPlain.scans`), and the tokens are put together to the value
(`IsPlain.reads`). Both hold wherever the value stands, the first after any tokens and the
second in any open containers. A value that has a text of its own is `IsPlain`: its strings and keys
mean something, and its numbers are integers of 64 bits.
-/

namespace IdlBinder.Json

/-- Values without defects whose numbers are integers of 64 bits. -/
inductive IsPlain : Json → Prop where
  | null : IsPlain .null
  | bool (b : Bool) : IsPlain (.bool b)
  | int {i : Int} : -Nat.pow 2 63 ≤ i → i < Nat.pow 2 64 → IsPlain (.int i)
  | text (s : String) : IsPlain (.text s)
  | array {items : List Json} : (∀ j ∈ items, IsPlain j) → IsPlain (.array items)
  | object {members : List (Option String × Json)} : (∀ m ∈ members, ∃ k, m.1 = some k) →
      (∀ m ∈ members, IsPlain m.2) → IsPlain (.object members)

/-! ## Tokens -/

mutual

/-- The tokens of a value. -/
def tokens : Json → List Token
  | null => [.null]
  | bool b => [.bool b]
  | number n => [.number n]
  | string s => [.string s]
  | array items => .beginArray :: (itemTokens items ++ [.endArray])
  | object members => .beginObject :: (memberTokens members ++ [.endObject])

/-- The tokens of the items of an array. -/
def itemTokens : List Json → List Token
  | [] => []
  | [j] => j.tokens
  | j :: k :: rest => j.tokens ++ .comma :: itemTokens (k :: rest)

/-- The tokens of the members of an object. -/
def memberTokens : List (Option String × Json) → List Token
  | [] => []
  | [(k, j)] => .string k :: .colon :: j.tokens
  | (k, j) :: m :: rest => .string k :: .colon :: (j.tokens ++ .comma :: memberTokens (m :: rest))

end

namespace Reader

/-- A value can be read from its tokens, in whatever containers it stands. -/
def Reads (j : Json) : Prop :=
  ∀ stack, j.tokens.foldlM step (value stack) = some (after stack j)

theorem read_items {items : List Json} (h : ∀ j ∈ items, Reads j) {j : Json} (hj : Reads j)
    (stack : List Frame) (done : List Json) :
    (itemTokens (j :: items) ++ [Token.endArray]).foldlM step (value (.array done :: stack)) =
      some (after stack (.array (done.reverse ++ j :: items))) := by
  induction items generalizing j done with
  | nil => simp [itemTokens, hj _, step]
  | cons k items ih =>
      have hk : Reads k := h k List.mem_cons_self
      have hrest := ih (fun j hj => h j (List.mem_cons_of_mem k hj)) hk (j :: done)
      simp only [List.reverse_cons, List.append_assoc, List.singleton_append] at hrest
      simp [itemTokens, hj _, step, ← hrest]

theorem read_members {members : List (Option String × Json)} (h : ∀ m ∈ members, Reads m.2)
    {m : Option String × Json} (hm : Reads m.2) (stack : List Frame)
    (done : List (Option String × Json)) :
    (memberTokens (m :: members) ++ [Token.endObject]).foldlM step (key stack done) =
      some (after stack (.object (done.reverse ++ m :: members))) := by
  induction members generalizing m done with
  | nil => simp [memberTokens, hm _, step]
  | cons n members ih =>
      have hn : Reads n.2 := h n List.mem_cons_self
      have hrest := ih (fun m hm => h m (List.mem_cons_of_mem n hm)) hn (m :: done)
      simp only [List.reverse_cons, List.append_assoc, List.singleton_append] at hrest
      simp [memberTokens, hm _, step, ← hrest]

/-- The first item of an array is read like any other value. -/
theorem foldlM_item (j : Json) (items : List Json) (stack : List Frame) :
    (itemTokens (j :: items) ++ [Token.endArray]).foldlM step (item stack) =
      (itemTokens (j :: items) ++ [Token.endArray]).foldlM step (value (.array [] :: stack)) := by
  cases items <;> cases j <;> rfl

end Reader

theorem IsPlain.reads {j : Json} (h : j.IsPlain) : Reader.Reads j := by
  intro stack
  -- The open containers are any: the parts of a value are read inside of it.
  induction h generalizing stack with
  | null => rfl
  | bool b => rfl
  | int _ _ => rfl
  | text s => rfl
  | @array items _ ih =>
      cases items with
      | nil => rfl
      | cons j items =>
          obtain ⟨hj, hitems⟩ := List.forall_mem_cons.mp ih
          exact (Reader.foldlM_item j items stack).trans (Reader.read_items hitems hj stack [])
  | @object members _ _ ih =>
      cases members with
      | nil => rfl
      | cons m members =>
          obtain ⟨hm, hmembers⟩ := List.forall_mem_cons.mp ih
          exact Reader.read_members hmembers hm stack []

/-! ## Characters -/

namespace Scanner

variable {s : Scanner} {ts : List Token}

/-- A scanner that has finished its tokens but for the end of a word or number. -/
def Ends (s : Scanner) (ts : List Token) : Prop := s.close = some ⟨ts, .gap⟩

/-- A character that belongs to no word or number ends them. -/
theorem Ends.step_eq (h : s.Ends ts) {c : Char} (hword : isWordChar c = false)
    (hnumeral : isNumeralChar c = false) : s.step c = begin ⟨ts, .gap⟩ c := by
  obtain ⟨tokens, inside⟩ := s
  cases inside with
  | gap =>
      cases h
      rfl
  | word letters =>
      have hclose : close ⟨tokens, .word letters⟩ = some ⟨ts, .gap⟩ := h
      simp [step, hword, hclose]
  | numeral chars =>
      have hclose : close ⟨tokens, .numeral chars⟩ = some ⟨ts, .gap⟩ := h
      simp [step, hnumeral, hclose]
  | string _ => cases h
  | escape _ => cases h
  | hex _ _ _ => cases h

/-- What has been read of a string, last first: characters, and control characters by number. -/
inductive Pieces : List Piece → List Char → Prop where
  | nil : Pieces [] []
  | char {ps : List Piece} {cs : List Char} (c : Char) : Pieces ps cs →
      Pieces (.char c :: ps) (c :: cs)
  | unit {ps : List Piece} {cs : List Char} {c : Char} : c.toNat < 0x20 → Pieces ps cs →
      Pieces (.unit c.toNat :: ps) (c :: cs)

theorem Pieces.assemble_eq {ps : List Piece} {cs : List Char} (h : Pieces ps cs)
    (tail : List Char) : assemble ps tail = some (cs.reverse ++ tail) := by
  induction h generalizing tail with
  | nil => rfl
  | char c _ ih => simp [assemble, ih]
  | @unit ps cs c hc _ ih =>
      have hlow : isLowUnit c.toNat = false := by simp [isLowUnit]; omega
      have hhigh : isHighUnit c.toNat = false := by simp [isHighUnit]; omega
      cases ps with
      | nil => simp [assemble, hlow, hhigh, ← ih]
      | cons p ps =>
          cases p <;> simp [assemble, hlow, hhigh, ← ih]

theorem hexValue?_hexDigit : ∀ n < 16, hexValue? (hexDigit n) = some n := by decide

/-- A character of a string is read back. -/
theorem scan_escapeChar (ts : List Token) {ps : List Piece} {cs : List Char} (h : Pieces ps cs)
    (c : Char) :
    ∃ ps', Pieces ps' (c :: cs) ∧
      (escapeChar c).foldlM step ⟨ts, .string ps⟩ = some ⟨ts, .string ps'⟩ := by
  rw [escapeChar]
  split
  case isTrue hc =>
    subst hc
    exact ⟨_, .char _ h, rfl⟩
  case isFalse hquote =>
    split
    case isTrue hc =>
      subst hc
      exact ⟨_, .char _ h, rfl⟩
    case isFalse hback =>
      split
      case isTrue hc =>
        refine ⟨_, .unit hc h, ?_⟩
        have hhigh := hexValue?_hexDigit (c.toNat / 16) (by omega)
        have hlow := hexValue?_hexDigit (c.toNat % 16) (by omega)
        have hzero : hexValue? '0' = some 0 := by decide
        have hsum : c.toNat / 16 * 16 + c.toNat % 16 = c.toNat := by omega
        simp [step, hhigh, hlow, hzero, hsum]
      case isFalse hc => exact ⟨_, .char c h, by simp [step, hquote, hback, hc]⟩

theorem scan_escaped (ts : List Token) (cs : List Char) {ps : List Piece} {done : List Char}
    (h : Pieces ps done) :
    ∃ ps', Pieces ps' (cs.reverse ++ done) ∧
      (cs.flatMap escapeChar).foldlM step ⟨ts, .string ps⟩ = some ⟨ts, .string ps'⟩ := by
  induction cs generalizing ps done with
  | nil => exact ⟨ps, h, rfl⟩
  | cons c cs ih =>
      obtain ⟨ps₁, h₁, hc⟩ := scan_escapeChar ts h c
      obtain ⟨ps₂, h₂, hcs⟩ := ih h₁
      refine ⟨ps₂, by simpa using h₂, ?_⟩
      rw [List.flatMap_cons, List.foldlM_append, hc]
      exact hcs

theorem scan_quoted (text : String) (ts : List Token) :
    (quoted text).foldlM step ⟨ts, .gap⟩ = some ⟨.string (some text) :: ts, .gap⟩ := by
  obtain ⟨ps, hps, hscan⟩ := scan_escaped ts text.toList .nil
  have hbegin : step ⟨ts, .gap⟩ '"' = some ⟨ts, .string []⟩ := rfl
  have hend : step ⟨ts, .string ps⟩ '"' = some ⟨.string (some text) :: ts, .gap⟩ := by
    simp [step, push, hps.assemble_eq]
  simp [quoted, List.foldlM_append, hbegin, hscan, hend]

end Scanner

/-! ## Numbers -/

namespace Numeral

/-- The digits of a number have no needless zero in front. -/
theorem exists_head_toDigits {n : Nat} (h : n ≠ 0) :
    ∃ c rest, Nat.toDigits 10 n = c :: rest ∧ c ≠ '0' := by
  induction n using Nat.strongRecOn with
  | ind n ih =>
      by_cases hn : n < 10
      · rw [Nat.toDigits_of_lt_base hn]
        have hdigit : ∀ k < 10, k ≠ 0 → Nat.digitChar k ≠ '0' := by decide
        exact ⟨_, [], rfl, hdigit n hn h⟩
      · obtain ⟨c, rest, hdigits, hc⟩ := ih (n / 10) (by omega) (by omega)
        rw [Nat.toDigits_of_base_le (by decide) (by omega), hdigits]
        exact ⟨c, _, rfl, hc⟩

theorem isWhole_toDigits (n : Nat) : isWhole (Nat.toDigits 10 n) = true := by
  by_cases hn : n = 0
  · subst hn
    rfl
  · obtain ⟨c, rest, hdigits, hc⟩ := exists_head_toDigits hn
    rw [hdigits]
    cases rest <;> simp [isWhole, hc]

theorem le_ofDigitChars (cs : List Char) (n : Nat) : n ≤ Nat.ofDigitChars 10 cs n := by
  induction cs generalizing n with
  | nil => simp
  | cons c cs ih =>
      rw [Nat.ofDigitChars_cons]
      have hnext := ih (10 * n + (c.toNat - '0'.toNat))
      omega

/-- Digits are taken in as long as they make up a number within the limit. -/
theorem absorb_eq {limit n : Nat} {cs : List Char} (h : Nat.ofDigitChars 10 cs n ≤ limit) :
    absorb limit n cs = (Nat.ofDigitChars 10 cs n, []) := by
  induction cs generalizing n with
  | nil => simp [absorb]
  | cons c cs ih =>
      rw [Nat.ofDigitChars_cons] at h ⊢
      have hnext : n * 10 + digitValue c = 10 * n + (c.toNat - '0'.toNat) := by
        rw [Nat.mul_comm, digitValue]
      have hle := le_ofDigitChars cs (10 * n + (c.toNat - '0'.toNat))
      rw [absorb, hnext, if_pos (by omega)]
      exact ih h

theorem isDigit_of_mem_toDigits {n : Nat} {c : Char} (h : c ∈ Nat.toDigits 10 n) : c.isDigit :=
  Nat.isDigit_of_mem_toDigits (by decide) (by decide) h

theorem takeWhile_toDigits (n : Nat) :
    (Nat.toDigits 10 n).takeWhile Char.isDigit = Nat.toDigits 10 n := by
  have h : (Nat.toDigits 10 n ++ []).takeWhile Char.isDigit = Nat.toDigits 10 n ++ [] :=
    List.takeWhile_append_of_pos fun _ hc => isDigit_of_mem_toDigits hc
  simpa using h

theorem dropWhile_toDigits (n : Nat) : (Nat.toDigits 10 n).dropWhile Char.isDigit = [] := by
  have h : (Nat.toDigits 10 n ++ []).dropWhile Char.isDigit = [] :=
    List.dropWhile_append_of_pos fun _ hc => isDigit_of_mem_toDigits hc
  simpa using h

/-- An integer is written as its digits after its sign. -/
theorem parse?_toDigits (negative : Bool) (n : Nat) :
    parse? ((if negative then ['-'] else []) ++ Nat.toDigits 10 n) =
      some ⟨negative, Nat.toDigits 10 n, none, none⟩ := by
  have hsign : splitSign ((if negative then ['-'] else []) ++ Nat.toDigits 10 n) =
      (negative, Nat.toDigits 10 n) := by
    cases negative with
    | true => rfl
    | false =>
        have hdigits := fun c (hc : c ∈ Nat.toDigits 10 n) => isDigit_of_mem_toDigits hc
        generalize Nat.toDigits 10 n = cs at hdigits
        rcases cs with _ | ⟨c, cs⟩
        · rfl
        · have hc : c ≠ '-' := by
            rintro rfl
            exact absurd (hdigits '-' List.mem_cons_self) (by decide)
          simp [splitSign, hc]
  simp [parse?, hsign, takeWhile_toDigits, dropWhile_toDigits, isWhole_toDigits, splitFraction,
    exponentPart]

theorem toList_toString (i : Int) :
    (toString i).toList = (if i < 0 then ['-'] else []) ++ Nat.toDigits 10 i.natAbs := by
  rw [Int.toString_eq_repr, Int.repr_eq_if]
  by_cases hi : i < 0
  · have habs : (-i).toNat = i.natAbs := by omega
    rw [if_neg (by omega), if_pos hi, String.toList_append, Nat.toList_repr, habs]
    rfl
  · have habs : i.toNat = i.natAbs := by omega
    rw [if_pos (by omega), if_neg hi, Nat.toList_repr, habs]
    rfl

/-- An integer of 64 bits is read back from its digits. -/
theorem read?_toString {i : Int} (hlow : -Nat.pow 2 63 ≤ i) (hhigh : i < Nat.pow 2 64) :
    read? (toString i).toList = some (.int i) := by
  have hparse := parse?_toDigits (decide (i < 0)) i.natAbs
  simp only [decide_eq_true_eq] at hparse
  have hpow : Nat.pow 2 63 = 2 ^ 63 ∧ Nat.pow 2 64 = 2 ^ 64 := ⟨rfl, rfl⟩
  have habsorb : absorb maxSignificand 0 (Nat.toDigits 10 i.natAbs) = (i.natAbs, []) := by
    rw [absorb_eq] <;> rw [Nat.ofDigitChars_ten_toDigits]
    rw [maxSignificand]
    omega
  rw [toList_toString, read?, hparse]
  simp only [value, habsorb, Option.map_some]
  by_cases hi : i < 0
  · have habs : -(i.natAbs : Int) = i := by omega
    have hrange : ¬ (i.natAbs = 0 || Nat.pow 2 63 < i.natAbs) = true := by
      simp only [Bool.or_eq_true, decide_eq_true_eq]
      omega
    rw [if_neg (by simp [hi]), if_neg hrange, habs]
  · have habs : (i.natAbs : Int) = i := by omega
    simp [hi, habs]

end Numeral

namespace Scanner

variable {s : Scanner} {ts : List Token}

theorem of_isDigit {c : Char} (h : c.isDigit = true) :
    isGap c = false ∧ isWordChar c = false ∧ isNumeralChar c = true := by
  refine ⟨?_, ?_, ?_⟩
  · cases hgap : isGap c with
    | false => rfl
    | true =>
        have hblank : ((c = ' ' ∨ c = '\n') ∨ c = '\r') ∨ c = '\t' := by
          simpa [isGap] using hgap
        rcases hblank with ((rfl | rfl) | rfl) | rfl <;> exact absurd h (by decide)
  · have hlower : isWordChar c = (decide (97 ≤ c.val) && decide (c.val ≤ 122)) := rfl
    grind [Char.isDigit]
  · simp [isNumeralChar, h]

theorem scan_digits {cs : List Char} (h : ∀ c ∈ cs, c.isDigit = true) (ts : List Token)
    (done : List Char) :
    cs.foldlM step ⟨ts, .numeral done⟩ = some ⟨ts, .numeral (cs.reverse ++ done)⟩ := by
  induction cs generalizing done with
  | nil => rfl
  | cons c cs ih =>
      obtain ⟨hc, hcs⟩ := List.forall_mem_cons.mp h
      obtain ⟨-, -, hnumeral⟩ := of_isDigit hc
      simp [step, hnumeral, ih hcs]

/-- Characters are scanned into tokens, whatever tokens come before them. -/
def Scans (cs : List Char) (new : List Token) : Prop :=
  ∀ ts, ∃ s, cs.foldlM step ⟨ts, .gap⟩ = some s ∧ s.Ends (new.reverse ++ ts)

theorem Scans.nil : Scans [] [] := fun ts => ⟨⟨ts, .gap⟩, rfl, rfl⟩

/-- A character that is a token by itself. -/
structure Delimits (c : Char) (t : Token) : Prop where
  word : isWordChar c = false
  numeral : isNumeralChar c = false
  begin_eq : ∀ ts, begin ⟨ts, .gap⟩ c = some ⟨t :: ts, .gap⟩

/-- A delimiter separates what is before it from what is after it. -/
theorem Scans.delimit {cs cs' : List Char} {new new' : List Token} {c : Char} {t : Token}
    (h : Scans cs new) (hc : Delimits c t) (h' : Scans cs' new') :
    Scans (cs ++ c :: cs') (new ++ t :: new') := by
  intro ts
  obtain ⟨s, hs, hends⟩ := h ts
  obtain ⟨s', hs', hends'⟩ := h' (t :: (new.reverse ++ ts))
  have hstep : s.step c = some ⟨t :: (new.reverse ++ ts), .gap⟩ := by
    rw [hends.step_eq hc.word hc.numeral, hc.begin_eq]
  refine ⟨s', ?_, by simpa using hends'⟩
  rw [List.foldlM_append, hs]
  simpa [hstep] using hs'

theorem scans_quoted (text : String) : Scans (quoted text) [.string (some text)] :=
  fun ts => ⟨_, scan_quoted text ts, rfl⟩

theorem scans_toString {i : Int} (hlow : -Nat.pow 2 63 ≤ i) (hhigh : i < Nat.pow 2 64) :
    Scans (toString i).toList [.number (.int i)] := by
  intro ts
  have hread := Numeral.read?_toString hlow hhigh
  rw [Numeral.toList_toString] at hread ⊢
  have hdigits := fun c (hc : c ∈ Nat.toDigits 10 i.natAbs) => Numeral.isDigit_of_mem_toDigits hc
  obtain ⟨c, cs, hcs⟩ := List.exists_cons_of_ne_nil (Nat.toDigits_ne_nil (b := 10) (n := i.natAbs))
  rw [hcs] at hread hdigits ⊢
  obtain ⟨hc, hrest⟩ := List.forall_mem_cons.mp hdigits
  -- A sign or the first digit begins the number, and all digits after it only add to it.
  by_cases hi : i < 0
  · rw [if_pos hi] at hread ⊢
    have hbegin : step ⟨ts, .gap⟩ '-' = some ⟨ts, .numeral ['-']⟩ := rfl
    refine ⟨⟨ts, .numeral ((c :: cs).reverse ++ ['-'])⟩, ?_, ?_⟩
    · simpa [hbegin] using scan_digits hdigits ts ['-']
    · simpa [Ends, close, push] using hread
  · rw [if_neg hi] at hread ⊢
    obtain ⟨hgap, hword, -⟩ := of_isDigit hc
    have hbegin : step ⟨ts, .gap⟩ c = some ⟨ts, .numeral [c]⟩ := by
      simp [step, begin, hgap, hword, hc]
    refine ⟨⟨ts, .numeral (cs.reverse ++ [c])⟩, ?_, ?_⟩
    · simpa [hbegin] using scan_digits hrest ts [c]
    · simpa [Ends, close, push] using hread

end Scanner

open Scanner

theorem scans_items {items : List Json} (h : ∀ j ∈ items, Scans j.chars j.tokens) :
    Scans (itemChars items) (itemTokens items) := by
  have hcomma : Delimits ',' .comma := ⟨by decide, by decide, fun _ => rfl⟩
  induction items with
  | nil => exact .nil
  | cons j items ih =>
      obtain ⟨hj, hitems⟩ := List.forall_mem_cons.mp h
      cases items with
      | nil => exact hj
      | cons k items => exact hj.delimit hcomma (ih hitems)

theorem scans_members {members : List (Option String × Json)}
    (hkeys : ∀ m ∈ members, ∃ k, m.1 = some k) (h : ∀ m ∈ members, Scans m.2.chars m.2.tokens) :
    Scans (memberChars members) (memberTokens members) := by
  have hcomma : Delimits ',' .comma := ⟨by decide, by decide, fun _ => rfl⟩
  have hcolon : Delimits ':' .colon := ⟨by decide, by decide, fun _ => rfl⟩
  induction members with
  | nil => exact .nil
  | cons m members ih =>
      obtain ⟨hm, hmembers⟩ := List.forall_mem_cons.mp h
      obtain ⟨⟨key, hkey⟩, hrest⟩ := List.forall_mem_cons.mp hkeys
      obtain ⟨_, j⟩ := m
      obtain rfl := hkey
      have hfirst := (scans_quoted key).delimit hcolon hm
      cases members with
      | nil => exact hfirst
      | cons n members =>
          have hall := hfirst.delimit hcomma (ih hrest hmembers)
          simpa [memberChars, memberTokens, stringChars] using hall

/-- The characters of a value are scanned into its tokens. -/
theorem IsPlain.scans {j : Json} (h : j.IsPlain) : Scans j.chars j.tokens := by
  induction h with
  | null => exact fun ts => ⟨_, rfl, rfl⟩
  | bool b => cases b <;> exact fun ts => ⟨_, rfl, rfl⟩
  | int hlow hhigh => exact scans_toString hlow hhigh
  | text s => exact scans_quoted s
  | array _ ih =>
      have hopen : Delimits '[' .beginArray := ⟨by decide, by decide, fun _ => rfl⟩
      have hclose : Delimits ']' .endArray := ⟨by decide, by decide, fun _ => rfl⟩
      exact Scans.nil.delimit hopen ((scans_items ih).delimit hclose .nil)
  | object hkeys _ ih =>
      have hopen : Delimits '{' .beginObject := ⟨by decide, by decide, fun _ => rfl⟩
      have hclose : Delimits '}' .endObject := ⟨by decide, by decide, fun _ => rfl⟩
      exact Scans.nil.delimit hopen ((scans_members hkeys ih).delimit hclose .nil)

/-- What is written is read back. -/
theorem IsPlain.parse?_render {j : Json} (h : j.IsPlain) : parse? j.render = some j := by
  obtain ⟨s, hs, hends⟩ := h.scans []
  have hclose : s.close = some ⟨j.tokens.reverse ++ [], .gap⟩ := hends
  have hread := h.reads []
  rw [parse?, Token.scan?_eq, render, String.toList_ofList, start, hs]
  simp [hclose, ofTokens?, hread, Reader.result?]

end IdlBinder.Json

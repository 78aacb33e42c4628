import IdlBinder.Cpp.Code
import Mathlib.Data.List.Chain
import Mathlib.Data.List.DropRight

set_option autoImplicit false

/-!
# Where a comment ends

A comment in C++ ends with the first star that a slash follows, so documentation may bring no such
pair into the comment that it stands in. `endless_guardEnd` is the reason why it does not: guarding
leaves no slash right after a star. Around guarded text there are only blanks, line ends and the
stars that lead a line, and `comment_ends_once` concludes that whatever the documentation says, the
only end of its comment is the one that the writer puts last.
-/

namespace IdlBinder

/-! ## What a page gains -/

namespace Page

/-- The indentation of a depth. -/
def margin (n : Nat) : String := String.join (List.replicate n indentUnit)

/-- A line at a depth, with its line end. -/
def lineText (n : Nat) (s : String) : String := margin n ++ s ++ "\n"

theorem put_put (p : Page) (s t : String) : (p.put s).put t = p.put (s ++ t) := by
  simp [put, String.append_assoc]

theorem put_empty (p : Page) : p.put "" = p := by
  simp [put]

theorem margin_succ (n : Nat) : margin (n + 1) = indentUnit ++ margin n := by
  rw [margin, List.replicate_succ, String.join_cons, margin]

theorem putMargin_eq_put (p : Page) (n : Nat) : p.putMargin n = p.put (margin n) := by
  induction n generalizing p with
  | zero => exact (put_empty p).symm
  | succ n ih => rw [putMargin, ih, put_put, ← margin_succ]

theorem line_eq_put (p : Page) (s : String) : p.line s = p.put (lineText p.level s) := by
  rw [line, putMargin_eq_put, put_put, put_put, lineText, String.append_assoc]

/-- Lines are put at the depth at which the page stands. -/
theorem lines_eq_put (p : Page) (l : List String) :
    p.lines l = p.put (String.join (l.map (lineText p.level))) := by
  induction l generalizing p with
  | nil => exact (put_empty p).symm
  | cons s l ih =>
      show (p.line s).lines l = _
      rw [ih, line_eq_put, put_put, List.map_cons, String.join_cons]
      rfl

end Page

namespace Doc

open Page

/-! ## Text without an end -/

/-- No slash comes right after a star. -/
def Endless (cs : List Char) : Prop := cs.IsChain fun a b => ¬(a = '*' ∧ b = '/')

theorem endless_append {xs ys : List Char} (hx : Endless xs) (hy : Endless ys)
    (h : xs.getLast? ≠ some '*' ∨ ys.head? ≠ some '/') : Endless (xs ++ ys) := by
  refine List.isChain_append.mpr ⟨hx, hy, ?_⟩
  rintro a ha b hb ⟨rfl, rfl⟩
  rcases h with h | h
  · exact h ha
  · exact h hb

theorem endless_cons {c : Char} {cs : List Char} (hcs : Endless cs)
    (h : c ≠ '*' ∨ cs.head? ≠ some '/') : Endless (c :: cs) := by
  rw [← List.singleton_append]
  exact endless_append (.singleton c) hcs (by simpa using h)

/-- Guarding puts nothing in front of a text. -/
theorem head?_guardEnd (cs : List Char) : (guardEnd cs).head? = cs.head? := by
  cases cs using guardEnd.fun_cases with
  | case1 rest => simp [guardEnd]
  | case2 c rest hc => rw [guardEnd.eq_2 c rest hc]; rfl
  | case3 => rfl

/-- A guarded text holds no end of a comment. -/
theorem endless_guardEnd (cs : List Char) : Endless (guardEnd cs) := by
  induction cs using guardEnd.induct with
  | case1 rest ih =>
      rw [guardEnd]
      have hslash : Endless ('/' :: guardEnd rest) := endless_cons ih (Or.inl (by decide))
      have hback : Endless ('\\' :: '/' :: guardEnd rest) :=
        endless_cons hslash (Or.inl (by decide))
      exact endless_cons hback (Or.inr (by simp))
  | case2 c rest hc ih =>
      -- A star stays in front of what follows it only if this is no slash.
      rw [guardEnd.eq_2 c rest hc]
      refine endless_cons ih ?_
      rw [head?_guardEnd]
      by_cases hstar : c = '*'
      · refine Or.inr fun hslash => ?_
        obtain ⟨more, rfl⟩ := List.head?_eq_some_iff.mp hslash
        exact hc more hstar rfl
      · exact Or.inl hstar
  | case3 => exact .nil

theorem endless_margin (n : Nat) : Endless (margin n).toList := by
  induction n with
  | zero => exact .nil
  | succ n ih =>
      rw [margin_succ, String.toList_append]
      exact endless_append (by simp [Endless, indentUnit]) ih (Or.inl (by decide))

theorem getLast?_margin (n : Nat) : (margin n).toList.getLast? ≠ some '*' := by
  intro hlast
  have hstar : '*' ∈ (margin n).toList := List.mem_of_getLast? hlast
  simp [margin, String.toList_join, indentUnit] at hstar

theorem endless_guarded (s : String) : Endless (guarded s).toList := by
  rw [guarded, String.toList_ofList]
  exact endless_guardEnd s.toList

theorem endless_innerLine (s : String) : Endless (innerLine s).toList := by
  by_cases h : (Text.trimEnd s).isEmpty
  · simp [innerLine, h, Endless]
  · have hline : innerLine s = " * " ++ guarded (Text.trimEnd s) := by simp [innerLine, h]
    rw [hline, String.toList_append]
    exact endless_append (by simp [Endless]) (endless_guarded _) (Or.inl (by decide))

/-- A line end keeps lines apart, whatever stands at the end of one and in front of the next. -/
theorem endless_join_lineText (n : Nat) {l : List String} (h : ∀ s ∈ l, Endless s.toList)
    {more : List Char} (hmore : Endless more) :
    Endless ((String.join (l.map (lineText n))).toList ++ more) := by
  induction l with
  | nil => simpa using hmore
  | cons s l ih =>
      obtain ⟨hs, hl⟩ := List.forall_mem_cons.mp h
      have hline : Endless ((margin n).toList ++ s.toList) :=
        endless_append (endless_margin n) hs (Or.inl (getLast?_margin n))
      simp only [List.map_cons, String.join_cons, lineText, String.toList_append, List.append_assoc]
      rw [← List.append_assoc]
      refine endless_append hline ?_ (Or.inr (by simp))
      exact endless_cons (ih hl) (Or.inl (by decide))

/-! ## The only end -/

/-- Text that is endless up to a star, ended by a slash, has no other end. -/
theorem ends_iff {text : List Char} (h : Endless (text ++ ['*'])) {before after : List Char} :
    text ++ ['*', '/', '\n'] = before ++ '*' :: '/' :: after ↔ before = text ∧ after = ['\n'] := by
  constructor
  · induction text generalizing before with
    | nil =>
        intro heq
        rcases before with _ | ⟨a, _ | ⟨b, _ | ⟨c, before⟩⟩⟩ <;> simp_all
    | cons c text ih =>
        intro heq
        cases before with
        | nil =>
            -- A star in front would have a slash behind it.
            simp only [List.cons_append, List.nil_append, List.cons.injEq] at heq
            obtain ⟨rfl, heq⟩ := heq
            have hhead : (text ++ ['*']).head? = some '/' := by
              cases text with
              | nil => simp at heq
              | cons d text => simpa using (List.cons.inj heq).1
            exact absurd ⟨rfl, rfl⟩ ((List.isChain_cons.mp h).1 '/' hhead)
        | cons b before =>
            simp only [List.cons_append, List.cons.injEq] at heq
            obtain ⟨rfl, rfl⟩ := ih (List.isChain_cons.mp h).2 heq.2
            exact ⟨by rw [heq.1], rfl⟩
  · rintro ⟨rfl, rfl⟩
    rfl

/-! ## Comments -/

/-- A line is empty without the blanks at its ends iff there is nothing else in it. -/
theorem isEmpty_trim_iff {s : String} :
    (Text.trim s).isEmpty ↔ ∀ c ∈ s.toList, Text.isBlank c := by
  calc (Text.trim s).isEmpty
      ↔ (s.toList.dropWhile Text.isBlank).reverse.dropWhile Text.isBlank = [] := by
        rw [String.isEmpty_iff, ← String.toList_eq_nil_iff, Text.trim, String.toList_ofList,
          Text.dropBlankEnd, List.reverse_eq_nil_iff]
    _ ↔ (s.toList.dropWhile Text.isBlank).dropWhile Text.isBlank = [] := by
        simp only [List.dropWhile_eq_nil_iff, List.mem_reverse]
    _ ↔ ∀ c ∈ s.toList, Text.isBlank c := by
        rw [List.dropWhile_idempotent, List.dropWhile_eq_nil_iff]

theorem isBlank_iff {doc : Doc} :
    doc.isBlank ↔ ∀ line ∈ doc, ∀ c ∈ line.toList, Text.isBlank c := by
  simp only [isBlank, List.all_eq_true, isEmpty_trim_iff]

/-- The text that a comment adds at a depth. -/
def text (n : Nat) (doc : Doc) : String := String.join (doc.commentLines.map (lineText n))

theorem write_doc (doc : Doc) (p : Page) : (Code.doc doc).write p = p.put (doc.text p.level) := by
  rw [Code.write, lines_eq_put, text]

/-- The body of a comment: what stands between its opening and its end, on one line or on lines of
its own. -/
theorem exists_body {doc : Doc} (h : ¬doc.isBlank) (n : Nat) :
    ∃ body, doc.text n = margin n ++ "/**" ++ body ++ "*/\n" ∧
      Endless body.toList ∧ body.toList.head? ≠ some '/' := by
  rcases doc with _ | ⟨single, _ | ⟨second, rest⟩⟩
  · simp [isBlank] at h
  · refine ⟨" " ++ guarded (Text.trim single) ++ " ", ?_, ?_, by simp⟩
    · unfold text commentLines
      rw [if_neg h]
      simp [lineText, ← String.toList_inj]
    · simp only [String.toList_append]
      refine endless_append ?_ (.singleton ' ') (Or.inr (by decide))
      exact endless_append (.singleton ' ') (endless_guarded _) (Or.inl (by decide))
  · let inner := String.join (((single :: second :: rest).map innerLine).map (lineText n))
    refine ⟨"\n" ++ (inner ++ (margin n ++ " ")), ?_, ?_, by simp⟩
    · unfold text commentLines
      rw [if_neg h]
      simp [lineText, inner, ← String.toList_inj]
    · simp only [String.toList_append]
      have hlast : Endless ((margin n).toList ++ " ".toList) :=
        endless_append (endless_margin n) (.singleton ' ') (Or.inr (by decide))
      have hinner : ∀ line ∈ (single :: second :: rest).map innerLine, Endless line.toList :=
        List.forall_mem_map.mpr fun line _ => endless_innerLine line
      refine endless_append (.singleton '\n') ?_ (Or.inl (by decide))
      exact endless_join_lineText n hinner hlast

theorem text_eq_empty_iff {n : Nat} {doc : Doc} : doc.text n = "" ↔ doc.isBlank := by
  constructor
  · intro hempty
    by_contra h
    obtain ⟨body, htext, -⟩ := exists_body h n
    simp [htext] at hempty
  · intro h
    unfold text commentLines
    rw [if_pos h]
    rfl

/-- A comment with something in it ends once. -/
theorem text_eq_iff {doc : Doc} (h : ¬doc.isBlank) (n : Nat) :
    ∃ body, ∀ before after, doc.text n = before ++ "*/" ++ after ↔
      before = margin n ++ "/**" ++ body ∧ after = "\n" := by
  obtain ⟨body, htext, hbody, hhead⟩ := exists_body h n
  have hopening : Endless ((margin n).toList ++ "/**".toList) :=
    endless_append (endless_margin n) (by simp [Endless]) (Or.inl (getLast?_margin n))
  have hstar : Endless ((margin n ++ "/**" ++ body).toList ++ ['*']) := by
    rw [String.toList_append, String.toList_append]
    refine endless_append (endless_append hopening hbody (Or.inr hhead)) (.singleton '*') ?_
    exact Or.inr (by decide)
  refine ⟨body, fun before after => ?_⟩
  rw [htext, ← @String.toList_inj before, ← @String.toList_inj after, ← String.toList_inj]
  simp only [String.toList_append] at hstar ⊢
  rw [List.append_assoc _ _ after.toList]
  exact ends_iff hstar

end Doc

/-- Documentation cannot end its comment. What a comment adds to the text of a page is nothing iff
its lines are blank. Otherwise it opens at the depth of the page, and has a single end, after which
there is only the end of the line. -/
theorem comment_ends_once (doc : Doc) (p : Page) :
    ∃ text, ((Code.doc doc).write p).text = p.text ++ text ∧
      ((Code.doc doc).write p).level = p.level ∧
      (text = "" ↔ ∀ line ∈ doc, ∀ c ∈ line.toList, Text.isBlank c) ∧
      (text ≠ "" → ∃ body, ∀ before after, text = before ++ "*/" ++ after ↔
        before = Page.margin p.level ++ "/**" ++ body ∧ after = "\n") := by
  have hempty : doc.text p.level = "" ↔ doc.isBlank := Doc.text_eq_empty_iff
  rw [Doc.write_doc]
  refine ⟨doc.text p.level, rfl, rfl, hempty.trans Doc.isBlank_iff, fun htext => ?_⟩
  exact Doc.text_eq_iff (fun hblank => htext (hempty.mpr hblank)) p.level

end IdlBinder

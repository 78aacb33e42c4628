import IdlBinder.Cpp.Code

set_option autoImplicit false

/-!
# Brackets

Parentheses, braces and angle brackets in a text, as they nest (`Nested`). A reader that keeps the
closing brackets still owed finds out whether they do: `nested_iff_owed`. In that way a text that is
put together from parts is followed part by part, also where an opening bracket stands in one part
and its closing one in another.

On a page the same reader follows the layout: `Code.Closed` pieces leave the page with the brackets
and the depth that they found.
-/

namespace IdlBinder

namespace Brackets

/-! ## Nested texts -/

/-- The bracket that closes an opening one. -/
def closing? : Char → Option Char
  | '(' => some ')'
  | '{' => some '}'
  | '<' => some '>'
  | _ => none

/-- Whether a character is a closing bracket. -/
def isClosing (c : Char) : Bool := c = ')' || c = '}' || c = '>'

/-- Whether a character is one of the six brackets. -/
def isBracket (c : Char) : Bool := (closing? c).isSome || isClosing c

/-- Properly nested characters: what is no bracket may stand anywhere, and between an opening
bracket and its own closing one stand properly nested characters again. -/
inductive Nested : List Char → Prop where
  | nil : Nested []
  | other {c : Char} {rest : List Char} : isBracket c = false → Nested rest → Nested (c :: rest)
  | pair {opening closing : Char} {inner rest : List Char} :
      closing? opening = some closing → Nested inner → Nested rest →
      Nested (opening :: (inner ++ closing :: rest))

/-- The closing brackets owed after a character, the innermost first; a closing bracket that is not
owed next has no place. -/
def step (owed : List Char) (c : Char) : Option (List Char) :=
  match closing? c with
  | some closing => some (closing :: owed)
  | none =>
    if isClosing c then (if owed.head? = some c then some owed.tail else none) else some owed

/-- The closing brackets owed after characters, when some are owed before. -/
def owed (cs before : List Char) : Option (List Char) := cs.foldlM step before

@[simp] theorem owed_nil (before : List Char) : owed [] before = some before := rfl

theorem owed_cons (c : Char) (cs before : List Char) :
    owed (c :: cs) before = (step before c).bind (owed cs) :=
  List.foldlM_cons

@[simp] theorem owed_append (cs ds before : List Char) :
    owed (cs ++ ds) before = (owed cs before).bind (owed ds) :=
  List.foldlM_append

theorem step_of_opening {opening closing : Char} (h : closing? opening = some closing)
    (before : List Char) : step before opening = some (closing :: before) := by
  rw [step, h]

theorem isClosing_of_closing? {opening closing : Char} (h : closing? opening = some closing) :
    closing? closing = none ∧ isClosing closing = true := by
  unfold closing? at h
  split at h <;> cases h <;> exact ⟨rfl, rfl⟩

theorem step_of_closing {c : Char} (h : closing? c = none ∧ isClosing c = true)
    (before : List Char) : step (c :: before) c = some before := by
  simp [step, h.1, h.2]

theorem step_of_not_isBracket {c : Char} (h : isBracket c = false) (before : List Char) :
    step before c = some before := by
  simp only [isBracket, Bool.or_eq_false_iff, Option.isSome_eq_false_iff,
    Option.isNone_iff_eq_none] at h
  simp [step, h.1, h.2]

/-- Nested characters leave what is owed as it is. -/
theorem Nested.owed_eq {cs : List Char} (h : Nested cs) (before : List Char) :
    owed cs before = some before := by
  induction h generalizing before with
  | nil => rfl
  | other hc hrest ih => rw [owed_cons, step_of_not_isBracket hc, Option.bind_some, ih]
  | pair hpair hinner hrest ihinner ihrest =>
      rw [owed_cons, step_of_opening hpair, Option.bind_some, owed_append, ihinner,
        Option.bind_some, owed_cons, step_of_closing (isClosing_of_closing? hpair),
        Option.bind_some, ihrest]

/-- Characters that close what is owed, with nested ones before each closing bracket and at the
end. -/
inductive Closes : List Char → List Char → Prop where
  | nil {cs : List Char} : Nested cs → Closes [] cs
  | cons {c : Char} {before inner rest : List Char} :
      Nested inner → Closes before rest → Closes (c :: before) (inner ++ c :: rest)

/-- In front of characters that close what is owed may stand any nested start. -/
theorem Closes.lead {before cs : List Char} (h : Closes before cs) (lead : List Char)
    (hlead : ∀ inner : List Char, Nested inner → Nested (lead ++ inner)) :
    Closes before (lead ++ cs) := by
  cases h with
  | nil hnested => exact .nil (hlead _ hnested)
  | cons hinner hrest =>
      rw [← List.append_assoc]
      exact .cons (hlead _ hinner) hrest

theorem closes_of_owed {cs before : List Char} (h : owed cs before = some []) :
    Closes before cs := by
  induction cs generalizing before with
  | nil =>
      cases h
      exact .nil .nil
  | cons c cs ih =>
      rw [owed_cons, Option.bind_eq_some_iff] at h
      obtain ⟨after, hstep, hrest⟩ := h
      have hcloses := ih hrest
      unfold step at hstep
      split at hstep
      next closing hopening =>
        -- The new bracket is closed first; what follows it belongs to what was owed before.
        cases hstep
        cases hcloses with
        | cons hinner hcloses =>
            rw [List.append_cons, ← List.cons_append]
            refine hcloses.lead _ fun more hmore => ?_
            simpa using Nested.pair hopening hinner hmore
      next hopening =>
        split at hstep
        next hclosing =>
          split at hstep
          next hhead =>
            cases hstep
            obtain ⟨below, rfl⟩ := List.head?_eq_some_iff.mp hhead
            exact .cons .nil hcloses
          next => cases hstep
        next hclosing =>
          cases hstep
          have hc : isBracket c = false := by simp [isBracket, hopening, hclosing]
          exact hcloses.lead [c] fun more hmore => .other hc hmore

/-- Characters are properly nested if they can be read to the end and nothing is owed there. -/
theorem nested_iff_owed {cs : List Char} : Nested cs ↔ owed cs [] = some [] := by
  constructor
  · intro h
    exact h.owed_eq []
  · intro h
    cases closes_of_owed h with
    | nil hnested => exact hnested

instance (cs : List Char) : Decidable (Nested cs) := decidable_of_iff _ nested_iff_owed.symm

example : Nested "map<int, f(<>{})>".toList := by decide

example : ¬ Nested "(<)>".toList := by decide

/-! ## Texts -/

/-- Characters none of which is a bracket. -/
def Free (cs : List Char) : Prop := ∀ c ∈ cs, isBracket c = false

/-- A text without brackets. -/
def BracketFree (s : String) : Prop := Free s.toList

/-- A text with properly nested brackets. -/
def Balanced (s : String) : Prop := Nested s.toList

-- The instances are given by hand so that they go through the list, not through all characters.

instance (cs : List Char) : Decidable (Free cs) := List.decidableBAll (isBracket · = false) cs

instance (s : String) : Decidable (BracketFree s) := inferInstanceAs (Decidable (Free s.toList))

instance (s : String) : Decidable (Balanced s) := inferInstanceAs (Decidable (Nested s.toList))

theorem free_nil : Free [] := fun _ => nofun

theorem free_cons {c : Char} {cs : List Char} :
    Free (c :: cs) ↔ isBracket c = false ∧ Free cs :=
  List.forall_mem_cons

theorem free_append {cs ds : List Char} : Free (cs ++ ds) ↔ Free cs ∧ Free ds :=
  List.forall_mem_append

theorem free_flatMap {α : Type} {l : List α} {f : α → List Char} :
    Free (l.flatMap f) ↔ ∀ a ∈ l, Free (f a) :=
  List.forall_mem_flatMap

theorem Free.of_subset {cs ds : List Char} (h : Free ds) (hsub : cs ⊆ ds) : Free cs :=
  fun c hc => h c (hsub hc)

theorem Free.nested {cs : List Char} (h : Free cs) : Nested cs := by
  induction cs with
  | nil => exact .nil
  | cons c cs ih =>
      obtain ⟨hc, hcs⟩ := free_cons.mp h
      exact .other hc (ih hcs)

/-- A text is balanced if it leaves nothing owed. The rest of such a goal is to run the reader over
the parts of the text. -/
theorem balanced_of_owed {s : String} (h : owed s.toList [] = some []) : Balanced s :=
  nested_iff_owed.mpr h

theorem Balanced.owed_eq {s : String} (h : Balanced s) (before : List Char) :
    owed s.toList before = some before :=
  Nested.owed_eq h before

theorem BracketFree.balanced {s : String} (h : BracketFree s) : Balanced s := Free.nested h

@[simp] theorem bracketFree_append {s t : String} :
    BracketFree (s ++ t) ↔ BracketFree s ∧ BracketFree t := by
  rw [BracketFree, String.toList_append, free_append, BracketFree, BracketFree]

theorem bracketFree_ofList {cs : List Char} : BracketFree (String.ofList cs) ↔ Free cs := by
  rw [BracketFree, String.toList_ofList]

/-- Texts without brackets. -/
def AllFree (texts : List String) : Prop := ∀ s ∈ texts, BracketFree s

instance (texts : List String) : Decidable (AllFree texts) := List.decidableBAll BracketFree texts

@[simp] theorem allFree_nil : AllFree [] := fun _ => nofun

@[simp] theorem allFree_cons {s : String} {texts : List String} :
    AllFree (s :: texts) ↔ BracketFree s ∧ AllFree texts :=
  List.forall_mem_cons

@[simp] theorem allFree_append {texts more : List String} :
    AllFree (texts ++ more) ↔ AllFree texts ∧ AllFree more :=
  List.forall_mem_append

@[simp] theorem allFree_flatMap {α : Type} {l : List α} {f : α → List String} :
    AllFree (l.flatMap f) ↔ ∀ a ∈ l, AllFree (f a) :=
  List.forall_mem_flatMap

theorem Balanced.owed_append {s : String} (h : Balanced s) (t : String) (before : List Char) :
    owed (s ++ t).toList before = owed t.toList before := by
  rw [String.toList_append, Brackets.owed_append, h.owed_eq, Option.bind_some]

theorem Balanced.append {s t : String} (hs : Balanced s) (ht : Balanced t) :
    Balanced (s ++ t) :=
  balanced_of_owed ((hs.owed_append t []).trans (ht.owed_eq []))

/-- A balanced text between a text that opens brackets and one that closes them again. -/
theorem Balanced.enclosed {left inner right : String} {closers : List Char} (h : Balanced inner)
    (hleft : owed left.toList [] = some closers) (hright : owed right.toList closers = some []) :
    Balanced (left ++ inner ++ right) := by
  apply balanced_of_owed
  rw [String.toList_append, String.toList_append, Brackets.owed_append, Brackets.owed_append, hleft,
    Option.bind_some, h.owed_eq, Option.bind_some, hright]

/-- Balanced texts may be joined by anything that is balanced. -/
theorem balanced_intercalate (sep : String) (hsep : Balanced sep) {l : List String}
    (h : ∀ s ∈ l, Balanced s) : Balanced (sep.intercalate l) := by
  induction l with
  | nil => exact Nested.nil
  | cons s l ih =>
      have hl := List.forall_mem_cons.mp h
      cases l with
      | nil => simpa using hl.1
      | cons t l =>
          rw [String.intercalate_cons_cons]
          exact (hl.1.append hsep).append (ih hl.2)

end Brackets

/-! ## Comments -/

open Brackets

theorem Text.bracketFree_trimEnd {s : String} (h : BracketFree s) : BracketFree (trimEnd s) := by
  rw [trimEnd, bracketFree_ofList]
  refine Free.of_subset h fun c hc => ?_
  rw [dropBlankEnd, List.mem_reverse] at hc
  exact List.mem_reverse.mp ((List.dropWhile_sublist _).subset hc)

theorem Text.bracketFree_trim {s : String} (h : BracketFree s) : BracketFree (trim s) := by
  have hstart : BracketFree (String.ofList (s.toList.dropWhile isBlank)) := by
    rw [bracketFree_ofList]
    exact Free.of_subset h (List.dropWhile_sublist _).subset
  simpa only [trimEnd, trim, String.toList_ofList] using bracketFree_trimEnd hstart

namespace Doc

/-- What keeps a comment from ending is a backslash. -/
theorem mem_of_mem_guardEnd {cs : List Char} {c : Char} (h : c ∈ guardEnd cs) :
    c ∈ cs ∨ c = '\\' := by
  induction cs using guardEnd.induct with
  | case1 rest ih =>
      simp only [guardEnd, List.mem_cons] at h ⊢
      grind
  | case2 d rest hd ih =>
      rw [guardEnd.eq_2 d rest hd] at h
      simp only [List.mem_cons] at h ⊢
      grind
  | case3 => simp [guardEnd] at h

theorem bracketFree_guarded {s : String} (h : BracketFree s) : BracketFree (guarded s) := by
  rw [guarded, bracketFree_ofList]
  intro c hc
  rcases mem_of_mem_guardEnd hc with hc | rfl
  · exact h c hc
  · rfl

theorem bracketFree_innerLine {s : String} (h : BracketFree s) : BracketFree (innerLine s) := by
  rw [innerLine]
  split
  · decide
  · rw [bracketFree_append]
    exact ⟨by decide, bracketFree_guarded (Text.bracketFree_trimEnd h)⟩

theorem allFree_commentLines {doc : Doc} (h : AllFree doc) : AllFree doc.commentLines := by
  unfold commentLines
  split
  · exact allFree_nil
  · split
    next single _ =>
      have hsingle := bracketFree_guarded (Text.bracketFree_trim (h single List.mem_cons_self))
      simp only [allFree_cons, bracketFree_append]
      exact ⟨⟨⟨by decide, hsingle⟩, by decide⟩, allFree_nil⟩
    next =>
      rw [allFree_cons, allFree_append]
      refine ⟨by decide, fun s hs => ?_, by decide⟩
      obtain ⟨t, ht, rfl⟩ := List.mem_map.mp hs
      exact bracketFree_innerLine (h t ht)

end Doc

/-! ## Pages -/

namespace Page

/-- The closing brackets owed at the end of a page. -/
def owed (p : Page) : Option (List Char) := Brackets.owed p.text.toList []

@[simp] theorem owed_put (p : Page) (s : String) :
    (p.put s).owed = p.owed.bind (Brackets.owed s.toList) := by
  simp [owed, put]

@[simp] theorem level_put (p : Page) (s : String) : (p.put s).level = p.level := rfl

@[simp] theorem owed_indent (p : Page) : p.indent.owed = p.owed := rfl

@[simp] theorem level_indent (p : Page) : p.indent.level = p.level + 1 := rfl

@[simp] theorem owed_dedent (p : Page) : p.dedent.owed = p.owed := rfl

@[simp] theorem level_dedent (p : Page) : p.dedent.level = p.level - 1 := rfl

/-- What is balanced changes nothing. -/
theorem owed_put_of_balanced (p : Page) {s : String} (h : Balanced s) :
    (p.put s).owed = p.owed := by
  have hsome : Brackets.owed s.toList = some := funext h.owed_eq
  rw [owed_put, hsome, Option.bind_fun_some]

@[simp] theorem owed_putMargin (p : Page) (n : Nat) : (p.putMargin n).owed = p.owed := by
  induction n generalizing p with
  | zero => rfl
  | succ n ih => rw [putMargin, ih, owed_put_of_balanced p (by decide)]

@[simp] theorem level_putMargin (p : Page) (n : Nat) : (p.putMargin n).level = p.level := by
  induction n generalizing p with
  | zero => rfl
  | succ n ih => rw [putMargin, ih, level_put]

@[simp] theorem owed_line (p : Page) (s : String) :
    (p.line s).owed = p.owed.bind (Brackets.owed s.toList) := by
  rw [line, owed_put_of_balanced _ (by decide), owed_put, owed_putMargin]

@[simp] theorem level_line (p : Page) (s : String) : (p.line s).level = p.level := by
  rw [line, level_put, level_put, level_putMargin]

@[simp] theorem owed_blank (p : Page) : p.blank.owed = p.owed :=
  owed_put_of_balanced p (by decide)

@[simp] theorem level_blank (p : Page) : p.blank.level = p.level := rfl

theorem owed_line_of_balanced (p : Page) {s : String} (h : Balanced s) :
    (p.line s).owed = p.owed := by
  have hsome : Brackets.owed s.toList = some := funext h.owed_eq
  rw [owed_line, hsome, Option.bind_fun_some]

end Page

/-! ## Layouts -/

namespace Code

theorem writeAll_append (l m : List Code) (p : Page) :
    writeAll (l ++ m) p = writeAll m (writeAll l p) := by
  induction l generalizing p with
  | nil => rfl
  | cons c l ih => rw [List.cons_append, writeAll, ih, writeAll]

/-- Pieces of program text that leave a page as deep as it was and with the same brackets owed, on
every page that is at least so deep. -/
def Closed (least : Nat) (code : List Code) : Prop :=
  ∀ p : Page, least ≤ p.level →
    (writeAll code p).level = p.level ∧ (writeAll code p).owed = p.owed

variable {least : Nat}

theorem closed_nil : Closed least [] := fun _ _ => ⟨rfl, rfl⟩

theorem Closed.append {l m : List Code} (hl : Closed least l) (hm : Closed least m) :
    Closed least (l ++ m) := by
  intro p hp
  obtain ⟨hlevel, howed⟩ := hl p hp
  rw [writeAll_append, ← hlevel, ← howed]
  exact hm _ (by omega)

theorem Closed.cons {c : Code} {l : List Code} (hc : Closed least [c]) (hl : Closed least l) :
    Closed least (c :: l) :=
  hc.append hl

theorem closed_flatMap {α : Type} {l : List α} {f : α → List Code}
    (h : ∀ a ∈ l, Closed least (f a)) : Closed least (l.flatMap f) := by
  induction l with
  | nil => exact closed_nil
  | cons a l ih =>
      have hl := List.forall_mem_cons.mp h
      exact hl.1.append (ih hl.2)

theorem closed_blank : Closed least [blank] :=
  fun p _ => ⟨p.level_blank, p.owed_blank⟩

theorem closed_separated {groups : List (List Code)} (h : ∀ g ∈ groups, Closed least g) :
    Closed least (separated groups) := by
  induction groups using separated.induct with
  | case1 => exact closed_nil
  | case2 c => exact h c List.mem_cons_self
  | case3 c d rest ih =>
      have hgroups := List.forall_mem_cons.mp h
      exact hgroups.1.append (closed_blank.cons (ih hgroups.2))

theorem closed_line {text : String} (h : Balanced text) : Closed least [line text] :=
  fun p _ => ⟨p.level_line text, p.owed_line_of_balanced h⟩

theorem closed_map_line {l : List String} (h : ∀ text ∈ l, Balanced text) :
    Closed least (l.map line) := by
  rw [List.map_eq_flatMap]
  exact closed_flatMap fun text htext => closed_line (h text htext)

theorem lines_eq_writeAll (l : List String) (p : Page) : p.lines l = writeAll (l.map line) p := by
  induction l generalizing p with
  | nil => rfl
  | cons text l ih => exact ih (p.line text)

theorem closed_includes {targets : List String} (h : ∀ target ∈ targets, Balanced target) :
    Closed least [includes targets] := by
  intro p hp
  have hlines : ∀ text ∈ targets.map ("#include " ++ ·), Balanced text := by
    intro text htext
    obtain ⟨target, htarget, rfl⟩ := List.mem_map.mp htext
    exact Balanced.append (by decide) (h target htarget)
  simpa only [writeAll, write, lines_eq_writeAll] using closed_map_line hlines p hp

theorem closed_doc {doc : Doc} (h : AllFree doc) : Closed least [.doc doc] := by
  intro p hp
  have hlines : ∀ s ∈ doc.commentLines, Balanced s :=
    fun s hs => (Doc.allFree_commentLines h s hs).balanced
  simpa only [writeAll, write, lines_eq_writeAll] using closed_map_line hlines p hp

/-- A body in braces under its head may count on the depth that the braces add. -/
theorem level_owed_braces {head last : String} {body : List Code} (hhead : Balanced head)
    (hbody : Closed 1 body)
    (hlast : ∀ before, Brackets.owed last.toList ('}' :: before) = some before) (p : Page) :
    ((writeAll body (p.line (head ++ " \x7b")).indent).dedent.line last).level = p.level ∧
      ((writeAll body (p.line (head ++ " \x7b")).indent).dedent.line last).owed = p.owed := by
  obtain ⟨hlevel, howed⟩ := hbody (p.line (head ++ " \x7b")).indent (by simp)
  have hopen : ∀ before, Brackets.owed (head ++ " \x7b").toList before = some ('}' :: before) := by
    intro before
    rw [String.toList_append, owed_append, hhead.owed_eq]
    rfl
  constructor
  · simp [hlevel]
  · rw [Page.owed_line, Page.owed_dedent, howed, Page.owed_indent, Page.owed_line]
    cases p.owed with
    | none => rfl
    | some before => rw [Option.bind_some, hopen, Option.bind_some, hlast]

theorem closed_block {head : String} {body : List Code} (hhead : Balanced head)
    (hbody : Closed 1 body) : Closed least [block head body] :=
  fun p _ => level_owed_braces hhead hbody (fun _ => rfl) p

theorem closed_typeBlock {head : String} {body : List Code} (hhead : Balanced head)
    (hbody : Closed 1 body) : Closed least [typeBlock head body] :=
  fun p _ => level_owed_braces hhead hbody (fun _ => rfl) p

/-- The body of a namespace is as deep as the namespace. -/
theorem closed_inNamespace {name : String} {body : List Code} (hname : Balanced name)
    (hbody : Closed least body) : Closed least [inNamespace name body] := by
  intro p hp
  simp only [writeAll, write]
  split
  · exact hbody p hp
  · obtain ⟨hlevel, howed⟩ := hbody (p.line ("namespace " ++ name ++ " \x7b")).blank (by simpa)
    have hopen : ∀ before,
        Brackets.owed ("namespace " ++ name ++ " \x7b").toList before = some ('}' :: before) := by
      intro before
      rw [String.toList_append, String.toList_append, owed_append, owed_append,
        Balanced.owed_eq (by decide), Option.bind_some, hname.owed_eq]
      rfl
    have hclose : ∀ before,
        Brackets.owed ("\x7d  // namespace " ++ name).toList ('}' :: before) = some before := by
      intro before
      rw [String.toList_append, owed_append]
      exact hname.owed_eq before
    constructor
    · simp [hlevel]
    · rw [Page.owed_line, Page.owed_blank, howed, Page.owed_blank, Page.owed_line]
      cases p.owed with
      | none => rfl
      | some before => rw [Option.bind_some, hopen, Option.bind_some, hclose]

theorem closed_indented {body : List Code} (hbody : Closed 1 body) :
    Closed least (indent :: (body ++ [dedent])) := by
  intro p _
  obtain ⟨hlevel, howed⟩ := hbody p.indent (by simp)
  simp only [writeAll, write, writeAll_append]
  constructor
  · simp [hlevel]
  · rw [Page.owed_dedent, howed, Page.owed_indent]

end Code

end IdlBinder

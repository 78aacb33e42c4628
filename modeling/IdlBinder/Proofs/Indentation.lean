import IdlBinder.Proofs.CommentEnd
import Mathlib.Data.List.Infix

set_option autoImplicit false

/-!
# Moving a program to another depth

A layout is written in single steps: lines, blank lines, margins, and moves by one level.
`writeAll_eq_run` takes a layout apart into them, whatever stands in its blocks and namespaces. A
layout keeps to its level when its moves end where they start and lead nowhere less deep on the way;
inside a block they may well lead out of it. The rows of a layout are what it writes from the left
edge on. `Step.write_eq` says what a step writes on a deeper page, `run_eq` follows a list of steps,
and `writeAll_at_depth` concludes that a layout which keeps to its level writes the same rows at
every depth, with the indentation of the page in front.
-/

namespace IdlBinder

namespace Code

/-! ## Steps -/

/-- What is done to a page at a time. -/
inductive Step where
  | line (text : String)
  | blank
  | margin
  | indent
  | dedent

namespace Step

/-- Does a step on a page. -/
def write : Step → Page → Page
  | line text, p => p.line text
  | blank, p => p.blank
  | margin, p => p.putMargin p.level
  | indent, p => p.indent
  | dedent, p => p.dedent

/-- By how many levels a step moves. -/
def move : Step → Int
  | line _ | blank | margin => 0
  | indent => 1
  | dedent => -1

end Step

/-- The steps of a body in braces under its head. -/
def braced (head : String) (body : List Step) (last : String) : List Step :=
  .line (head ++ " \x7b") :: .indent :: (body ++ [.dedent, .line last])

mutual

/-- The steps in which a piece of program text is written. -/
def steps : Code → List Step
  | line text => [.line text]
  | blank => [.blank]
  | margin => [.margin]
  | indent => [.indent]
  | dedent => [.dedent]
  | block head body => braced head (stepsAll body) "\x7d"
  | typeBlock head body => braced head (stepsAll body) "\x7d;"
  | inNamespace name body =>
    if name.isEmpty then stepsAll body
    else
      .line ("namespace " ++ name ++ " \x7b") :: .blank ::
        (stepsAll body ++ [.blank, .line ("\x7d  // namespace " ++ name)])
  | includes targets => targets.map fun target => .line ("#include " ++ target)
  | doc lines => (Doc.commentLines lines).map .line

/-- The steps in which pieces of program text are written. -/
def stepsAll : List Code → List Step
  | [] => []
  | c :: rest => c.steps ++ stepsAll rest

end

/-- Does steps on a page, one after the other. -/
def run (l : List Step) (p : Page) : Page := l.foldl (fun p s => s.write p) p

@[simp] theorem run_nil (p : Page) : run [] p = p := rfl

@[simp] theorem run_cons (s : Step) (l : List Step) (p : Page) :
    run (s :: l) p = run l (s.write p) := rfl

@[simp] theorem run_append (l m : List Step) (p : Page) : run (l ++ m) p = run m (run l p) :=
  List.foldl_append

theorem run_map_line (l : List String) (p : Page) : run (l.map .line) p = p.lines l := by
  rw [run, List.foldl_map]
  rfl

mutual

/-- Writing a piece of program text is doing its steps. -/
theorem write_eq_run : (c : Code) → (p : Page) → c.write p = run c.steps p
  | line _, _ | blank, _ | margin, _ | indent, _ | dedent, _ => rfl
  | block head body, p => by
      rw [write, steps, braced, writeAll_eq_run body]
      simp [Step.write]
  | typeBlock head body, p => by
      rw [write, steps, braced, writeAll_eq_run body]
      simp [Step.write]
  | inNamespace name body, p => by
      rw [write, steps]
      split
      · exact writeAll_eq_run body p
      · rw [writeAll_eq_run body]
        simp [Step.write]
  | includes targets, p => by
      rw [write, steps, ← run_map_line, List.map_map]
      rfl
  | doc lines, p => by rw [write, steps, run_map_line]

/-- Writing pieces of program text is doing all their steps. -/
theorem writeAll_eq_run : (l : List Code) → (p : Page) → writeAll l p = run (stepsAll l) p
  | [], _ => rfl
  | c :: rest, p => by
      rw [writeAll, stepsAll, run_append, ← write_eq_run c, writeAll_eq_run rest]

end

/-! ## Rows -/

/-- What a step leaves on the page, with the level it is written at. -/
inductive Row where
  | line (level : Nat) (text : String)
  | blank
  | margin (level : Nat)

namespace Row

/-- The text of a row. -/
def text : Row → String
  | line level text => Page.lineText level text
  | blank => "\n"
  | margin level => Page.margin level

/-- The text of a row with more levels of indentation in front; a blank row stays empty. -/
def indented (n : Nat) : Row → String
  | blank => "\n"
  | r => Page.margin n ++ r.text

theorem indented_zero (r : Row) : r.indented 0 = r.text := by
  cases r <;> simp [indented, text, Page.margin]

end Row

namespace Step

/-- The row that a step writes at a level; moves write none. -/
def row? (k : Nat) : Step → Option Row
  | line text => some (.line k text)
  | blank => some .blank
  | margin => some (.margin k)
  | indent | dedent => none

/-- The level after a step. -/
def levelAfter (k : Nat) : Step → Nat
  | line _ | blank | margin => k
  | indent => k + 1
  | dedent => k - 1

end Step

/-- The rows that steps write from a level on. -/
def rowsFrom : Nat → List Step → List Row
  | _, [] => []
  | k, s :: l => (s.row? k).toList ++ rowsFrom (s.levelAfter k) l

/-- The rows of a layout that starts at the left edge. -/
def rows (code : List Code) : List Row := rowsFrom 0 (stepsAll code)

/-! ## Levels on the way -/

/-- How many levels deeper a list of steps ends than it starts. -/
def depth : List Step → Int
  | [] => 0
  | s :: l => s.move + depth l

/-- A layout that ends as deep as it starts and is nowhere less deep than that. -/
def KeepsLevel (code : List Code) : Prop :=
  depth (stepsAll code) = 0 ∧ ∀ l ∈ (stepsAll code).inits, 0 ≤ depth l

instance (code : List Code) : Decidable (KeepsLevel code) := inferInstanceAs (Decidable (_ ∧ _))

/-! ## Deeper pages -/

theorem margin_add (n k : Nat) : Page.margin (n + k) = Page.margin n ++ Page.margin k := by
  rw [Page.margin, List.replicate_add, String.join_append]
  rfl

/-- A step that leads nowhere less deep than the start moves by as many levels as it says. -/
theorem Step.levelAfter_eq {s : Step} {k : Nat} (h : 0 ≤ k + s.move) :
    (s.levelAfter k : Int) = k + s.move := by
  cases s with
  | dedent =>
      have hk : 0 ≤ (k : Int) + -1 := h
      show ((k - 1 : Nat) : Int) = k + -1
      omega
  | indent => rfl
  | line text => exact (Int.add_zero _).symm
  | blank => exact (Int.add_zero _).symm
  | margin => exact (Int.add_zero _).symm

/-- What a step does on a page that is `n` levels deeper. -/
theorem Step.write_eq {s : Step} {k : Nat} (h : 0 ≤ k + s.move) (n : Nat) (text : String) :
    s.write ⟨text, n + k⟩ =
      ⟨text ++ String.join ((s.row? k).toList.map (Row.indented n)), n + s.levelAfter k⟩ := by
  cases s with
  | line t =>
      rw [write, Page.line_eq_put]
      simp [Page.put, Page.lineText, margin_add, row?, Row.indented, Row.text, levelAfter,
        String.append_assoc]
  | blank => simp [write, Page.blank, Page.put, row?, Row.indented, levelAfter]
  | margin =>
      rw [write, Page.putMargin_eq_put]
      simp [Page.put, margin_add, row?, Row.indented, Row.text, levelAfter]
  | indent => simp [write, Page.indent, row?, levelAfter, Nat.add_assoc]
  | dedent =>
      have hk : 0 ≤ (k : Int) + -1 := h
      have hlevel : n + k - 1 = n + (k - 1) := by omega
      simp [write, Page.dedent, row?, levelAfter, hlevel]

/-- Steps that are nowhere less deep than `n` levels write their rows with so much more in front. -/
theorem run_eq (n : Nat) {l : List Step} {k j : Nat} (text : String)
    (hway : ∀ m ∈ l.inits, 0 ≤ k + depth m) (hend : (j : Int) = k + depth l) :
    run l ⟨text, n + k⟩ = ⟨text ++ String.join ((rowsFrom k l).map (Row.indented n)), n + j⟩ := by
  -- The rest of the steps goes on from the level that the first one leads to.
  induction l generalizing k text with
  | nil =>
      rw [depth] at hend
      have hj : j = k := by omega
      simp [rowsFrom, hj]
  | cons s l ih =>
      rw [List.inits_cons] at hway
      have hs : 0 ≤ k + s.move := by simpa [depth] using hway [s] (by simp)
      have hnext := Step.levelAfter_eq hs
      rw [run_cons, Step.write_eq hs, ih]
      · simp [rowsFrom, String.append_assoc]
      · intro m hm
        have := hway (s :: m) (by simpa using hm)
        rw [depth] at this
        omega
      · rw [depth] at hend
        omega

/-- A layout that keeps to its level may stand at any depth. It leaves a page as deep as it was, and
only adds to its text: the rows that it writes at the left edge, with the indentation of the page in
front of each line and nothing in front of the blank ones. -/
theorem writeAll_at_depth {code : List Code} (h : KeepsLevel code) (p : Page) :
    (writeAll code p).level = p.level ∧
      textOf code = String.join ((rows code).map Row.text) ∧
      (writeAll code p).text = p.text ++ String.join ((rows code).map (Row.indented p.level)) := by
  obtain ⟨hend, hway⟩ := h
  -- Levels are counted from the depth of the page, so the layout starts and ends at level zero.
  have hrun : ∀ q : Page, writeAll code q =
      ⟨q.text ++ String.join ((rows code).map (Row.indented q.level)), q.level⟩ := by
    intro q
    rw [writeAll_eq_run]
    exact run_eq q.level q.text (k := 0) (j := 0) (by simpa using hway) (by simp [hend])
  refine ⟨by rw [hrun], ?_, by rw [hrun]⟩
  rw [textOf, hrun, funext Row.indented_zero]
  exact String.empty_append

end Code

namespace Sample

/-- A class whose body steps back to the level of its braces, and moves of its own after it. -/
def kiosk : List Code :=
  [.inNamespace "" [.doc ["A kiosk."],
    .typeBlock "class Kiosk"
      [.dedent, .line "public:", .indent, .line "virtual ~Kiosk() = default;", .blank,
        .block "int Size() const" [.line "return 3;"]]],
    .indent, .line "// Kiosk", .dedent]

end Sample

open Code Sample in
theorem kiosk_at_depth :
    KeepsLevel kiosk ∧
      textOf kiosk =
        "/** A kiosk. */\nclass Kiosk \x7b\npublic:\n    virtual ~Kiosk() = default;\n\n" ++
        "    int Size() const \x7b\n        return 3;\n    \x7d\n\x7d;\n    // Kiosk\n" ∧
      (writeAll kiosk ⟨"#pragma once\n", 1⟩).level = 1 ∧
      (writeAll kiosk ⟨"#pragma once\n", 1⟩).text =
        "#pragma once\n    /** A kiosk. */\n    class Kiosk \x7b\n    public:\n" ++
        "        virtual ~Kiosk() = default;\n\n        int Size() const \x7b\n" ++
        "            return 3;\n        \x7d\n    \x7d;\n        // Kiosk\n" := by
  have hlevel : KeepsLevel kiosk := by decide +kernel
  obtain ⟨hend, hedge, htext⟩ := writeAll_at_depth hlevel ⟨"#pragma once\n", 1⟩
  refine ⟨hlevel, ?_, hend, ?_⟩
  · rw [hedge]
    decide +kernel
  · rw [htext]
    decide +kernel

end IdlBinder

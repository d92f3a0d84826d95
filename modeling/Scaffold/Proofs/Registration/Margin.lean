import Scaffold.Proofs.Layout.Level
import Scaffold.Proofs.Registration.Splice

/-! How far a statement is indented when it is spliced into a setup file. It stands one level deeper
than the inner brace, measured in whole units; whatever part of a unit the brace has in front of it,
the statement starts to the right of the brace and by one unit at most. Main statement:
`spliced_deeper`. -/

namespace Scaffold.Registration

variable {indent : Indent}

/-- A new line is on a deeper level than the brace below it. -/
theorem levelOf_lt_newLine (h : indent ≠ .spaces 0) (inner st : Text) :
    indent.levelOf inner < indent.levelOf (newLine indent inner st) := by
  rw [newLine, Indent.levelOf_ofLevel_append h, Nat.add_assoc, Nat.add_comm 1]
  exact Nat.lt_add_of_pos_right (Nat.succ_pos _)

/-- Indentation by a tab or by at least one blank is undone by measuring. The white space of the
level behind that of a line is longer than what the line starts with, by one unit at most; and what
is spliced into a file is on a deeper level than the brace below it. -/
theorem spliced_deeper (indent : Indent) (h : indent ≠ .spaces 0) :
    (∀ n s, indent.levelOf (indent.ofLevel n ++ s) = n + indent.levelOf s) ∧
    (∀ line, (indent.leading line).length < (indent.ofLevel (indent.levelOf line + 1)).length ∧
      (indent.ofLevel (indent.levelOf line + 1)).length ≤
        (indent.leading line).length + indent.unit.length) ∧
    ∀ st text new, splice indent st text = .ok (.inserted new) →
      ∃ above inner below, fileLines text = above ++ inner :: below ∧ isBrace inner = true ∧
        new = Text.ofLines (Text.ending text) (Text.endsWithNewline text)
          (above ++ (indent.ofLevel (indent.levelOf inner + 1) ++ st) :: inner :: below) ∧
        indent.levelOf inner <
          indent.levelOf (indent.ofLevel (indent.levelOf inner + 1) ++ st) := by
  refine ⟨Indent.levelOf_ofLevel_append h, fun line =>
    ⟨Indent.length_leading_lt h line, Indent.length_ofLevel_le h line⟩, ?_⟩
  intro st text new hs
  obtain ⟨above, inner, outer, hc⟩ := closes_of_splice hs
  obtain ⟨below, hl, hb⟩ := hc.lines
  have hnew := eq_ofLines_of_splice hl hb hc.inner hc.outer hs
  rw [List.append_assoc, List.singleton_append, newLine] at hnew
  exact ⟨above, inner, below, hl, hc.inner, hnew, levelOf_lt_newLine h inner st⟩

/-- A setup file whose inner brace stands behind one unit of four blanks and a half. -/
def slantedSetup : Text := "extension Config \x7b\n  func setup() \x7b\n      \x7d\n\x7d\n"

/-- The file with a statement. -/
def slantedNote : Text :=
  "extension Config \x7b\n  func setup() \x7b\n" ++
    "        preparations.append(Note.self)\n      \x7d\n\x7d\n"

theorem spliced_deeper_slanted :
    Indent.standard ≠ .spaces 0 ∧
    splice .standard (statement "Note") slantedSetup = .ok (.inserted slantedNote) ∧
    Indent.standard.levelOf (Indent.standard.ofLevel 3 ++ "      \x7d".toList) =
      3 + Indent.standard.levelOf "      \x7d".toList ∧
    (Indent.standard.leading "      \x7d".toList).length <
      (Indent.standard.ofLevel (Indent.standard.levelOf "      \x7d".toList + 1)).length ∧
    ∃ above inner below, fileLines slantedSetup = above ++ inner :: below ∧
      isBrace inner = true ∧
      slantedNote = Text.ofLines (Text.ending slantedSetup) (Text.endsWithNewline slantedSetup)
        (above ++ (Indent.standard.ofLevel (Indent.standard.levelOf inner + 1) ++
          statement "Note") :: inner :: below) ∧
      Indent.standard.levelOf inner < Indent.standard.levelOf
        (Indent.standard.ofLevel (Indent.standard.levelOf inner + 1) ++ statement "Note") := by
  have hw : Indent.standard ≠ .spaces 0 := by decide
  have hs : splice .standard (statement "Note") slantedSetup = .ok (.inserted slantedNote) := by
    decide +kernel
  obtain ⟨hlevel, hline, hspliced⟩ := spliced_deeper .standard hw
  exact ⟨hw, hs, hlevel _ _, (hline _).1, hspliced _ _ _ hs⟩

end Scaffold.Registration

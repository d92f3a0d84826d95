import Scaffold.Proofs.Registration.Splice
import Scaffold.Proofs.Text.Endings

/-! Splicing a statement into a setup file, seen through the characters of the file. The file is
taken apart into lines and written again, yet where its lines all end in the same way one line is
put in and every other character stays where it is. Main statement: `splice_inserts_line`. -/

namespace Scaffold.Registration

variable {indent : Indent} {st text new s t : Text} {e : Ending} {ls : List Text}

/-- A line end of a setup file is a line feed, or a line feed and one carriage return before it. -/
theorem lineText_eq_chomp (hn : '\n' ∉ s) (h : Text.NoLoneReturn (s ++ '\n' :: t)) :
    lineText (s ++ ['\n']) = Text.chomp (s ++ ['\n']) := by
  obtain ⟨hs, -, -⟩ := List.isChain_append.1 h.2
  rcases List.eq_nil_or_concat' s with rfl | ⟨l, c, rfl⟩
  · rfl
  · by_cases hc : c = '\r'
    · subst hc
      obtain ⟨-, -, hlast⟩ := List.isChain_append.1 hs
      have hl : IsLine l := by
        refine ⟨fun hm => hn (List.mem_append_left _ hm), fun hr => ?_⟩
        exact absurd (hlast _ hr _ rfl rfl) (by decide)
      rw [Text.chomp_append_crlf, List.append_assoc]
      exact lineText_append_ending hl .crlf
    · have hl : IsLine (l ++ [c]) := ⟨hn, by simp [hc]⟩
      rw [Text.chomp_append_newline hl.2]
      exact lineText_append_ending hl .lf

theorem noLoneReturn_of_append (h : Text.NoLoneReturn (s ++ '\n' :: t)) : t.NoLoneReturn := by
  obtain ⟨hlast, hchain⟩ := h
  obtain ⟨-, ht, -⟩ := List.isChain_append.1 hchain
  refine ⟨fun hr => hlast ?_, (List.isChain_cons.1 ht).2⟩
  simp [List.getLast?_append, List.getLast?_cons, hr]

/-- Without stray carriage returns, the lines of a setup file are those of any text. -/
theorem fileLines_eq_lines (h : text.NoLoneReturn) : fileLines text = Text.lines text := by
  induction text using Text.line_induction with
  | last s hs => rw [fileLines_of_isLine ⟨hs, h.1⟩, Text.lines_of_not_mem hs]
  | line s t hs ih =>
    rw [Text.lines_append_newline hs, ← ih (noLoneReturn_of_append h), ← lineText_eq_chomp hs h,
      fileLines, Text.pieces_append_newline hs, List.map_cons, ← fileLines]

/-- Writing the lines of a setup file again loses nothing. -/
theorem ofLines_fileLines (h : text.HasOneEnding) :
    Text.ofLines text.ending text.endsWithNewline (fileLines text) = text := by
  rcases h with hr | ⟨hc, hr⟩
  · rw [fileLines_eq_lines (Text.noLoneReturn_of_not_mem hr)]
    exact Text.ofLines_lines (.inl (Text.noCrlf_of_not_mem hr))
  · rw [fileLines_eq_lines hr]
    exact Text.ofLines_lines (.inr hc)

theorem fileLines_flatMap_append (h : ∀ l ∈ ls, IsLine l) :
    fileLines (ls.flatMap (· ++ e.text) ++ t) = ls ++ fileLines t := by
  induction ls with
  | nil => rfl
  | cons l ls ih =>
    obtain ⟨hl, hls⟩ := List.forall_mem_cons.1 h
    rw [List.flatMap_cons, List.append_assoc, fileLines_append_ending hl, ih hls]
    rfl

theorem starts_line (e : Ending) (ls : List Text) :
    ls.flatMap (· ++ e.text) = [] ∨ (ls.flatMap (· ++ e.text)).getLast? = some '\n' := by
  rcases List.eq_nil_or_concat' ls with rfl | ⟨ls, l, rfl⟩
  · exact .inl rfl
  · right
    rw [List.flatMap_append, List.flatMap_singleton]
    cases e <;> simp [Ending.text]

/-- If a statement is added to a file with one kind of line ending, the file falls into a part in
front of the line of the inner brace and the rest, which begins with that line and closes with the
two braces; between the two parts comes the new line, one level deeper than the brace, with the
ending of the file. -/
theorem splice_inserts_line (indent : Indent) (st text new : Text) (he : text.HasOneEnding)
    (h : splice indent st text = .ok (.inserted new)) :
    ∃ front back inner outer, text = front ++ back ∧
      (front = [] ∨ front.getLast? = some '\n') ∧ Closes back [] inner outer ∧
      new = front ++ indent.ofLevel (indent.levelOf inner + 1) ++ st ++ text.ending.text ++
        back := by
  obtain ⟨above, inner, outer, hc⟩ := closes_of_splice h
  obtain ⟨below, hl, hb⟩ := hc.lines
  have hread := ofLines_fileLines he
  have hnew := eq_ofLines_of_splice hl hb hc.inner hc.outer h
  have habove : ∀ l ∈ above, IsLine l := fun l hm =>
    isLine_of_mem_fileLines (hl ▸ List.mem_append_left _ hm)
  rw [hl, Text.ofLines_append_cons] at hread
  rw [Text.ofLines_append_cons, List.flatMap_append, List.flatMap_singleton] at hnew
  generalize Text.ofLines text.ending text.endsWithNewline (inner :: below) = back at hread hnew
  refine ⟨_, back, inner, outer, hread.symm, starts_line _ above, ⟨⟨below, ?_, hb⟩, hc.inner,
    hc.outer⟩, ?_⟩
  · rw [← hread, fileLines_flatMap_append habove] at hl
    exact List.append_cancel_left hl
  · rw [hnew, newLine]
    simp

/-- The two parts of a setup file with a blank line between its braces and no line ending at its
end. -/
def looseFront : Text := "extension Config \x7b\r\n\tfunc setup() \x7b\r\n"

def looseBack : Text := "\t\x7d\r\n \r\n\x7d"

theorem splice_looseSetup :
    Text.HasOneEnding (looseFront ++ looseBack) ∧
    splice .tab (statement "Note") (looseFront ++ looseBack) = .ok (.inserted
      (looseFront ++ "\t\tpreparations.append(Note.self)\r\n" ++ looseBack)) ∧
    ∃ front back inner outer, looseFront ++ looseBack = front ++ back ∧
      (front = [] ∨ front.getLast? = some '\n') ∧ Closes back [] inner outer ∧
      looseFront ++ "\t\tpreparations.append(Note.self)\r\n" ++ looseBack =
        front ++ Indent.tab.ofLevel (Indent.tab.levelOf inner + 1) ++ statement "Note" ++
          (Text.ending (looseFront ++ looseBack)).text ++ back := by
  have he : Text.HasOneEnding (looseFront ++ looseBack) := by decide +kernel
  have h : splice .tab (statement "Note") (looseFront ++ looseBack) = .ok (.inserted
      (looseFront ++ "\t\tpreparations.append(Note.self)\r\n" ++ looseBack)) := by
    decide +kernel
  exact ⟨he, h, splice_inserts_line _ _ _ _ he h⟩

end Scaffold.Registration

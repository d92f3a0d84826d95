import Scaffold.Proofs.Text.Lines
import Scaffold.Proofs.Text.Split
import Scaffold.Registration

/-! Splicing a statement into a setup file, seen through the lines of the file. Lines that are
written and read again are the same lines, up to an empty one at the end, so a file that closes
with two braces closes with them again, and the new statement stands directly above the inner
brace. Main statement: `Closes.inserted`. -/

namespace Scaffold.Registration

variable {indent : Indent} {st text new inner outer : Text} {above below ls : List Text}

/-! ### Lines -/

/-- A text that can be a line: no line feed in it, and no carriage return at its end. -/
def IsLine (s : Text) : Prop :=
  '\n' ∉ s ∧ s.getLast? ≠ some '\r'

theorem isLine_lineText {s : Text} (h : '\n' ∉ s.dropLast) : IsLine (lineText s) := by
  have hlast : ∀ c, (lineText s).getLast? = some c → c ≠ '\n' ∧ c ≠ '\r' := by
    intro c hc
    have hn := Text.of_getLast?_dropEndWhile hc
    simpa using hn
  refine ⟨fun hm => ?_, fun hr => (hlast _ hr).2 rfl⟩
  have hm' : '\n' ∈ (lineText s).dropLast := by
    apply List.mem_dropLast_of_mem_of_ne_getLast? hm
    intro he
    exact (hlast _ he.symm).1 rfl
  obtain ⟨rest, hrest⟩ : lineText s <+: s := List.rdropWhile_prefix _ _
  apply h
  by_cases hr : rest = []
  · rw [hr, List.append_nil] at hrest
    rwa [hrest] at hm'
  · rw [← hrest, List.dropLast_append_of_ne_nil hr]
    exact List.mem_append_left _ hm

theorem isLine_of_mem_fileLines {s : Text} (h : s ∈ fileLines text) : IsLine s := by
  obtain ⟨piece, hp, rfl⟩ := List.mem_map.1 h
  exact isLine_lineText (Text.not_mem_dropLast_of_mem_pieces hp)

theorem lineText_append_ending {s : Text} (h : IsLine s) (e : Ending) :
    lineText (s ++ e.text) = s := by
  have hself : lineText s = s := by
    apply List.rdropWhile_eq_self_iff.2
    intro hne hc
    have hl := List.getLast?_eq_some_getLast hne
    have hmem := List.getLast_mem hne
    rcases (by simpa using hc : s.getLast hne = '\n' ∨ s.getLast hne = '\r') with hc | hc
    · exact h.1 (hc ▸ hmem)
    · exact h.2 (by rw [hl, hc])
  have hdrop : ∀ (s : Text) (c : Char), c = '\n' ∨ c = '\r' → lineText (s ++ [c]) = lineText s := by
    intro s c hc
    exact List.rdropWhile_concat_pos _ _ _ (by simpa using hc)
  cases e with
  | lf => exact (hdrop s '\n' (.inl rfl)).trans hself
  | crlf =>
    have htwo : s ++ Ending.text .crlf = (s ++ ['\r']) ++ ['\n'] := by simp [Ending.text]
    rw [htwo, hdrop _ _ (.inl rfl), hdrop _ _ (.inr rfl), hself]

theorem fileLines_append_ending {s : Text} (h : IsLine s) (e : Ending) (t : Text) :
    fileLines (s ++ e.text ++ t) = s :: fileLines t := by
  have hpieces : Text.pieces (s ++ e.text ++ t) = (s ++ e.text) :: Text.pieces t := by
    cases e with
    | lf =>
      have := Text.pieces_append_newline h.1 t
      simpa [Ending.text] using this
    | crlf =>
      have hr : '\n' ∉ s ++ ['\r'] := by simp [h.1]
      have := Text.pieces_append_newline hr t
      simpa [Ending.text] using this
  rw [fileLines, hpieces, List.map_cons, lineText_append_ending h, ← fileLines]

theorem fileLines_of_isLine {s : Text} (h : IsLine s) :
    fileLines s = if s = [] then [] else [s] := by
  have hself : lineText s = s := by
    have := lineText_append_ending h .lf
    have hdrop : lineText (s ++ ['\n']) = lineText s := List.rdropWhile_concat_pos _ _ _ (by simp)
    rwa [show s ++ Ending.text .lf = s ++ ['\n'] from rfl, hdrop] at this
  rw [fileLines, Text.pieces_of_not_mem h.1]
  by_cases he : s = []
  · simp [he]
  · simp [he, hself]

/-- Lines that are written are read again. Only an empty last line without an ending is lost. -/
theorem fileLines_ofLines (e : Ending) (closed : Bool) (h : ∀ s ∈ ls, IsLine s) (hne : ls ≠ []) :
    fileLines (Text.ofLines e closed ls) = ls ∨
      ls = fileLines (Text.ofLines e closed ls) ++ [[]] := by
  induction ls with
  | nil => exact absurd rfl hne
  | cons s ls ih =>
    have hs := h s List.mem_cons_self
    rcases ls with _ | ⟨s', ls⟩
    · cases closed with
      | true =>
        have ht : Text.ofLines e true [s] = s ++ e.text ++ [] := by
          simp [Text.ofLines, Text.join]
        left
        rw [ht, fileLines_append_ending hs]
        rfl
      | false =>
        have ht : Text.ofLines e false [s] = s := by simp [Text.ofLines, Text.join]
        rw [ht, fileLines_of_isLine hs]
        by_cases he : s = []
        · right; simp [he]
        · left; simp [he]
    · have ht : Text.ofLines e closed (s :: s' :: ls) =
          s ++ e.text ++ Text.ofLines e closed (s' :: ls) := by
        simp [Text.ofLines, Text.join_cons_cons]
      rw [ht, fileLines_append_ending hs]
      rcases ih (fun t hm => h t (List.mem_cons_of_mem _ hm)) (by simp) with hl | hl
      · left; rw [hl]
      · right; rw [List.cons_append, ← hl]

/-! ### Statements -/

/-- What stands before the name of the model in a statement. -/
def opening : Text := "preparations.append("

/-- What stands behind the name of the model in a statement. -/
def closing : Text := ".self)"

theorem statement_eq (model : Text) : statement model = opening ++ (model ++ closing) := by
  rw [← List.append_assoc]
  rfl

theorem head?_statement (model : Text) : (statement model).head? = some 'p' := by
  rw [statement_eq, List.head?_append, show opening.head? = some 'p' by decide]
  rfl

theorem getLast?_append_statement (s model : Text) :
    (s ++ statement model).getLast? = some ')' := by
  rw [statement_eq, ← List.append_assoc, ← List.append_assoc, List.getLast?_append,
    show closing.getLast? = some ')' by decide]
  rfl

theorem trim_statement (model : Text) : Text.trim (statement model) = statement model :=
  Text.trim_eq_self (head?_statement model) (by decide) (getLast?_append_statement [] model)
    (by decide)

theorem statement_injective {m n : Text} (h : statement m = statement n) : m = n := by
  rw [statement_eq, statement_eq] at h
  exact List.append_cancel_right (List.append_cancel_left h)

theorem statement_ne_nil (model : Text) : statement model ≠ [] := by
  intro h
  have hh := head?_statement model
  rw [h] at hh
  cases hh

theorem statement_ne_brace (model : Text) : statement model ≠ brace := by
  intro h
  have hh := head?_statement model
  rw [h] at hh
  revert hh
  decide

theorem isBlank_ofLevel (indent : Indent) (level : Nat) :
    Text.isBlank (indent.ofLevel level) = true := by
  cases indent <;> simp [Text.isBlank, Indent.ofLevel, Indent.char, Text.isBlankChar]

/-- The line of a statement is trimmed to the statement. -/
theorem trim_indented (indent : Indent) (level : Nat) (model : Text) :
    Text.trim (indent.ofLevel level ++ statement model) = statement model := by
  rw [Text.trim_append_of_isBlank (isBlank_ofLevel indent level), trim_statement]

theorem isLine_indented (indent : Indent) (level : Nat) {model : Text} (h : '\n' ∉ model) :
    IsLine (indent.ofLevel level ++ statement model) := by
  refine ⟨fun hm => ?_, ?_⟩
  · rw [statement_eq, List.mem_append, List.mem_append, List.mem_append] at hm
    rcases hm with hm | hm | hm | hm
    · cases indent <;> simp [Indent.ofLevel, Indent.char] at hm
    · revert hm
      decide
    · exact h hm
    · revert hm
      decide
  · rw [getLast?_append_statement]
    decide

/-! ### Closing braces -/

/-- The lines that are not blank. -/
def solid (ls : List Text) : List Text :=
  ls.filter fun line => !Text.isBlank line

/-- The last two lines of a file that are not blank are two braces, the inner one below the lines
`above`. -/
structure Closes (text : Text) (above : List Text) (inner outer : Text) : Prop where
  lines : ∃ below, fileLines text = above ++ inner :: below ∧ solid below = [outer]
  inner : isBrace inner = true
  outer : isBrace outer = true

/-- A file whose last two lines that are not blank are braces. -/
theorem exists_closes {body : List Text} (h : solid (fileLines text) = body ++ [inner, outer])
    (hi : isBrace inner = true) (ho : isBrace outer = true) :
    ∃ above, Closes text above inner outer := by
  obtain ⟨front, back, hl, -, hback⟩ := List.filter_eq_append_iff.1 h
  obtain ⟨blank, below, hb, -, -, hbelow⟩ := List.filter_eq_cons_iff.1 hback
  exact ⟨front ++ blank, ⟨below, by rw [hl, hb, List.append_assoc], hbelow⟩, hi, ho⟩

theorem isBlank_of_isBrace {line : Text} (h : isBrace line = true) : Text.isBlank line = false := by
  apply Text.isBlank_eq_false_of_trim
  rw [eq_of_beq h]
  simp [brace]

theorem Closes.solid_eq (hc : Closes text above inner outer) :
    solid (fileLines text) = solid above ++ [inner, outer] := by
  obtain ⟨below, hl, hb⟩ := hc.lines
  rw [hl, solid, List.filter_append, List.filter_cons_of_pos (by simp [isBlank_of_isBrace hc.inner]),
    ← solid, ← solid, hb]

theorem map_fst_filter_zipIdx (ls : List Text) (k : Nat) :
    ((ls.zipIdx k).filter fun x => !Text.isBlank x.1).map Prod.fst = solid ls := by
  rw [solid, ← List.zipIdx_map_fst k ls, List.filter_map]
  simp [Function.comp_def]

/-- Lines are all blank, or one of them is the last one that is not. -/
theorem solid_cases (ls : List Text) : solid ls = [] ∨
    ∃ above line below, ls = above ++ line :: below ∧ Text.isBlank line = false ∧
      solid below = [] := by
  rcases List.eq_nil_or_concat' (solid ls) with h | ⟨body, line, h⟩
  · exact .inl h
  · obtain ⟨front, back, rfl, -, hback⟩ := List.filter_eq_append_iff.1 h
    obtain ⟨blank, below, rfl, -, hline, hbelow⟩ := List.filter_eq_cons_iff.1 hback
    exact .inr ⟨front ++ blank, line, below, by rw [List.append_assoc], by simpa using hline,
      hbelow⟩

theorem solid_append_cons {line : Text} (hline : Text.isBlank line = false)
    (hb : solid below = []) : solid (above ++ line :: below) = solid above ++ [line] := by
  rw [solid, List.filter_append, List.filter_cons_of_pos (by simp [hline]), ← solid, ← solid, hb]

theorem closingLines_of_solid (h : solid ls = []) : closingLines ls = [] := by
  rw [closingLines, List.map_eq_nil_iff.1 ((map_fst_filter_zipIdx ls 0).trans h)]
  rfl

theorem closingLines_append_cons {line : Text} (hline : Text.isBlank line = false)
    (hb : solid below = []) :
    closingLines (above ++ line :: below) = (line, above.length) :: closingLines above := by
  have hbelow : ∀ k, (below.zipIdx k).filter (fun x => !Text.isBlank x.1) = [] := fun k =>
    List.map_eq_nil_iff.1 ((map_fst_filter_zipIdx below k).trans hb)
  have hsplit : (above ++ line :: below).zipIdx =
      above.zipIdx ++ (line, above.length) :: below.zipIdx (above.length + 1) := by
    rw [List.zipIdx_append, List.zipIdx_cons]
    simp
  unfold closingLines
  rw [hsplit, List.filter_append, List.filter_cons_of_pos (by simp [hline]), hbelow,
    List.reverse_append]
  rfl

/-- The lines at which `splice` looks are the last two that are not blank. -/
theorem closingLines_two (hi : Text.isBlank inner = false) (hb : solid below = [outer]) :
    ∃ j, closingLines (above ++ inner :: below) =
      (outer, j) :: (inner, above.length) :: closingLines above := by
  rcases solid_cases below with h | ⟨between, line, rest, rfl, hline, hrest⟩
  · rw [h] at hb
    cases hb
  · rw [solid_append_cons hline hrest] at hb
    obtain ⟨hbetween, rfl⟩ : solid between = [] ∧ line = outer := by
      obtain ⟨h, h'⟩ := List.append_inj' (hb.trans (List.nil_append [outer]).symm) rfl
      exact ⟨h, by simpa using h'⟩
    have happ : above ++ inner :: (between ++ line :: rest) =
        (above ++ inner :: between) ++ line :: rest := by simp
    exact ⟨_, by rw [happ, closingLines_append_cons hline hrest, closingLines_append_cons hi hbetween]⟩

/-- A statement that is in a file already is found. -/
theorem splice_eq_present_iff :
    splice indent st text = .ok .present ↔ ∃ line ∈ fileLines text, Text.trim line = st := by
  simp only [splice]
  constructor
  · intro h
    split at h
    · next ha => simpa using ha
    · split at h
      · split_ifs at h
        cases h
      · cases h
      · cases h
  · rintro ⟨line, hl, ht⟩
    rw [if_pos]
    exact List.any_eq_true.2 ⟨line, hl, by simp [ht]⟩

theorem of_splice_eq_inserted (h : splice indent st text = .ok (.inserted new)) :
    ∀ line ∈ fileLines text, Text.trim line ≠ st := by
  intro line hl ht
  rw [splice_eq_present_iff.2 ⟨line, hl, ht⟩] at h
  cases h

/-- A statement is found in a file that closes with two braces, or it is added. -/
theorem Closes.exists_splice (hc : Closes text above inner outer) (indent : Indent) (st : Text) :
    ∃ s, Registration.splice indent st text = .ok s := by
  obtain ⟨below, hl, hb⟩ := hc.lines
  obtain ⟨j, hclosing⟩ := @closingLines_two _ _ above below (isBlank_of_isBrace hc.inner) hb
  simp only [Registration.splice, hl, hclosing, hc.inner, hc.outer, Bool.not_true,
    Bool.false_eq_true, if_false]
  split
  · exact ⟨_, rfl⟩
  · exact ⟨_, rfl⟩

/-- Nothing is added to a file that does not close with two braces. -/
theorem closes_of_splice (h : splice indent st text = .ok (.inserted new)) :
    ∃ above inner outer, Closes text above inner outer := by
  simp only [splice] at h
  split at h
  · cases h
  · split at h
    · next outer inner rest hlines =>
      split_ifs at h with ho hi
      have hsolid : solid (fileLines text) =
          (rest.map Prod.fst).reverse ++ [inner.1, outer.1] := by
        have hmap := map_fst_filter_zipIdx (fileLines text) 0
        rw [← List.reverse_reverse ((fileLines text).zipIdx.filter _)] at hmap
        rw [← hmap]
        unfold closingLines at hlines
        rw [hlines]
        simp
      obtain ⟨above, hc⟩ := exists_closes hsolid (by simpa using hi) (by simpa using ho)
      exact ⟨above, _, _, hc⟩
    · cases h
    · cases h

/-- The line that a statement is added on, if the inner brace is `inner`. -/
def newLine (indent : Indent) (inner statement : Text) : Text :=
  indent.ofLevel (indent.levelOf inner + 1) ++ statement

/-- What is spliced into a file that closes with two braces stands above the inner one. -/
theorem eq_ofLines_of_splice (hl : fileLines text = above ++ inner :: below)
    (hb : solid below = [outer]) (hi : isBrace inner = true) (ho : isBrace outer = true)
    (h : splice indent st text = .ok (.inserted new)) :
    new = Text.ofLines (Text.ending text) (Text.endsWithNewline text)
      ((above ++ [newLine indent inner st]) ++ inner :: below) := by
  obtain ⟨j, hclosing⟩ := @closingLines_two _ _ above below (isBlank_of_isBrace hi) hb
  simp only [splice] at h
  split at h
  · cases h
  · rw [hl, hclosing] at h
    simp only [ho, hi, Bool.not_true, Bool.false_eq_true, if_false, Except.ok.injEq,
      Splice.inserted.injEq] at h
    rw [← h, insertAt, hl]
    simp [newLine]

/-- Lines that close with two braces still do when they are written. -/
theorem closes_ofLines (e : Ending) (closed : Bool)
    (hlines : ∀ s ∈ above ++ inner :: below, IsLine s) (hb : solid below = [outer])
    (hi : isBrace inner = true) (ho : isBrace outer = true) :
    Closes (Text.ofLines e closed (above ++ inner :: below)) above inner outer := by
  refine ⟨?_, hi, ho⟩
  have hread := fileLines_ofLines e closed hlines (by simp)
  generalize fileLines (Text.ofLines e closed (above ++ inner :: below)) = read at hread ⊢
  rcases hread with hf | hf
  · exact ⟨below, hf, hb⟩
  · -- the last line is empty, so it is one of those below the inner brace
    rcases List.eq_nil_or_concat' below with rfl | ⟨below', last, rfl⟩
    · cases hb
    · have hf' : (above ++ inner :: below') ++ [last] = read ++ [[]] := by
        rw [← hf]
        simp
      obtain ⟨hinit, hlast⟩ := List.append_inj' hf' rfl
      obtain rfl : last = [] := by simpa using hlast
      refine ⟨below', hinit.symm, ?_⟩
      simpa [solid, Text.isBlank] using hb

/-- A statement that is spliced into a file stands directly above the inner brace, one level deeper,
and the file closes with the same braces as before. -/
theorem Closes.inserted {model : Text} (hc : Closes text above inner outer) (hm : '\n' ∉ model)
    (h : Registration.splice indent (statement model) text = .ok (.inserted new)) :
    Closes new (above ++ [newLine indent inner (statement model)]) inner outer := by
  obtain ⟨below, hl, hb⟩ := hc.lines
  rw [eq_ofLines_of_splice hl hb hc.inner hc.outer h]
  refine closes_ofLines _ _ (fun s hs => ?_) hb hc.inner hc.outer
  rw [List.append_assoc, List.mem_append, List.mem_append, List.mem_singleton] at hs
  rcases hs with hs | rfl | hs
  · exact isLine_of_mem_fileLines (hl ▸ List.mem_append_left _ hs)
  · exact isLine_indented _ _ hm
  · exact isLine_of_mem_fileLines (hl ▸ List.mem_append_right _ hs)

theorem Closes.splice {model : Text} (hc : Closes text above inner outer) (hm : '\n' ∉ model)
    (h : Registration.splice indent (statement model) text = .ok (.inserted new)) :
    ∃ line, Text.trim line = statement model ∧ Closes new (above ++ [line]) inner outer :=
  ⟨_, trim_indented indent (indent.levelOf inner + 1) model, hc.inserted hm h⟩

end Scaffold.Registration

import Scaffold.Proofs.Registration.Splice
import Scaffold.Proofs.Text.Endings
import Scaffold.Proofs.Text.Spans

/-! What comes of splicing a statement into a setup file. The statement is in the file already, or
it is added, or a closing brace is missing; then the error points at the line that stands where the
brace belongs, or at the end of the file if there is no such line. Main statement:
`splice_outcome`. -/

namespace Scaffold.Registration

variable {indent : Indent} {st text s t line : Text} {above below ls ps qs : List Text} {span : Span}

/-! ### Pieces and lines -/

/-- Behind a line feed the pieces of a text start anew. -/
theorem pieces_append (hs : s = [] ∨ s.getLast? = some '\n') (t : Text) :
    Text.pieces (s ++ t) = Text.pieces s ++ Text.pieces t := by
  induction s using Text.line_induction with
  | last s hn =>
    obtain rfl : s = [] := hs.resolve_right fun h => hn (List.mem_of_getLast? h)
    rfl
  | line l s hn ih =>
    have hs' : s = [] ∨ s.getLast? = some '\n' := by
      refine or_iff_not_imp_left.2 fun hne => ?_
      simpa [List.getLast?_append, List.getLast?_cons, List.getLast?_eq_some_getLast hne] using hs
    rw [List.append_assoc, List.cons_append, Text.pieces_append_newline hn,
      Text.pieces_append_newline hn, ih hs']
    rfl

/-- The first pieces of a text make up a text with just these pieces, which ends with a line feed. -/
theorem of_pieces_eq_append (h : Text.pieces t = ps ++ qs) :
    (qs ≠ [] → ps.flatten = [] ∨ ps.flatten.getLast? = some '\n') ∧
      Text.pieces ps.flatten = ps := by
  induction t using Text.line_induction generalizing ps with
  | last s hn =>
    rw [Text.pieces_of_not_mem hn] at h
    rcases ps with _ | ⟨p, ps⟩
    · exact ⟨fun _ => .inl rfl, rfl⟩
    · split at h
      · cases h
      · next hne =>
        obtain ⟨rfl, hrest⟩ := List.cons.inj h
        obtain ⟨rfl, rfl⟩ := List.append_eq_nil_iff.1 hrest.symm
        refine ⟨fun hq => absurd rfl hq, ?_⟩
        simp [Text.pieces_of_not_mem hn, hne]
  | line s t hn ih =>
    rw [Text.pieces_append_newline hn] at h
    rcases ps with _ | ⟨p, ps⟩
    · exact ⟨fun _ => .inl rfl, rfl⟩
    · obtain ⟨rfl, hrest⟩ := List.cons.inj h
      obtain ⟨hlast, hpieces⟩ := ih hrest
      have hflat : ((s ++ ['\n']) :: ps).flatten = s ++ '\n' :: ps.flatten := by simp
      rw [hflat, Text.pieces_append_newline hn, hpieces]
      refine ⟨fun hq => .inr ?_, rfl⟩
      rcases hlast hq with he | he
      · simp [he]
      · simp [List.getLast?_append, List.getLast?_cons, he]

/-- The lines of a file are cut off it as its pieces are. -/
theorem fileLines_append (hs : s = [] ∨ s.getLast? = some '\n') (t : Text) :
    fileLines (s ++ t) = fileLines s ++ fileLines t := by
  rw [fileLines, pieces_append hs, List.map_append]
  rfl

/-! ### Where lines stand -/

/-- `span` covers a line of a file: in front of it stand the lines `above`, and with what is behind
it begin the lines from `line` on. -/
def CoversLine (span : Span) (text : Text) (above : List Text) (line : Text) (below : List Text) :
    Prop :=
  ∃ before after, span.Covers text before line after ∧
    (before = [] ∨ before.getLast? = some '\n') ∧ fileLines before = above ∧
    fileLines (line ++ after) = line :: below

/-- The stretch of a line is found by its index. -/
theorem coversLine_iff : CoversLine span text above line below ↔
    fileLines text = above ++ line :: below ∧ span = lineSpan text (line, above.length) := by
  constructor
  · rintro ⟨before, after, hc, hb, rfl, hl⟩
    obtain ⟨rfl, rfl⟩ := Span.covers_iff.1 hc
    rw [List.append_assoc]
    refine ⟨by rw [fileLines_append hb, hl], ?_⟩
    rw [lineSpan, pieces_append hb, fileLines, List.length_map, List.take_left, Text.flatten_pieces]
  · rintro ⟨hl, rfl⟩
    obtain ⟨ps, qs, hpieces, rfl, hqs⟩ := List.map_eq_append_iff.1 hl
    obtain ⟨p, qs, rfl, rfl, rfl⟩ := List.map_eq_cons_iff.1 hqs
    obtain ⟨hlast, hps⟩ := of_pieces_eq_append hpieces
    have hb := hlast (List.cons_ne_nil p qs)
    obtain ⟨tail, htail⟩ : lineText p <+: p := List.rdropWhile_prefix _ _
    have htext : text = ps.flatten ++ (lineText p ++ (tail ++ qs.flatten)) := by
      rw [← List.append_assoc (lineText p), htail, ← Text.flatten_pieces text, hpieces]
      simp
    have hrest : Text.pieces (lineText p ++ (tail ++ qs.flatten)) = p :: qs := by
      have hall := pieces_append hb (lineText p ++ (tail ++ qs.flatten))
      rw [← htext, hpieces, hps] at hall
      exact (List.append_cancel_left hall).symm
    refine ⟨ps.flatten, tail ++ qs.flatten, Span.covers_iff.2 ⟨?_, ?_⟩, hb, ?_, ?_⟩
    · rw [htext, List.append_assoc]
    · rw [lineSpan, List.length_map, hpieces, List.take_left]
    · rw [fileLines, hps]
    · rw [fileLines, hrest, List.map_cons]

/-! ### Missing braces -/

/-- Where a file lacks a closing brace: at its last line that is not blank, at the one before that
line, or, if there is none, at the end of the file. -/
inductive LacksBrace (text : Text) : Span → Prop
  | outer {above below : List Text} {line : Text} {span : Span}
      (hspan : CoversLine span text above line below) (hline : Text.isBlank line = false)
      (hbelow : solid below = []) (hbrace : isBrace line = false) : LacksBrace text span
  | inner {above below : List Text} {line outer : Text} {span : Span}
      (hspan : CoversLine span text above line below) (hline : Text.isBlank line = false)
      (hbelow : solid below = [outer]) (houter : isBrace outer = true)
      (hbrace : isBrace line = false) : LacksBrace text span
  | file {span : Span} (hspan : span.Covers text text [] [])
      (hbraces : ∀ line ∈ solid (fileLines text), isBrace line = true)
      (hone : (solid (fileLines text)).length ≤ 1) : LacksBrace text span

theorem covers_end_iff : span.Covers text text [] [] ↔ span = endSpan text := by
  rw [Span.covers_iff, List.append_nil, List.append_nil]
  exact and_iff_right rfl

/-- What a file without the statement is good for depends on its last two lines that are not
blank. -/
theorem splice_of_absent (h : ∀ line ∈ fileLines text, Text.trim line ≠ st) :
    splice indent st text = match closingLines (fileLines text) with
      | outer :: inner :: _ =>
        if !isBrace outer.1 then .error (lineSpan text outer)
        else if !isBrace inner.1 then .error (lineSpan text inner)
        else .ok (.inserted (insertAt indent st text inner.1 inner.2))
      | [outer] => .error (if isBrace outer.1 then endSpan text else lineSpan text outer)
      | [] => .error (endSpan text) :=
  if_neg (by simpa using h)

theorem lacksBrace_of_splice (h : splice indent st text = .error span) : LacksBrace text span := by
  have habsent : ∀ line ∈ fileLines text, Text.trim line ≠ st := fun line hl ht => by
    rw [splice_eq_present_iff.2 ⟨line, hl, ht⟩] at h
    cases h
  rw [splice_of_absent habsent] at h
  rcases solid_cases (fileLines text) with hs | ⟨above, outer, below, hl, ho, hb⟩
  · rw [closingLines_of_solid hs] at h
    exact .file (covers_end_iff.2 (Except.error.inj h).symm) (by simp [hs]) (by simp [hs])
  · have houter := fun hspan => @LacksBrace.outer text above below outer span hspan ho hb
    rw [hl, closingLines_append_cons ho hb] at h
    rcases solid_cases above with hs | ⟨above, inner, between, rfl, hi, hm⟩
    · have hone : solid (fileLines text) = [outer] := by rw [hl, solid_append_cons ho hb, hs]; rfl
      rw [closingLines_of_solid hs] at h
      have hspan := (Except.error.inj h).symm
      split_ifs at hspan with hbrace
      · exact .file (covers_end_iff.2 hspan) (by simp [hone, hbrace]) (by simp [hone])
      · exact houter (coversLine_iff.2 ⟨hl, hspan⟩) (by simpa using hbrace)
    · rw [closingLines_append_cons hi hm] at h
      dsimp only at h
      split_ifs at h with hbrace hbrace'
      · exact houter (coversLine_iff.2 ⟨hl, (Except.error.inj h).symm⟩) (by simpa using hbrace)
      · rw [List.append_assoc, List.cons_append] at hl
        refine .inner (coversLine_iff.2 ⟨hl, (Except.error.inj h).symm⟩) hi ?_
          (by simpa using hbrace) (by simpa using hbrace')
        rw [solid_append_cons ho hb, hm]
        rfl

theorem LacksBrace.splice (hb : LacksBrace text span)
    (h : ∀ line ∈ fileLines text, Text.trim line ≠ st) :
    Registration.splice indent st text = .error span := by
  rw [splice_of_absent h]
  cases hb with
  | outer hspan hline hbelow hbrace =>
    obtain ⟨hl, rfl⟩ := coversLine_iff.1 hspan
    rw [hl, closingLines_append_cons hline hbelow]
    generalize closingLines _ = before
    cases before <;> simp [hbrace]
  | inner hspan hline hbelow houter hbrace =>
    obtain ⟨hl, rfl⟩ := coversLine_iff.1 hspan
    obtain ⟨j, hclosing⟩ := closingLines_two hline hbelow
    rw [hl, hclosing]
    simp [houter, hbrace]
  | file hspan hbraces hone =>
    rw [covers_end_iff.1 hspan]
    rcases solid_cases (fileLines text) with hs | ⟨above, outer, below, hl, ho, hb⟩
    · rw [closingLines_of_solid hs]
    · rw [hl, solid_append_cons ho hb] at hbraces hone
      have hs : solid above = [] := by simpa using hone
      rw [hl, closingLines_append_cons ho hb, closingLines_of_solid hs]
      simp [hbraces outer (by simp)]

/-- A statement is found in a file exactly if a line of the file is trimmed to it. Else it is added
exactly if the last two lines that are not blank are closing braces, and the only other outcome is
an error, whose stretch is the one where a brace is missing. -/
theorem splice_outcome (indent : Indent) (st text : Text) :
    (splice indent st text = .ok .present ↔ ∃ line ∈ fileLines text, Text.trim line = st) ∧
    ((∃ new, splice indent st text = .ok (.inserted new)) ↔
      (∀ line ∈ fileLines text, Text.trim line ≠ st) ∧
        ∃ above inner outer, Closes text above inner outer) ∧
    ∀ span, splice indent st text = .error span ↔
      (∀ line ∈ fileLines text, Text.trim line ≠ st) ∧ LacksBrace text span := by
  refine ⟨splice_eq_present_iff, ⟨?_, ?_⟩, fun span => ⟨fun h => ⟨?_, lacksBrace_of_splice h⟩,
    fun ⟨habsent, hb⟩ => hb.splice habsent⟩⟩
  · rintro ⟨new, h⟩
    exact ⟨of_splice_eq_inserted h, closes_of_splice h⟩
  · rintro ⟨habsent, above, inner, outer, hc⟩
    obtain ⟨s, hs⟩ := hc.exists_splice indent st
    cases s with
    | inserted new => exact ⟨new, hs⟩
    | present =>
      obtain ⟨line, hl, ht⟩ := splice_eq_present_iff.1 hs
      exact absurd ht (habsent line hl)
  · intro line hl ht
    rw [splice_eq_present_iff.2 ⟨line, hl, ht⟩] at h
    cases h

end Scaffold.Registration

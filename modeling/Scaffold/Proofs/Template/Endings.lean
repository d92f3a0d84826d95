import Scaffold.Proofs.Template.Spacing

/-! Rendering and line endings. Everything that rendering decides, it decides on lines, and lines do
not change when the line feeds of a source are written in another way. So the ending of a source
shows between the lines of the result and inside the texts put in, and nowhere else. Main statement:
`render_withEnding`. -/

namespace Scaffold

namespace Text

variable {s t : Text}

/-! ### Line feeds written in another way -/

theorem withEnding_append_newline (e : Ending) (h : '\n' ∉ s) (t : Text) :
    withEnding e (s ++ '\n' :: t) = s ++ e.text ++ withEnding e t := by
  have hcons : withEnding e ('\n' :: t) = e.text ++ withEnding e t := rfl
  rw [withEnding_append, withEnding_of_not_mem e h, hcons, List.append_assoc]

theorem lines_withEnding (e : Ending) (h : '\r' ∉ t) : lines (withEnding e t) = lines t := by
  induction t using line_induction with
  | last s hs => rw [withEnding_of_not_mem e hs]
  | line s t hs ih =>
    obtain ⟨hr, ht⟩ := not_or.1 (mt List.mem_append.2 h)
    have hlast : s.getLast? ≠ some '\r' := fun hl => hr (List.mem_of_getLast? hl)
    have ih := ih fun hm => ht (List.mem_cons_of_mem _ hm)
    rw [withEnding_append_newline e hs, lines_append_newline hs, chomp_append_newline hlast, ← ih]
    cases e with
    | lf =>
      have hline := lines_append_newline hs (withEnding .lf t)
      rw [chomp_append_newline hlast] at hline
      simpa [Ending.text] using hline
    | crlf =>
      have hs' : '\n' ∉ s ++ ['\r'] := by simp [hs]
      have hline := lines_append_newline hs' (withEnding .crlf t)
      rw [chomp_append_crlf] at hline
      simpa [Ending.text] using hline

theorem endsWithNewline_withEnding (e : Ending) (t : Text) :
    endsWithNewline (withEnding e t) = endsWithNewline t := by
  rcases List.eq_nil_or_concat' t with rfl | ⟨t, c, rfl⟩
  · rfl
  · by_cases hc : c = '\n'
    · subst hc
      have hlast : withEnding e ['\n'] = e.text := List.append_nil _
      cases e with
      | lf => simp [withEnding_append, hlast, endsWithNewline, Ending.text]
      | crlf => simp [withEnding_append, hlast, endsWithNewline, Ending.text]
    · have hlast : withEnding e [c] = [c] := withEnding_of_not_mem e (by simp [Ne.symm hc])
      simp [withEnding_append, hlast, endsWithNewline]

theorem ending_withEnding (h : '\n' ∈ t) : ending (withEnding .crlf t) = .crlf := by
  obtain ⟨s, u, rfl⟩ := List.append_of_mem h
  have hmixed : ¬ (withEnding .crlf (s ++ '\n' :: u)).NoCrlf := by
    intro hn
    have hcons : withEnding .crlf ('\n' :: u) = '\r' :: '\n' :: withEnding .crlf u := rfl
    rw [withEnding_append, hcons] at hn
    exact (List.isChain_cons_cons.1 (List.isChain_append.1 hn).2.1).1 rfl rfl
  rw [← hasCrlf_eq_false_iff, Bool.not_eq_false] at hmixed
  rw [ending, if_pos hmixed]

theorem isBlank_withEnding (e : Ending) (t : Text) : isBlank (withEnding e t) = isBlank t := by
  rw [isBlank_eq_all, blanks_withEnding, ← isBlank_eq_all]

theorem length_withEnding (t : Text) :
    (withEnding .crlf t).length = t.length + t.count '\n' := by
  induction t with
  | nil => rfl
  | cons c t ih =>
    have hcons : withEnding .crlf (c :: t) =
        (if c = '\n' then ['\r', '\n'] else [c]) ++ withEnding .crlf t := rfl
    rw [hcons, List.length_append, ih]
    split
    · next hc => simp [hc]; omega
    · next hc => simp [hc]; omega

theorem withEnding_eq_self_iff : withEnding .crlf t = t ↔ '\n' ∉ t := by
  refine ⟨fun h => ?_, withEnding_of_not_mem .crlf⟩
  have hlen := length_withEnding t
  rw [h] at hlen
  exact List.count_eq_zero.1 (by omega)

theorem withEnding_ofLines (e : Ending) (closed : Bool) (ls : List Text) :
    withEnding e (ofLines .lf closed ls) = ofLines e closed (ls.map (withEnding e)) := by
  have hend : withEnding e ['\n'] = e.text := List.append_nil _
  have hjoin : withEnding e (join ['\n'] ls) = join e.text (ls.map (withEnding e)) := by
    induction ls with
    | nil => rfl
    | cons l ls ih =>
      rcases ls with _ | ⟨l', ls⟩
      · simp [join]
      · rw [join_cons_cons, withEnding_append, withEnding_append, hend, ih]
        simp [join_cons_cons]
  rw [ofLines, ofLines, withEnding_append, Ending.text, hjoin]
  cases closed with
  | false => rfl
  | true => rw [if_pos rfl, if_pos rfl, hend]

end Text

namespace Template

variable {fs : Fillings} {e : Ending} {l : Text} {ls : List Text}

/-! ### Lines of a source -/

/-- The texts for the marks of a line are put in with the ending of the source. -/
theorem substitute_eq_withEnding (h : '\n' ∉ l) :
    substitute fs e l = Text.withEnding e (substitute fs .lf l) := by
  rw [substitute, substitute, Text.withEnding, List.flatMap_assoc]
  refine List.flatMap_congr fun part hpart => ?_
  cases part with
  | slot p => rw [Part.text, Part.text, withEnding_lf, ← Text.withEnding]
  | char c =>
    have hc : c ∈ l := by
      rw [← sourceOf_parts l]
      exact List.mem_flatMap.2 ⟨_, hpart, List.mem_singleton_self c⟩
    have hne : '\n' ∉ [c] := by
      rw [List.mem_singleton]
      rintro rfl
      exact h hc
    exact (Text.withEnding_of_not_mem e hne).symm

/-- Which lines stay does not depend on the ending. -/
theorem keptLines_eq_withEnding (h : ∀ l ∈ ls, '\n' ∉ l) :
    keptLines fs e ls = (keptLines fs .lf ls).map (Text.withEnding e) := by
  induction ls with
  | nil => rfl
  | cons l ls ih =>
    obtain ⟨hl, hls⟩ := List.forall_mem_cons.1 h
    rw [keptLines, keptLines, List.map_append, ih hls, substitute_eq_withEnding hl,
      Text.isBlank_withEnding]
    split <;> rfl

/-! ### Templates -/

/-- A source with line feeds only, and the same source with a carriage return in front of each, are
rendered alike up to these carriage returns, unless the source is a single line: from such a source
the ending cannot be told, and a line feed in a text put in stays as it is. -/
theorem render_withEnding_iff (t : Template) (fs : Fillings) (hr : '\r' ∉ t.source) :
    render { t with source := Text.withEnding .crlf t.source } fs =
      Text.withEnding .crlf (t.render fs) ↔ '\n' ∈ t.source ∨ '\n' ∉ t.render fs := by
  by_cases hn : '\n' ∈ t.source
  · refine iff_of_true ?_ (.inl hn)
    calc render { t with source := Text.withEnding .crlf t.source } fs
        = Text.ofLines .crlf t.source.endsWithNewline (keptLines fs .crlf t.source.lines) := by
          rw [render_eq_ofLines, Text.ending_withEnding hn, Text.endsWithNewline_withEnding,
            Text.lines_withEnding _ hr]
      _ = Text.withEnding .crlf (Text.ofLines .lf t.source.endsWithNewline
            (keptLines fs .lf t.source.lines)) := by
          rw [Text.withEnding_ofLines,
            keptLines_eq_withEnding fun _ => Text.newline_not_mem_lines]
      _ = Text.withEnding .crlf (t.render fs) := by
          rw [render_eq_ofLines, Text.ending_of_not_mem hr]
  · have hsame : render { t with source := Text.withEnding .crlf t.source } fs = t.render fs := by
      rw [Text.withEnding_of_not_mem .crlf hn]
    rw [hsame, eq_comm, Text.withEnding_eq_self_iff, or_iff_right hn]

/-- Rendering a source of several lines commutes with writing its line feeds as carriage return and
line feed. The texts put in may hold carriage returns of their own. -/
theorem render_withEnding (t : Template) (fs : Fillings) (hr : '\r' ∉ t.source)
    (hn : '\n' ∈ t.source) :
    render { t with source := Text.withEnding .crlf t.source } fs =
      Text.withEnding .crlf (t.render fs) :=
  (render_withEnding_iff t fs hr).2 (.inl hn)

/-- A source with a slot of several lines, one that begins with a blank line, and an empty one. -/
def memberTemplate : Template :=
  ⟨"class VAR_MODEL_NAME \x7b\n  VAR_KEYS\n\x7d\n\nVAR_PARENTS\nVAR_NODE\n", .inline⟩

def memberFillings : Fillings :=
  .ofList [(.modelName, .ofText "User"), (.keys, .ofList (.lines "  ") ["case a", "case b"]),
    (.node, { Filling.ofList .blocks ["x", "y"] with leadingBlank := true })]

theorem render_memberTemplate :
    '\r' ∉ memberTemplate.source ∧ '\n' ∈ memberTemplate.source ∧
    memberTemplate.render memberFillings =
      "class User \x7b\n  case a\n  case b\n\x7d\n\n\nx\n\ny\n" ∧
    render { memberTemplate with source := Text.withEnding .crlf memberTemplate.source }
        memberFillings =
      "class User \x7b\r\n  case a\r\n  case b\r\n\x7d\r\n\r\n\r\nx\r\n\r\ny\r\n" := by
  have hr : '\r' ∉ memberTemplate.source := by decide +kernel
  have hn : '\n' ∈ memberTemplate.source := by decide +kernel
  have hlf : memberTemplate.render memberFillings =
      "class User \x7b\n  case a\n  case b\n\x7d\n\n\nx\n\ny\n" := by
    decide +kernel
  refine ⟨hr, hn, hlf, ?_⟩
  rw [render_withEnding memberTemplate memberFillings hr hn, hlf]
  decide +kernel

end Template
end Scaffold

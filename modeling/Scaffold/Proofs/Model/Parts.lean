import Scaffold.Proofs.Model.Generated
import Scaffold.Proofs.Model.Grammar
import Scaffold.Proofs.Model.Spacing

/-! The parts of the file of a model: below the imports the class, the extensions of the template,
an extension for each relation and one for each conformance, every part under a single blank line.
The source of the template falls into sections that are written one by one; the blocks between them
come from slots. Main statement: `file_spaced`. -/

namespace Scaffold.Model

open Template (Part isEmptySlot isTidy parts slot? slot_token textLines written)

variable {m : Model} {indent : Indent} {fs : Fillings} {front back : Text} {ls below : List Text}
  {p : Placeholder} {ts : List Text}

/-! ### Sections of the template -/

/-- Lines of the template from a header with the name of the model to a closing brace. -/
structure IsSection (front back : Text) (ls : List Text) : Prop where
  first : ls.head? = some (front ++ Placeholder.modelName.token ++ back)
  last : ls.getLast? = some ['\x7d']
  header : parts (front ++ Placeholder.modelName.token ++ back) =
    front.map .char ++ .slot .modelName :: back.map .char
  isLine : slot? (front ++ Placeholder.modelName.token ++ back) = none

instance (front back : Text) (ls : List Text) : Decidable (IsSection front back ls) :=
  decidable_of_iff (ls.head? = some (front ++ Placeholder.modelName.token ++ back) ∧
      ls.getLast? = some ['\x7d'] ∧
      parts (front ++ Placeholder.modelName.token ++ back) =
        front.map .char ++ .slot .modelName :: back.map .char ∧
      slot? (front ++ Placeholder.modelName.token ++ back) = none)
    ⟨fun h => ⟨h.1, h.2.1, h.2.2.1, h.2.2.2⟩, fun h => ⟨h.1, h.2, h.3, h.4⟩⟩

theorem written_line {text : Placeholder → Text} {slots : Placeholder → List Text} {l : Text}
    (h : slot? l = none) (hne : l ≠ []) (ls : List Text) :
    written text slots (l :: ls) = (parts l).flatMap (Part.fill text) :: written text slots ls := by
  simp [written, h, hne]

theorem header_ne_nil : front ++ Placeholder.modelName.token ++ back ≠ [] := by
  simp [Placeholder.token_ne_nil]

theorem fill_header (text : Placeholder → Text)
    (h : parts (front ++ Placeholder.modelName.token ++ back) =
      front.map .char ++ .slot .modelName :: back.map .char) :
    (parts (front ++ Placeholder.modelName.token ++ back)).flatMap (Part.fill text) =
      front ++ text .modelName ++ back := by
  rw [h, List.flatMap_append, List.flatMap_cons, Template.flatMap_chars fun _ => rfl,
    Template.flatMap_chars fun _ => rfl, List.append_assoc]
  rfl

theorem exists_written_concat {text : Placeholder → Text} {slots : Placeholder → List Text}
    {l : Text} (h : slot? l = none) (hne : l ≠ []) (above : List Text) :
    ∃ ls, written text slots (above ++ [l]) = ls ++ [(parts l).flatMap (Part.fill text)] := by
  induction above with
  | nil => exact ⟨[], written_line h hne []⟩
  | cons a above ih =>
    obtain ⟨ls, hls⟩ := ih
    rw [List.cons_append, written, hls, ← List.append_assoc]
    exact ⟨_, rfl⟩

namespace IsSection

variable {text : Placeholder → Text} {slots : Placeholder → List Text}

theorem written_append (h : IsSection front back ls) (below : List Text) :
    written text slots (ls ++ below) = written text slots ls ++ written text slots below := by
  obtain ⟨above, rfl⟩ := List.getLast?_eq_some_iff.1 h.last
  rw [List.append_assoc, List.singleton_append]
  exact Template.written_append_cons (by decide) (by decide) above below

/-- A section below an empty line. -/
theorem written_blank (h : IsSection front back ls) (below : List Text) :
    written text slots ([] :: (ls ++ below)) =
      [] :: (written text slots ls ++ written text slots below) := by
  rw [← h.written_append]
  obtain ⟨rest, rfl⟩ := List.head?_eq_some_iff.1 h.first
  exact Template.written_blank_cons h.isLine _

/-- A section begins with its header, with the name put in, and ends with its brace. -/
theorem exists_written (h : IsSection front back ls) : ∃ rest,
    written text slots ls = (front ++ text .modelName ++ back) :: (rest ++ [['\x7d']]) := by
  obtain ⟨above, rfl⟩ := List.getLast?_eq_some_iff.1 h.last
  have hfirst := h.first
  rcases above with _ | ⟨l, above⟩
  · -- the header would be the brace, but it holds the name
    have hclose : ['\x7d'] = front ++ Placeholder.modelName.token ++ back := Option.some.inj hfirst
    have hname : 'V' ∈ Placeholder.modelName.token := by decide
    have hmem : 'V' ∈ ['\x7d'] := by
      rw [hclose]
      simp [hname]
    exact absurd hmem (by decide)
  · obtain rfl : l = front ++ Placeholder.modelName.token ++ back := Option.some.inj hfirst
    have hbrace : slot? ['\x7d'] = none := by decide
    obtain ⟨rest, hrest⟩ := @exists_written_concat text slots _ hbrace (by decide) above
    refine ⟨rest, ?_⟩
    rw [List.cons_append, written_line h.isLine header_ne_nil, fill_header text h.header, hrest]
    rfl

end IsSection

/-- The lines above all parts. -/
def imports : List Text :=
  List.map String.toList ["import Vapor", "import FluentProvider", "import HTTP"]

/-- The extension of the template that is one line. -/
def responseHeader (name : Text) : Text :=
  "extension " ++ name ++ ": ResponseRepresentable \x7b \x7d"

/-- The template has four sections, and between them the marks of blocks and one single line. -/
theorem exists_sections : ∃ cls keys prep conv : List Text,
    modelLines = imports ++ [] :: (cls ++ [] :: (keys ++ [] :: Placeholder.parents.token :: [] ::
      (prep ++ [] :: (conv ++ [] ::
        responseHeader Placeholder.modelName.token :: [] :: Placeholder.node.token ::
          [Placeholder.viewData.token])))) ∧
    IsSection "final class " ": Model \x7b" cls ∧ IsSection "extension " " \x7b" keys ∧
    IsSection "extension " ": Preparation \x7b" prep ∧
    IsSection "extension " ": JSONConvertible \x7b" conv := by
  refine ⟨(modelLines.drop 4).take 24, (modelLines.drop 29).take 5, (modelLines.drop 37).take 12,
    (modelLines.drop 50).take 8, ?_⟩
  unfold imports responseHeader modelLines Template.modelSource
  simp only [List.map_cons, List.map_nil]
  repeat rw [String.toList_ofList]
  decide +kernel

section

variable {text : Placeholder → Text} {slots : Placeholder → List Text}

/-- Lines without marks are written as they are. -/
theorem written_plain (h : ∀ l ∈ ls, slot? l = none ∧ l ≠ [] ∧ parts l = l.map .char) :
    written text slots (ls ++ below) = ls ++ written text slots below := by
  induction ls with
  | nil => rfl
  | cons l ls ih =>
    obtain ⟨⟨hs, hne, hp⟩, hls⟩ := List.forall_mem_cons.1 h
    rw [List.cons_append, written_line hs hne, hp, Template.flatMap_chars fun _ => rfl, ih hls,
      List.cons_append]

theorem written_slot (p : Placeholder) (ls : List Text) :
    written text slots (p.token :: ls) = slots p ++ written text slots ls := by
  rw [written, slot_token]

/-- Slots with no lines take the empty line above them along if another one follows. -/
theorem written_parents (ls : List Text) :
    written text slots ([] :: Placeholder.parents.token :: [] :: ls) =
      (if (slots .parents).isEmpty then [] else [[]]) ++
        (slots .parents ++ written text slots ([] :: ls)) := by
  have hnil : slot? [] = none := by decide
  have hc : Template.clears slots false (Placeholder.parents.token :: [] :: ls) =
      (slots .parents).isEmpty := by
    rw [Template.clears, slot_token, Template.clears, hnil]
    rfl
  rw [written, hnil, hc, written_slot]
  rfl

theorem written_conformances :
    written text slots [[], Placeholder.node.token, Placeholder.viewData.token] =
      (if (slots .viewData).isEmpty && (slots .node).isEmpty then [] else [[]]) ++
        (slots .node ++ slots .viewData) := by
  have hnil : slot? [] = none := by decide
  have hc : Template.clears slots false [Placeholder.node.token, Placeholder.viewData.token] =
      ((slots .viewData).isEmpty && (slots .node).isEmpty) := by
    rw [Template.clears, slot_token, Template.clears, slot_token]
    rfl
  rw [written, hnil, hc, written_slot, written_slot, written, List.append_nil]
  rfl

/-- The template is written part by part. -/
theorem exists_written_parts : ∃ cls keys prep conv : List Text,
    IsSection "final class " ": Model \x7b" cls ∧ IsSection "extension " " \x7b" keys ∧
    IsSection "extension " ": Preparation \x7b" prep ∧
    IsSection "extension " ": JSONConvertible \x7b" conv ∧
    ∀ (text : Placeholder → Text) (slots : Placeholder → List Text),
      written text slots modelLines =
        imports ++ [] :: (written text slots cls ++ [] :: (written text slots keys ++
          ((if (slots .parents).isEmpty then [] else [[]]) ++ (slots .parents ++
            [] :: (written text slots prep ++ [] :: (written text slots conv ++
              [] :: responseHeader (text .modelName) ::
                ((if (slots .viewData).isEmpty && (slots .node).isEmpty then [] else [[]]) ++
                  (slots .node ++ slots .viewData)))))))) := by
  obtain ⟨cls, keys, prep, conv, hls, hcls, hkeys, hprep, hconv⟩ := exists_sections
  refine ⟨cls, keys, prep, conv, hcls, hkeys, hprep, hconv, fun text slots => ?_⟩
  have himports : ∀ l ∈ imports, slot? l = none ∧ l ≠ [] ∧ parts l = l.map .char := by
    decide +kernel
  have hline : slot? (responseHeader Placeholder.modelName.token) = none := by decide +kernel
  have hresponse : parts (responseHeader Placeholder.modelName.token) =
      List.map .char ("extension " : Text) ++ .slot .modelName ::
        List.map .char (": ResponseRepresentable \x7b \x7d" : Text) := by
    decide +kernel
  have hfill : (parts (responseHeader Placeholder.modelName.token)).flatMap (Part.fill text) =
      responseHeader (text .modelName) := fill_header text hresponse
  rw [hls, written_plain himports, hcls.written_blank, hkeys.written_blank, written_parents,
    hprep.written_blank, hconv.written_blank, Template.written_blank_cons hline,
    written_line hline header_ne_nil, hfill, written_conformances]

end

/-! ### Blocks from slots -/

theorem isEmpty_textLines (fs : Fillings) (p : Placeholder) :
    (textLines fs p).isEmpty = (fs.text p).isEmpty := by
  unfold textLines
  split
  · next h =>
    rw [h]
    rfl
  · next h =>
    rw [List.isEmpty_eq_false_iff.2 h, List.isEmpty_eq_false_iff]
    exact Text.splitOn_ne_nil _ _

theorem unlines_textLines (hd : p.depth = .file) : Text.unlines (textLines fs p) =
    if fs.text p = [] then [] else fs.text p ++ ['\n'] := by
  have hmargin : margin p.depth.level = [] := by rw [hd]; rfl
  unfold textLines
  split
  · rfl
  · rw [Text.unlines_eq_join (Text.splitOn_ne_nil _ _), Text.join_splitOn, hmargin,
      List.nil_append]

/-- Blocks with an empty line between two of them, and one above the first. -/
theorem join_closed (h : ∀ t ∈ ts, IsClosed t) (hne : ts ≠ []) :
    '\n' :: (Text.join ['\n', '\n'] (ts.map Filling.contribution) ++ ['\n']) =
      ts.flatMap ('\n' :: ·) := by
  induction ts with
  | nil => exact absurd rfl hne
  | cons t ts ih =>
    obtain ⟨ht, hts⟩ := List.forall_mem_cons.1 h
    have hself := ht.contribution
    rw [List.flatMap_cons]
    rcases ts with _ | ⟨t', ts⟩
    · simp [Text.join, hself]
    · rw [← ih hts (List.cons_ne_nil _ _), List.map_cons, List.map_cons, Text.join_cons_cons,
        ← List.map_cons]
      conv_rhs => rw [← hself]
      simp

/-- The text for a slot with closed blocks, if there are any. -/
theorem text_blocks (hl : layout indent p = .blocks) (hc : m.contributions indent p = some ts)
    (h : ∀ t ∈ ts, IsClosed t) (hne : ts ≠ []) : (m.fillings indent).text p ≠ [] ∧
    (m.fillings indent).text p = (if p == .viewData && m.conformances.node then ['\n'] else []) ++
      Text.join ['\n', '\n'] (ts.map Filling.contribution) := by
  have htext := text_fillings hc
  rw [if_neg hne, hl] at htext
  refine ⟨fun hnil => ?_, htext⟩
  obtain ⟨t, ts, rfl⟩ := List.exists_cons_of_ne_nil hne
  have hb := isBlank_text hc (h t List.mem_cons_self).isBlank
  rw [hnil] at hb
  cases hb

theorem unlines_parents (indent : Indent) (m : Model) :
    Text.unlines ((if (textLines (m.fillings indent) .parents).isEmpty then [] else [[]]) ++
      textLines (m.fillings indent) .parents) =
        (m.relations.map (parentAccessor indent m.name)).flatMap ('\n' :: ·) := by
  have hclosed : ∀ t ∈ m.relations.map (parentAccessor indent m.name), IsClosed t :=
    List.forall_mem_map.2 fun f _ => isClosed_write _ _ _
  have hc : m.contributions indent .parents =
      some (m.relations.map (parentAccessor indent m.name)) := rfl
  generalize m.relations.map (parentAccessor indent m.name) = ts at hclosed hc
  rw [Text.unlines_append, isEmpty_textLines, unlines_textLines rfl]
  by_cases hts : ts = []
  · rw [text_fillings hc, if_pos hts, hts]
    rfl
  · obtain ⟨hne, htext⟩ := text_blocks rfl hc hclosed hts
    rw [List.isEmpty_eq_false_iff.2 hne, if_neg hne, htext, ← join_closed hclosed hts]
    rfl

/-- The text for a slot with one block or none. -/
theorem textLines_block {t : Text} {b : Bool} (hl : layout indent p = .blocks)
    (hd : p.depth = .file) (hc : m.contributions indent p = some (if b then [t] else []))
    (ht : IsClosed t) : (textLines (m.fillings indent) p).isEmpty = !b ∧
    Text.unlines (textLines (m.fillings indent) p) = if b then
      (if p == .viewData && m.conformances.node then ['\n'] else []) ++ t else [] := by
  rw [isEmpty_textLines, unlines_textLines hd]
  cases b with
  | false =>
    rw [text_fillings hc]
    exact ⟨rfl, rfl⟩
  | true =>
    obtain ⟨hne, htext⟩ := text_blocks hl hc (List.forall_mem_singleton.2 ht)
      (List.cons_ne_nil _ _)
    refine ⟨List.isEmpty_eq_false_iff.2 hne, ?_⟩
    rw [if_neg hne, htext, List.append_assoc]
    simp [Text.join, ht.contribution]

theorem unlines_conformances (indent : Indent) (m : Model) :
    Text.unlines ((if (textLines (m.fillings indent) .viewData).isEmpty &&
        (textLines (m.fillings indent) .node).isEmpty then [] else [[]]) ++
      (textLines (m.fillings indent) .node ++ textLines (m.fillings indent) .viewData)) =
    ((if m.conformances.node then [nodeConformance indent m.name] else []) ++
      if m.conformances.viewData then [viewDataConformance indent m.name] else []).flatMap
        ('\n' :: ·) := by
  obtain ⟨hnode, hnodeText⟩ := @textLines_block m indent .node (nodeConformance indent m.name)
    m.conformances.node rfl rfl rfl (isClosed_write _ _ _)
  obtain ⟨hview, hviewText⟩ := @textLines_block m indent .viewData
    (viewDataConformance indent m.name) m.conformances.viewData rfl rfl rfl (isClosed_write _ _ _)
  rw [Text.unlines_append, Text.unlines_append, hnode, hview, hnodeText, hviewText]
  cases m.conformances.node <;> cases m.conformances.viewData <;> simp

/-! ### The parts of the file -/

/-- A finished part of a file, with its header on the first line. -/
structure Heads (header t : Text) : Prop where
  first : ∃ rest, t = header ++ '\n' :: rest
  finished : t.IsFinished

theorem heads_unlines {header l : Text} (h : (header :: ls).getLast? = some l) (hl : l.IsRow) :
    Heads header (Text.unlines (header :: ls)) :=
  ⟨⟨_, Text.unlines_cons header ls⟩, Text.isFinished_unlines h hl⟩

theorem IsBlock.heads {header t : Text} (h : IsBlock header t) : Heads header t := by
  obtain ⟨ls, rfl, hls⟩ := h
  have hlast := List.getLast?_eq_some_getLast (List.cons_ne_nil header ls)
  exact heads_unlines hlast (hls _ (List.mem_of_getLast? hlast))

/-- The text of a section of the template. -/
def sectionText (fs : Fillings) (ls : List Text) : Text :=
  Text.unlines (written fs.text (textLines fs) ls)

theorem IsSection.heads (h : IsSection front back ls) :
    Heads (front ++ fs.text .modelName ++ back) (sectionText fs ls) := by
  obtain ⟨rest, hrest⟩ := h.exists_written
  rw [sectionText, hrest]
  refine heads_unlines ?_ (by decide : Text.IsRow ['\x7d'])
  rw [← List.cons_append, List.getLast?_concat]

/-- The parts of the file of a model below the imports, each with its first line: the class and the
extensions of the template, whose texts are given, and the blocks of relations and conformances. -/
def fileParts (indent : Indent) (m : Model) (cls keys prep conv : Text) : List (Text × Text) :=
  [("final class " ++ m.name ++ ": Model \x7b", cls), (opening ("extension " ++ m.name), keys)] ++
  m.relations.map (fun f => (opening ("extension " ++ m.name), parentAccessor indent m.name f)) ++
  [(conformanceHeader m.name "Preparation", prep),
    (conformanceHeader m.name "JSONConvertible", conv),
    (responseHeader m.name, responseHeader m.name ++ ['\n'])] ++
  (if m.conformances.node then
    [(conformanceHeader m.name "NodeRepresentable", nodeConformance indent m.name)] else []) ++
  (if m.conformances.viewData then
    [(conformanceHeader m.name "ViewDataRepresentable", viewDataConformance indent m.name)] else [])

theorem flatMap_fileParts (indent : Indent) (m : Model) (cls keys prep conv : Text) :
    (fileParts indent m cls keys prep conv).flatMap ('\n' :: ·.2) =
      '\n' :: (cls ++ '\n' :: (keys ++
        ((m.relations.map (parentAccessor indent m.name)).flatMap ('\n' :: ·) ++
          '\n' :: (prep ++ '\n' :: (conv ++ '\n' :: (responseHeader m.name ++ '\n' ::
            ((if m.conformances.node then [nodeConformance indent m.name] else []) ++
              if m.conformances.viewData then [viewDataConformance indent m.name] else []).flatMap
                ('\n' :: ·))))))) := by
  unfold fileParts
  cases m.conformances.node <;> cases m.conformances.viewData <;>
    simp [List.flatMap_map]

theorem heads_fileParts (hm : ∀ s ∈ m.strings, '\n' ∉ s) {cls keys prep conv : Text}
    (hcls : Heads ("final class " ++ m.name ++ ": Model \x7b") cls)
    (hkeys : Heads (opening ("extension " ++ m.name)) keys)
    (hprep : Heads (conformanceHeader m.name "Preparation") prep)
    (hconv : Heads (conformanceHeader m.name "JSONConvertible") conv) :
    ∀ part ∈ fileParts indent m cls keys prep conv, Heads part.1 part.2 := by
  have hname := newline_not_mem_modelName hm
  have hresponse : Text.IsRow (responseHeader m.name) :=
    ((by decide : Text.IsRow "extension ").append hname).append (by decide)
  have hline : Heads (responseHeader m.name) (responseHeader m.name ++ ['\n']) := by
    have hunlines : Text.unlines [responseHeader m.name] = responseHeader m.name ++ ['\n'] := by
      rw [Text.unlines_cons, Text.unlines_nil]
    rw [← hunlines]
    exact heads_unlines rfl hresponse
  simp only [fileParts, List.forall_mem_append, List.forall_mem_cons]
  refine ⟨⟨⟨⟨⟨hcls, hkeys, by simp⟩, ?_⟩, ⟨hprep, hconv, hline, by simp⟩⟩, ?_⟩, ?_⟩
  · refine List.forall_mem_map.2 fun f hf => ?_
    have hstrings := newline_not_mem_fieldStrings hm (List.mem_filter.1 hf).1
    exact (isBlock_parentAccessor indent hname hstrings).heads
  · split
    · exact List.forall_mem_singleton.2 (isBlock_nodeConformance indent hname).heads
    · simp
  · split
    · exact List.forall_mem_singleton.2 (isBlock_viewDataConformance indent hname).heads
    · simp

theorem shows_standing_of_strings (hm : ∀ s ∈ m.strings, '\n' ∉ s) (hp : p ∈ standing) :
    Template.Shows (m.fillings indent) (textLines (m.fillings indent)) p := by
  have hpn : p ≠ .modelName := by
    rintro rfl
    exact absurd hp (by decide)
  refine Template.shows_textLines fun hne => ?_
  obtain ⟨t, ht, heq⟩ := (text_cases hm indent hpn).resolve_left hne
  rw [heq, Text.isBlank_append, ht.isBlank, Bool.and_false]

/-- The file of a model: the imports, and below them the parts, each below an empty line. -/
theorem render_eq_parts (indent : Indent) (hm : ∀ s ∈ m.strings, '\n' ∉ s) :
    ∃ cls keys prep conv, (∀ part ∈ fileParts indent m cls keys prep conv, Heads part.1 part.2) ∧
      (Template.builtin .model).render (m.fillings indent) = Text.unlines imports ++
        (fileParts indent m cls keys prep conv).flatMap ('\n' :: ·.2) := by
  obtain ⟨cls, keys, prep, conv, hcls, hkeys, hprep, hconv, hw⟩ := exists_written_parts
  have hname : (m.fillings indent).text .modelName = m.name :=
    text_modelName (newline_not_mem_modelName hm)
  refine ⟨sectionText (m.fillings indent) cls, sectionText (m.fillings indent) keys,
    sectionText (m.fillings indent) prep, sectionText (m.fillings indent) conv, ?_, ?_⟩
  · have hback : ∀ protocol, conformanceHeader m.name protocol =
        "extension " ++ m.name ++ (": " ++ protocol ++ " \x7b") := by
      intro protocol
      simp [conformanceHeader, opening]
    refine heads_fileParts hm ?_ ?_ ?_ ?_
    · rw [← hname]
      exact hcls.heads
    · rw [← hname]
      exact hkeys.heads
    · rw [hback, ← hname]
      exact hprep.heads
    · rw [hback, ← hname]
      exact hconv.heads
  · have hne : written (m.fillings indent).text (textLines (m.fillings indent)) modelLines ≠ [] := by
      rw [hw]
      exact List.cons_ne_nil _ _
    have hparents := unlines_parents indent m
    have hconformances := unlines_conformances indent m
    rw [Text.unlines_append] at hparents
    have hblocks : ∀ rest : Text, _ ++ (_ ++ rest) = _ ++ rest := fun rest => by
      rw [← List.append_assoc, hparents]
    rw [render_modelLines (fun _ => shows_standing_of_strings hm) hne, hw, flatMap_fileParts,
      ← hconformances]
    simp only [Text.unlines_append, Text.unlines_cons, hblocks, hname, sectionText,
      List.nil_append]

/-! ### Blank lines of the file -/

/-- The template is fit to be filled without two blank lines next to each other, and the marks of
the conformances are on its last two lines. -/
structure IsSpaced (ls : List Text) : Prop where
  spaced : Text.SingleBlanks ls
  shown : Text.EndsShown ls
  tidy : ∀ l ∈ ls, isTidy l = true
  alone : ∀ l ∈ ls, Placeholder.viewData.token <:+: l → l = Placeholder.viewData.token
  nameless : ∀ l ∈ ls, slot? l ≠ some .modelName
  last : Placeholder.viewData.token ∉ ls.dropLast
  before : ls.dropLast.getLast? = some Placeholder.node.token

theorem isSpaced_modelLines : IsSpaced modelLines := by
  suffices h : Text.SingleBlanks modelLines ∧ Text.EndsShown modelLines ∧
      (∀ l ∈ modelLines, isTidy l = true) ∧
      (∀ l ∈ modelLines, Placeholder.viewData.token <:+: l → l = Placeholder.viewData.token) ∧
      (∀ l ∈ modelLines, slot? l ≠ some .modelName) ∧
      Placeholder.viewData.token ∉ modelLines.dropLast ∧
      modelLines.dropLast.getLast? = some Placeholder.node.token from
    ⟨h.1, h.2.1, h.2.2.1, h.2.2.2.1, h.2.2.2.2.1, h.2.2.2.2.2.1, h.2.2.2.2.2.2⟩
  unfold modelLines Template.modelSource
  simp only [List.map_cons, List.map_nil]
  repeat rw [String.toList_ofList]
  decide +kernel

/-- The mark of the second conformance stands directly below that of the first. -/
theorem not_crowds_of_node (h : fs.text .node ≠ []) : ¬Crowds fs (Template.builtin .model) := by
  have hs := isSpaced_modelLines
  rintro ⟨above, b, gone, below, hls, hb, hgone⟩
  have hls : modelLines = above ++ b :: gone ++ Placeholder.viewData.token :: below := by
    rw [List.append_assoc]
    exact hls
  have hbelow : below = [] := by
    by_contra hne
    refine hs.last ?_
    rw [hls, List.dropLast_append_of_ne_nil (List.cons_ne_nil _ _),
      List.dropLast_cons_of_ne_nil hne]
    simp
  have hbefore := hs.before
  rw [hls, hbelow, List.dropLast_concat,
    List.getLast?_append_of_ne_nil _ (List.cons_ne_nil _ _)] at hbefore
  have hnode : Placeholder.node.token ∈ b :: gone := List.mem_of_getLast? hbefore
  rcases List.mem_cons.1 hnode with rfl | hmem
  · exact absurd hb (by decide)
  · have hempty := hgone _ hmem
    rw [Template.isEmptySlot_eq fs (slot_token _), List.isEmpty_iff] at hempty
    exact h hempty

/-- The imports and finished parts below them, each below an empty line, are finished. -/
theorem isFinished_imports {ps : List (Text × Text)} (h : ∀ p ∈ ps, Heads p.1 p.2) :
    Text.IsFinished (Text.unlines imports ++ ps.flatMap ('\n' :: ·.2)) := by
  rcases List.eq_nil_or_concat' ps with rfl | ⟨above, p, rfl⟩
  · rw [List.flatMap_nil, List.append_nil]
    decide +kernel
  · rw [List.flatMap_append, List.flatMap_singleton, ← List.append_assoc]
    exact (h p (by simp)).finished.append_newline _

/-- The file of a model that is read from a request, whatever strings within one line it has, holds
no two blank lines next to each other, and its last line is not blank. It consists of the imports
and the parts below them. Each part begins with its header, which stands below an empty line and
nothing else that is blank: the text above that line is finished. -/
theorem file_spaced (naming : Naming) (tokens : List Text) (m : Model) (indent : Indent)
    (h : parse naming tokens = .ok m) (hname : '\n' ∉ m.name)
    (hfields : ∀ f ∈ m.fields, ∀ s ∈ f.strings, '\n' ∉ s) :
    Text.SingleBlanks (Text.lines ((Template.builtin .model).render (m.fillings indent))) ∧
    Text.IsFinished ((Template.builtin .model).render (m.fillings indent)) ∧
    ∃ cls keys prep conv,
      (Template.builtin .model).render (m.fillings indent) = Text.unlines imports ++
        (fileParts indent m cls keys prep conv).flatMap ('\n' :: ·.2) ∧
      ∀ above part below, fileParts indent m cls keys prep conv = above ++ part :: below →
        Text.IsFinished (Text.unlines imports ++ above.flatMap ('\n' :: ·.2)) ∧
        ∃ rest, part.2 = part.1 ++ '\n' :: rest := by
  have hentity : ∀ e ∈ m.entity.toList, '\n' ∉ e := by
    intro e he
    rw [(parse_eq_ok_iff.1 h).2.entity] at he
    exact naming.newline_not_mem_entityName hname (Option.mem_toList.1 he)
  have hm : ∀ s ∈ m.strings, '\n' ∉ s := by
    simp only [strings, List.cons_append, List.forall_mem_cons, List.forall_mem_append,
      List.forall_mem_flatMap]
    exact ⟨hname, hentity, hfields⟩
  have hs := isSpaced_modelLines
  have hnameless : m.name = [] ∨ Text.isBlank m.name = false ∨
      ∀ l ∈ modelLines, slot? l ≠ some .modelName := .inr (.inr hs.nameless)
  have ha : (Template.builtin .model).Accepts (m.fillings indent) :=
    accepts_fillings indent hs.spaced hs.shown hs.tidy hm hs.alone hnameless
  obtain ⟨cls, keys, prep, conv, hheads, hparts⟩ := render_eq_parts indent hm
  refine ⟨ha.singleBlanks_render_iff.2 fun hd => ?_, ?_, cls, keys, prep, conv, hparts, ?_⟩
  · obtain ⟨hnode, -, hcrowds⟩ := (doubles_fillings_iff ha hm hs.alone hnameless).1 hd
    have hc : m.contributions indent .node = some [nodeConformance indent m.name] := by
      rw [contributions, if_pos hnode]
    have hne : (m.fillings indent).text .node ≠ [] := fun h =>
      List.cons_ne_nil _ _ ((text_eq_nil_iff hm (by decide) hc).1 h)
    exact not_crowds_of_node hne hcrowds
  · rw [hparts]
    exact isFinished_imports hheads
  · intro above part below hsplit
    rw [hsplit] at hheads
    exact ⟨isFinished_imports fun p hp => hheads p (List.mem_append_left _ hp),
      (hheads part (by simp)).first⟩

/-- A model with a table, a relation and both conformances. -/
def noteModel : Model :=
  ⟨"Note", some "notes", [⟨"title", .scalar .string, false⟩, ⟨"author", .relation "user", true⟩],
    ⟨true, true⟩⟩

theorem noteFile_spaced :
    parse ⟨.capitalize, .plural⟩ (List.map String.toList
      ["--node=true", "note", "title:string", "author:user!", "--viewdata=TRUE"]) = .ok noteModel ∧
    Text.SingleBlanks (Text.lines ((Template.builtin .model).render (noteModel.fillings .tab))) ∧
    Text.IsFinished ((Template.builtin .model).render (noteModel.fillings .tab)) ∧
    ∃ cls keys prep conv,
      (Template.builtin .model).render (noteModel.fillings .tab) = Text.unlines imports ++
        (fileParts .tab noteModel cls keys prep conv).flatMap ('\n' :: ·.2) ∧
      ∀ above part below, fileParts .tab noteModel cls keys prep conv = above ++ part :: below →
        Text.IsFinished (Text.unlines imports ++ above.flatMap ('\n' :: ·.2)) ∧
        ∃ rest, part.2 = part.1 ++ '\n' :: rest := by
  have hparse : parse ⟨.capitalize, .plural⟩ (List.map String.toList
      ["--node=true", "note", "title:string", "author:user!", "--viewdata=TRUE"]) =
        .ok noteModel := by
    decide +kernel
  exact ⟨hparse, file_spaced _ _ noteModel .tab hparse (by decide +kernel) (by decide +kernel)⟩

end Scaffold.Model

import Scaffold.Proofs.Registration.Occurrences

/-! Registering one model after the other in the same setup file. Every splice reads the file that
the one before it has written, with whatever line endings; the file still closes with the same two
braces, and each model that was not registered stands once above them, in the order of the first
turns. Main statement: `registerAll_outcome`. -/

namespace Scaffold.Registration

variable {indent : Indent} {text n inner outer : Text} {above names : List Text}

/-- The file after a splice. -/
def Splice.content (text : Text) : Splice → Text
  | .inserted new => new
  | .present => text

/-- Splice the statements of some models, each into the file that the one before it has left. -/
def registerAll (indent : Indent) : List Text → Text → Except Span Text
  | [], text => .ok text
  | n :: ns, text =>
    match splice indent (statement n) text with
    | .error span => .error span
    | .ok s => registerAll indent ns (s.content text)

theorem registerAll_cons {s : Splice} (ns : List Text)
    (h : splice indent (statement n) text = .ok s) :
    registerAll indent (n :: ns) text = registerAll indent ns (s.content text) := by
  rw [registerAll, h]

theorem mem_missing_iff : n ∈ missing text names ↔ n ∈ names ∧ occurrences text n = 0 := by
  simp [missing]

/-- The lines that some models are registered on. -/
def newLines (indent : Indent) (inner : Text) (ns : List Text) : List Text :=
  ns.map fun n => newLine indent inner (statement n)

theorem trim_newLines (indent : Indent) (inner : Text) (ns : List Text) :
    (newLines indent inner ns).map Text.trim = ns.map statement := by
  rw [newLines, List.map_map]
  exact List.map_congr_left fun n _ => trim_indented indent _ n

theorem solid_newLines (indent : Indent) (inner : Text) (ns : List Text) :
    solid (newLines indent inner ns) = newLines indent inner ns := by
  refine List.filter_eq_self.2 fun line hm => ?_
  obtain ⟨n, -, rfl⟩ := List.mem_map.1 hm
  have hblank : Text.isBlank (newLine indent inner (statement n)) = false := by
    apply Text.isBlank_eq_false_of_trim
    rw [newLine, trim_indented]
    exact statement_ne_nil n
  rw [hblank]
  rfl

/-- One step: the file has the statement and stays as it is, or it gets a line for it. -/
theorem Closes.step (hc : Closes text above inner outer) (indent : Indent) (hn : '\n' ∉ n) :
    ∃ s, Registration.splice indent (statement n) text = .ok s ∧
      (s = .present ↔ occurrences text n ≠ 0) ∧
      Closes (s.content text)
        (above ++ newLines indent inner (if occurrences text n = 0 then [n] else [])) inner outer := by
  obtain ⟨s, hs⟩ := hc.exists_splice indent (statement n)
  have hpresent := @present_iff_occurrences text indent n
  rw [hs, Except.ok.injEq] at hpresent
  refine ⟨s, hs, hpresent, ?_⟩
  cases s with
  | present =>
    rw [if_neg (hpresent.1 rfl), newLines, List.map_nil, List.append_nil]
    exact hc
  | inserted new =>
    have hzero : occurrences text n = 0 := by
      by_contra hne
      cases hpresent.2 hne
    rw [if_pos hzero]
    exact hc.inserted hn hs

/-- A run of steps. The induction goes over the models; each step starts from the file that the
steps before it have left. -/
theorem Closes.registerAll (hc : Closes text above inner outer) (indent : Indent)
    (hn : ∀ n ∈ names, '\n' ∉ n) :
    ∃ final, Registration.registerAll indent names text = .ok final ∧
      Closes final (above ++ newLines indent inner (missing text names)) inner outer := by
  induction names generalizing text above with
  | nil => exact ⟨text, rfl, by rwa [missing, List.eraseDups_nil, newLines, List.filter_nil,
      List.map_nil, List.append_nil]⟩
  | cons n ns ih =>
    obtain ⟨hn₁, hns⟩ := List.forall_mem_cons.1 hn
    obtain ⟨s, hs, -, hc₁⟩ := hc.step indent hn₁
    obtain ⟨final, hfinal, hc₂⟩ := ih hc₁ hns
    have hcount := hc.occurrences_of_added hc₁ (n := n) <| by
      rw [trim_newLines]
      split_ifs <;> rfl
    refine ⟨final, (registerAll_cons ns hs).trans hfinal, ?_⟩
    rw [missing_cons ns hcount, newLines, List.map_append, ← List.append_assoc]
    exact hc₂

/-- After some steps, the models that are registered are those from before and those that had a
turn. -/
theorem Closes.occurrences_registerAll {final : Text} (hc : Closes text above inner outer)
    (hf : Closes final (above ++ newLines indent inner (missing text names)) inner outer)
    (n : Text) : occurrences final n ≠ 0 ↔ occurrences text n ≠ 0 ∨ n ∈ names := by
  have hcount : ((missing text names).map statement).count (statement n) ≠ 0 ↔
      n ∈ missing text names := by
    rw [Ne, List.count_eq_zero, not_not]
    exact List.mem_map_of_injective fun _ _ => statement_injective
  rw [hc.occurrences_append hf, trim_newLines, Ne, Nat.add_eq_zero_iff, not_and_or, ← Ne, ← Ne,
    hcount, mem_missing_iff]
  by_cases hz : occurrences text n = 0 <;> simp [hz]

/-- What a run of splices does to a file whose lines that are not blank are `body` and two closing
braces. -/
structure SeriesOutcome (indent : Indent) (names : List Text) (text : Text) (body : List Text)
    (inner outer : Text) : Prop where
  /-- No step fails. In the end there is one line more for each model that was missing, all of them
  directly above the inner brace. -/
  lines : ∃ final, registerAll indent names text = .ok final ∧
    solid (fileLines final) =
      body ++ (missing text names).map (fun n => newLine indent inner (statement n)) ++
        [inner, outer]
  /-- A step adds nothing exactly if its statement was there from the beginning or its model had a
  turn before. -/
  present : ∀ before n after, names = before ++ n :: after →
    ∃ mid s, registerAll indent before text = .ok mid ∧ splice indent (statement n) mid = .ok s ∧
      (s = .present ↔ (∃ line ∈ fileLines text, Text.trim line = statement n) ∨ n ∈ before)

/-- A run of splices into any file that closes with two braces registers each model once. -/
theorem registerAll_outcome (indent : Indent) (names : List Text) (text : Text) (body : List Text)
    (inner outer : Text) (hl : solid (fileLines text) = body ++ [inner, outer])
    (hi : isBrace inner = true) (ho : isBrace outer = true) (hn : ∀ n ∈ names, '\n' ∉ n) :
    SeriesOutcome indent names text body inner outer := by
  obtain ⟨above, hc⟩ := exists_closes hl hi ho
  constructor
  · obtain ⟨final, hfinal, hf⟩ := hc.registerAll indent hn
    refine ⟨final, hfinal, ?_⟩
    have hbody : body = solid above :=
      List.append_cancel_right (hl.symm.trans hc.solid_eq)
    rw [hf.solid_eq, solid, List.filter_append, ← solid, ← solid, solid_newLines, hbody, newLines]
  · rintro before n after rfl
    obtain ⟨mid, hmid, hc₁⟩ := hc.registerAll indent fun m hm => hn m (List.mem_append_left _ hm)
    obtain ⟨s, hs, hpresent, -⟩ := hc₁.step indent (hn n (by simp))
    refine ⟨mid, s, hmid, hs, ?_⟩
    rw [hpresent, hc.occurrences_registerAll hc₁, ← @present_iff_occurrences text indent n,
      splice_eq_present_iff]

/-- A setup file with line endings of both kinds and stray carriage returns. -/
def mixedSetup : Text :=
  "extension Config \x7b\r\r\n    func setup() \x7b\n\tpreparations.append(Post.self) \r\n" ++
    " \n    \x7d\r\n\n\x7d\r"

theorem registerAll_mixedSetup :
    solid (fileLines mixedSetup) = ["extension Config \x7b", "    func setup() \x7b",
      "\tpreparations.append(Post.self) "] ++ ["    \x7d", "\x7d"] ∧
    isBrace "    \x7d" = true ∧ isBrace "\x7d" = true ∧
    (∀ n ∈ (["Note", "Post", "Tag", "Note"] : List Text), '\n' ∉ n) ∧
    missing mixedSetup ["Note", "Post", "Tag", "Note"] = ["Note", "Tag"] ∧
    SeriesOutcome .standard ["Note", "Post", "Tag", "Note"] mixedSetup
      ["extension Config \x7b", "    func setup() \x7b", "\tpreparations.append(Post.self) "]
      "    \x7d" "\x7d" := by
  have hl : solid (fileLines mixedSetup) = ["extension Config \x7b", "    func setup() \x7b",
      "\tpreparations.append(Post.self) "] ++ ["    \x7d", "\x7d"] := by
    decide +kernel
  have hn : ∀ n ∈ (["Note", "Post", "Tag", "Note"] : List Text), '\n' ∉ n := by decide +kernel
  exact ⟨hl, by decide, by decide, hn, by decide +kernel,
    registerAll_outcome _ _ _ _ _ _ hl (by decide) (by decide) hn⟩

end Scaffold.Registration

import Scaffold.Proofs.Plan.Preview
import Scaffold.Proofs.Registration.Occurrences

/-! Requests for models, one after the other. Each either fails and changes nothing, or writes its
model file and registers the model if it is not registered yet. Over a whole run the setup file
gains one line for each model that was missing, and the file of a model holds what the last call
that worked has planned. What one call does is in `ModelCall.run_cases`; the main statement is
`runAll_outcome`. -/

namespace Scaffold

open Registration

/-- Carry out a call. -/
def ModelCall.run (p : Project) (c : ModelCall) (d : Disk) :
    Except RequestError Generated × Disk :=
  (c.request.generate p).run d

/-- The disk after calls in order, whatever came of each. -/
def runAll (p : Project) : List ModelCall → Disk → Disk
  | [], d => d
  | c :: cs, d => runAll p cs (c.run p d).2

/-- The names of the models for which calls work, in order. -/
def successes (p : Project) : List ModelCall → Disk → List Text
  | [], _ => []
  | c :: cs, d =>
    match c.run p d with
    | (.ok _, d') => c.model.name :: successes p cs d'
    | (.error _, d') => successes p cs d'

/-- A name that models can have: it is the name of a file and part of a line, and the model file is
not the setup file. -/
structure Usable (d : Disk) (p : Project) (name : Text) : Prop where
  slash : '/' ∉ name
  newline : '\n' ∉ name
  apart : d.place (p.modelFile name) ≠ d.place p.registrationFile

instance (d : Disk) (p : Project) (name : Text) : Decidable (Usable d p name) :=
  decidable_of_iff ('/' ∉ name ∧ '\n' ∉ name ∧
      d.place (p.modelFile name) ≠ d.place p.registrationFile)
    ⟨fun ⟨hs, hn, ha⟩ => ⟨hs, hn, ha⟩, fun h => ⟨h.slash, h.newline, h.apart⟩⟩

/-- A project between two calls: no file is being moved, paths climb safely, and the setup file has
the given text and closes with two braces. -/
structure ProjectState (p : Project) (d : Disk) (text : Text) (above : List Text)
    (inner outer : Text) : Prop where
  temporaries : d.temporaries = []
  models : d.climbs p.modelsFolder = true
  setup : d.climbs p.registrationFile = true
  read : d.readText p.registrationFile = .ok text
  closes : Closes text above inner outer

variable {p : Project} {c : ModelCall} {d d' : Disk} {text inner outer name : Text}
  {above : List Text}

/-! ### Model files -/

theorem isName_swift (name : Text) : Location.IsName (name ++ ".swift" : Text) := by
  have hlen : 6 ≤ (name ++ ".swift" : Text).length := by simp
  constructor
  · rw [← Bool.not_eq_true, Path.isIdle, Bool.or_eq_true, List.isEmpty_iff, beq_iff_eq]
    rintro (h | h) <;> rw [h] at hlen <;> simp at hlen
  · intro h
    rw [h] at hlen
    simp at hlen

theorem slash_not_mem_swift (h : '/' ∉ name) : '/' ∉ (name ++ ".swift" : Text) := by
  rw [List.mem_append]
  rintro (hm | hm)
  · exact h hm
  · revert hm
    decide

theorem place_modelFile (d : Disk) (p : Project) (h : '/' ∉ name) :
    d.place (p.modelFile name) = d.place p.modelsFolder ++ [name ++ ".swift"] :=
  Disk.place_join_name d p.modelsFolder (isName_swift name) (slash_not_mem_swift h)

theorem climbs_modelFile (h : '/' ∉ name) (hc : d.climbs p.modelsFolder = true) :
    d.climbs (p.modelFile name) = true :=
  Disk.climbs_join_name p.modelsFolder (isName_swift name) (slash_not_mem_swift h) hc

/-- Models with different names have different files. -/
theorem place_modelFile_injective {m n : Text} (hm : '/' ∉ m) (hn : '/' ∉ n)
    (h : d.place (p.modelFile m) = d.place (p.modelFile n)) : m = n := by
  rw [place_modelFile d p hm, place_modelFile d p hn] at h
  exact List.append_cancel_right (List.singleton_injective (List.append_cancel_left h))

/-! ### One call -/

theorem Usable.of_here (h : Usable d p name) (hh : d'.here = d.here) : Usable d' p name := by
  refine ⟨h.slash, h.newline, ?_⟩
  rw [Disk.place_eq_of_here hh, Disk.place_eq_of_here hh]
  exact h.apart

theorem usable_tail {cs : List ModelCall} (hu : ∀ c' ∈ c :: cs, Usable d p c'.model.name)
    (hh : d'.here = d.here) : ∀ c' ∈ cs, Usable d' p c'.model.name :=
  fun c' hc => (hu c' (List.mem_cons_of_mem _ hc)).of_here hh

theorem ProjectState.of_same (h : ProjectState p d text above inner outer) (hs : Disk.Same d' d) :
    ProjectState p d' text above inner outer where
  temporaries := hs.temporaries.trans h.temporaries
  models := Disk.climbs_of_dirs hs.here.symm (fun _ => FileTree.get?_of_le hs.symm.le) h.models
  setup := Disk.climbs_of_dirs hs.here.symm (fun _ => FileTree.get?_of_le hs.symm.le) h.setup
  read := by
    rw [Disk.readText_eq_ok_iff]
    exact Disk.node?_of_le hs.here.symm hs.symm.le (Disk.readText_eq_ok_iff.1 h.read)
  closes := h.closes

/-- What a call that works does besides registering the model: it writes the planned model file,
and other files are as before. -/
structure ModelCall.Writes (p : Project) (c : ModelCall) (d d' : Disk) : Prop where
  here : d'.here = d.here
  planned : ∃ plan, ((c.request.plan p).run d).1 = .ok plan ∧
    ∃ f ∈ plan.drafts, f.path = c.file p ∧ d'.node? f.path = some (.file (Text.encode f.content))
  node? : ∀ q node, d.node? q = some node → d.place q ≠ d.place (c.file p) →
    d.place q ≠ d.place p.registrationFile → d'.node? q = some node
  get? : ∀ l content, d.tree.get? l = some (.file content) → l ≠ d.place (c.file p) →
    l ≠ d.place p.registrationFile → d'.tree.get? l = some (.file content)

theorem ModelCall.writes_of_wrote {plan : Plan} (h : ((c.request.plan p).run d).1 = .ok plan)
    (hw : Wrote d d' plan.drafts) (hd : Delivered d d' plan.drafts) : c.Writes p d d' := by
  have hmem := mem_drafts_of_plan h
  refine ⟨hw.here, ⟨plan, h, ?_⟩, fun q node hn hf hr => ?_, fun l content hl hf hr => ?_⟩
  · obtain ⟨f, hf, hp⟩ := exists_file_draft h
    exact ⟨f, hf, hp, hd.contents f hf⟩
  · apply hw.node?_of_ne hn
    intro f hm
    rcases (hmem f hm).1 with hp | hp <;> rw [hp]
    · exact hf.symm
    · exact hr.symm
  · apply hw.get?_file hl
    intro f hm
    rcases (hmem f hm).1 with hp | hp <;> rw [hp]
    · exact hf.symm
    · exact hr.symm

/-- A call fails and changes nothing, or it writes the model file and registers the model if it is
not registered yet. -/
theorem ModelCall.run_cases (h : ProjectState p d text above inner outer)
    (hu : Usable d p c.model.name) :
    (∃ e d', c.run p d = (.error e, d') ∧ Disk.Same d' d) ∨
    ∃ g d', c.run p d = (.ok g, d') ∧ c.Writes p d d' ∧
      ∃ text' added, ProjectState p d' text' (above ++ added) inner outer ∧
        added.map Text.trim =
          if occurrences text c.model.name = 0 then [statement c.model.name] else [] := by
  have hclimbs : d.climbs (c.file p) = true := climbs_modelFile hu.slash h.models
  rcases ModelCall.generate_cases h.temporaries hclimbs h.setup hu.apart with
    he | ⟨plan, d', hplan, hgen, hw, hd⟩
  · exact .inl he
  · refine .inr ⟨_, d', hgen, writes_of_wrote hplan hw hd, ?_⟩
    have hstate : ∀ text' added, d'.node? p.registrationFile = some (.file (Text.encode text')) →
        Closes text' (above ++ added) inner outer →
        ProjectState p d' text' (above ++ added) inner outer := fun text' added hn hc =>
      ⟨hw.temporaries, hw.climbs h.models, hw.climbs h.setup, Disk.readText_eq_ok_iff.2 hn, hc⟩
    obtain ⟨f, text₁, hp, -, ht, hcases⟩ := drafts_of_plan hplan
    obtain rfl : text = text₁ := Except.ok.inj (h.read.symm.trans ht)
    rcases hcases with ⟨hs, hdr⟩ | ⟨new, hs, hdr⟩
    · have hpos : occurrences text c.model.name ≠ 0 := present_iff_occurrences.1 hs
      have hkept : d'.node? p.registrationFile = some (.file (Text.encode text)) := by
        apply hw.node?_of_ne (Disk.readText_eq_ok_iff.1 h.read)
        intro g hg
        obtain rfl : g = f := by simpa [hdr] using hg
        rw [hp]
        exact hu.apart
      refine ⟨text, [], hstate text [] hkept ?_, by simp [hpos]⟩
      rw [List.append_nil]
      exact h.closes
    · have hzero : occurrences text c.model.name = 0 :=
        occurrences_eq_zero_iff.2 (of_splice_eq_inserted hs)
      obtain ⟨line, hline, hcloses⟩ := h.closes.splice hu.newline hs
      have hnew := hd.contents ⟨p.registrationFile, new, .always⟩ (by simp [hdr])
      exact ⟨new, [line], hstate new [line] hnew hcloses, by simp [hzero, hline]⟩

/-! ### Runs -/

theorem runAll_append (p : Project) (cs cs' : List ModelCall) (d : Disk) :
    runAll p (cs ++ cs') d = runAll p cs' (runAll p cs d) := by
  induction cs generalizing d with
  | nil => rfl
  | cons c cs ih => exact ih (c.run p d).2

/-- What a run of calls keeps, and what it adds to the setup file. The induction goes over the
calls; every call starts from the file that the calls before it have left. -/
theorem runAll_state {calls : List ModelCall} (h : ProjectState p d text above inner outer)
    (hu : ∀ c ∈ calls, Usable d p c.model.name) :
    (runAll p calls d).here = d.here ∧
    ∃ text' added, ProjectState p (runAll p calls d) text' (above ++ added) inner outer ∧
      added.map Text.trim = (missing text (successes p calls d)).map statement ∧
      ∀ n, occurrences text' n = if n ∈ successes p calls d then max 1 (occurrences text n)
        else occurrences text n := by
  induction calls generalizing d text above with
  | nil => exact ⟨rfl, text, [], by rwa [List.append_nil], rfl, by simp [successes]⟩
  | cons c cs ih =>
    rcases ModelCall.run_cases h (hu c List.mem_cons_self) with
      ⟨e, d₁, hrun, hs⟩ | ⟨g, d₁, hrun, hw, text₁, added₁, hstate, hadded⟩
    · have hrest := ih (h.of_same hs) (usable_tail hu hs.here)
      simp only [runAll, successes, hrun]
      exact ⟨hrest.1.trans hs.here, hrest.2⟩
    · have hcount := h.closes.occurrences_of_added hstate.closes hadded
      obtain ⟨hh, text', added, hstate', hadded', hocc⟩ := ih hstate (usable_tail hu hw.here)
      simp only [runAll, successes, hrun]
      refine ⟨hh.trans hw.here, text', added₁ ++ added, ?_, ?_, fun n => ?_⟩
      · rwa [← List.append_assoc]
      · rw [List.map_append, hadded, hadded', missing_cons _ hcount, List.map_append]
        split_ifs <;> rfl
      · rw [hocc, hcount]
        by_cases hn : n = c.model.name
        · subst hn
          by_cases hz : occurrences text c.model.name = 0
          · simp [hz]
          · have hpos : 1 ≤ occurrences text c.model.name := Nat.one_le_iff_ne_zero.2 hz
            simp [hz, hpos]
        · simp [hn]

/-- What calls that fail keep, and calls that work for certain names, is kept by a run in which only
calls for such names work. -/
theorem runAll_keeps {calls : List ModelCall} (h : ProjectState p d text above inner outer)
    (hu : ∀ c ∈ calls, Usable d p c.model.name) {N : Text → Prop} {Q : Disk → Prop}
    (hsame : ∀ {d₁ d₂ : Disk}, Disk.Same d₂ d₁ → Q d₁ → Q d₂)
    (hwrites : ∀ {c : ModelCall} {d₁ d₂ : Disk}, d₁.here = d.here → Usable d₁ p c.model.name →
      N c.model.name → c.Writes p d₁ d₂ → Q d₁ → Q d₂)
    (hs : ∀ n ∈ successes p calls d, N n) (hq : Q d) : Q (runAll p calls d) := by
  induction calls generalizing d text above with
  | nil => exact hq
  | cons c cs ih =>
    have hc := hu c List.mem_cons_self
    rcases ModelCall.run_cases h hc with
      ⟨e, d₁, hrun, hd⟩ | ⟨g, d₁, hrun, hw, text₁, added₁, hstate, -⟩
    · simp only [runAll, successes, hrun] at hs ⊢
      exact ih (h.of_same hd) (usable_tail hu hd.here)
        (fun hh => hwrites (hh.trans hd.here)) hs (hsame hd hq)
    · simp only [runAll, successes, hrun, List.forall_mem_cons] at hs ⊢
      exact ih hstate (usable_tail hu hw.here) (fun hh => hwrites (hh.trans hw.here)) hs.2
        (hwrites rfl hc hs.1 hw hq)

/-- The file of a model stays as it is during calls that do not work for this model. -/
theorem runAll_node? {calls : List ModelCall} (h : ProjectState p d text above inner outer)
    (hu : ∀ c ∈ calls, Usable d p c.model.name) (hn : Usable d p name) {node : Node}
    (hnode : d.node? (p.modelFile name) = some node) (hs : name ∉ successes p calls d) :
    (runAll p calls d).node? (p.modelFile name) = some node := by
  refine @runAll_keeps p d text inner outer above calls h hu (· ≠ name)
    (fun d₁ => d₁.node? (p.modelFile name) = some node) ?_ ?_ ?_ hnode
  · intro d₁ d₂ hsame
    exact Disk.node?_of_le hsame.here.symm hsame.symm.le
  · intro c d₁ d₂ hh hc hne hw hnode
    refine hw.node? _ _ hnode (fun he => ?_) (hn.of_here hh).apart
    exact hne (place_modelFile_injective hn.slash hc.slash he).symm
  · rintro n hm rfl
    exact hs hm

/-- Other files stay as they are. -/
theorem runAll_get? {calls : List ModelCall} (h : ProjectState p d text above inner outer)
    (hu : ∀ c ∈ calls, Usable d p c.model.name) {l : Location} {content : ByteArray}
    (hl : d.tree.get? l = some (.file content)) (hr : l ≠ d.place p.registrationFile)
    (hs : ∀ n ∈ successes p calls d, l ≠ d.place (p.modelFile n)) :
    (runAll p calls d).tree.get? l = some (.file content) := by
  refine @runAll_keeps p d text inner outer above calls h hu (fun n => l ≠ d.place (p.modelFile n))
    (fun d₁ => d₁.tree.get? l = some (.file content)) ?_ ?_ hs hl
  · intro d₁ d₂ hsame hl
    rw [hsame.get?, hl]
  · intro c d₁ d₂ hh hc hne hw hl
    rw [← Disk.place_eq_of_here hh] at hne hr
    exact hw.get? l content hl hne hr

/-- Each call of a run starts from a state like the first one. -/
theorem ProjectState.at_call {before after : List ModelCall}
    (h : ProjectState p d text above inner outer)
    (hu : ∀ c' ∈ before ++ c :: after, Usable d p c'.model.name) :
    (∀ c' ∈ c :: after, Usable (runAll p before d) p c'.model.name) ∧
      ∃ text₁ above₁, ProjectState p (runAll p before d) text₁ above₁ inner outer := by
  obtain ⟨hh, text₁, added₁, hstate₁, -⟩ :=
    runAll_state h fun c' hm => hu c' (List.mem_append_left _ hm)
  exact ⟨fun c' hm => (hu c' (List.mem_append_right _ hm)).of_here hh, text₁, _, hstate₁⟩

/-- If a call works and no later one for the same model does, the file of the model holds what the
call has planned. -/
theorem runAll_planned {after : List ModelCall} {g : Generated}
    (h : ProjectState p d text above inner outer)
    (hu : ∀ c' ∈ c :: after, Usable d p c'.model.name) (hok : (c.run p d).1 = .ok g)
    (hlast : c.model.name ∉ successes p after (c.run p d).2) :
    ∃ plan, ((c.request.plan p).run d).1 = .ok plan ∧ ∃ f ∈ plan.drafts, f.path = c.file p ∧
      (runAll p (c :: after) d).node? f.path = some (.file (Text.encode f.content)) := by
  have hc := hu c List.mem_cons_self
  rcases ModelCall.run_cases h hc with
    ⟨e, d₁, hrun, -⟩ | ⟨g', d₁, hrun, hw, text₁, added₁, hstate, -⟩
  · rw [hrun] at hok
    cases hok
  · obtain ⟨plan, hplan, f, hf, hp, hn⟩ := hw.planned
    refine ⟨plan, hplan, f, hf, hp, ?_⟩
    rw [hrun] at hlast
    rw [hp] at hn ⊢
    rw [runAll, hrun]
    exact runAll_node? hstate (usable_tail hu hw.here) (hc.of_here hw.here) hn hlast

/-- What a run of calls leaves behind, if the setup file had the given text, with the lines `above`
over its closing braces; `text'` is its text afterwards, with the lines `added`. -/
structure RunOutcome (p : Project) (calls : List ModelCall) (d : Disk) (text : Text)
    (above : List Text) (inner outer text' : Text) (added : List Text) : Prop where
  read : (runAll p calls d).readText p.registrationFile = .ok text'
  /-- The file closes with the same braces, and the new lines stand above the inner one. -/
  closes : Closes text' (above ++ added) inner outer
  kept : (solid (fileLines text)).Sublist (fileLines text')
  /-- The new lines are statements of models, in the order of the first calls that worked. -/
  added : added.map Text.trim = (missing text (successes p calls d)).map statement
  occurrences : ∀ n, occurrences text' n =
    if n ∈ successes p calls d then max 1 (occurrences text n) else occurrences text n
  /-- A model file holds what the last call that worked has planned. -/
  planned : ∀ before c after g, calls = before ++ c :: after →
    (c.run p (runAll p before d)).1 = .ok g →
    c.model.name ∉ successes p after (c.run p (runAll p before d)).2 →
      ∃ plan, ((c.request.plan p).run (runAll p before d)).1 = .ok plan ∧
        ∃ f ∈ plan.drafts, f.path = c.file p ∧
          (runAll p calls d).node? f.path = some (.file (Text.encode f.content))
  /-- A call that fails changes nothing. -/
  failed : ∀ before c after e, calls = before ++ c :: after →
    (c.run p (runAll p before d)).1 = .error e →
      Disk.Same (c.run p (runAll p before d)).2 (runAll p before d)
  /-- Other files are as before. -/
  others : ∀ l content, d.tree.get? l = some (.file content) → l ≠ d.place p.registrationFile →
    (∀ n ∈ successes p calls d, l ≠ d.place (p.modelFile n)) →
      (runAll p calls d).tree.get? l = some (.file content)

theorem ProjectState.runOutcome {calls : List ModelCall}
    (h : ProjectState p d text above inner outer)
    (hu : ∀ c ∈ calls, Usable d p c.model.name) :
    ∃ text' added, RunOutcome p calls d text above inner outer text' added := by
  obtain ⟨-, text', added, hstate, hadded, hocc⟩ := runAll_state h hu
  refine ⟨text', added, hstate.read, hstate.closes, h.closes.solid_sublist hstate.closes, hadded,
    hocc, ?_, ?_, fun l content hl hr hs => runAll_get? h hu hl hr hs⟩
  · rintro before c after g rfl hok hlast
    obtain ⟨hrest, text₁, above₁, hstate₁⟩ := h.at_call hu
    rw [runAll_append]
    exact runAll_planned hstate₁ hrest hok hlast
  · rintro before c after e rfl herr
    obtain ⟨hrest, text₁, above₁, hstate₁⟩ := h.at_call hu
    rcases ModelCall.run_cases hstate₁ (hrest c List.mem_cons_self) with
      ⟨e', d₂, hrun, hs⟩ | ⟨g', d₂, hrun, -⟩
    · rw [hrun]
      exact hs
    · rw [hrun] at herr
      cases herr

/-- After any run of calls for models with usable names, on a project whose paths climb safely and
whose setup file closes with two braces, the setup file and the model files are what the calls that
worked have made of them. -/
theorem runAll_outcome (t : FileTree) (here : Location) (p : Project) (calls : List ModelCall)
    (text : Text) (body : List Text) (inner outer : Text)
    (hm : (t.disk here).climbs p.modelsFolder = true)
    (hr : (t.disk here).climbs p.registrationFile = true)
    (ht : (t.disk here).readText p.registrationFile = .ok text)
    (hl : solid (fileLines text) = body ++ [inner, outer])
    (hi : isBrace inner = true) (ho : isBrace outer = true)
    (hu : ∀ c ∈ calls, Usable (t.disk here) p c.model.name) :
    ∃ above text' added, Closes text above inner outer ∧
      RunOutcome p calls (t.disk here) text above inner outer text' added := by
  obtain ⟨above, hc⟩ := exists_closes hl hi ho
  obtain ⟨text', added, hout⟩ := ProjectState.runOutcome ⟨rfl, hm, hr, ht, hc⟩ hu
  exact ⟨above, text', added, hc, hout⟩

/-- Two calls for a model. The second one fails, since the file is there. -/
def noteCalls : List ModelCall := [noteCall, noteCall]

theorem runAll_outcome_notes :
    (noteTree.disk []).climbs noteProject.modelsFolder = true ∧
    (noteTree.disk []).climbs noteProject.registrationFile = true ∧
    (noteTree.disk []).readText noteProject.registrationFile = .ok noteSetup ∧
    solid (fileLines noteSetup) = ["extension Config \x7b", "    func setup() \x7b"] ++
      ["    \x7d", "\x7d"] ∧
    (∀ c ∈ noteCalls, Usable (noteTree.disk []) noteProject c.model.name) ∧
    successes noteProject noteCalls (noteTree.disk []) = ["Note"] ∧
    ∃ above text' added, Closes noteSetup above "    \x7d" "\x7d" ∧
      RunOutcome noteProject noteCalls (noteTree.disk []) noteSetup above "    \x7d" "\x7d"
        text' added :=
  ⟨by decide, by decide, rfl, by decide, by decide, by decide +kernel,
    runAll_outcome noteTree [] noteProject noteCalls noteSetup
      ["extension Config \x7b", "    func setup() \x7b"] "    \x7d" "\x7d" (by decide) (by decide) rfl
      (by decide) (by decide) (by decide) (by decide)⟩

end Scaffold

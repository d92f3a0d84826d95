import Scaffold.Proofs.Commit.Effect
import Scaffold.Proofs.Plan.Reading
import Scaffold.Proofs.Registration.Splice

/-! A preview of a model agrees with the real run. Both start from the same plan; the real run
fails and changes nothing, or it writes exactly the files of the preview. Main statement:
`preview_agrees`. -/

namespace Scaffold

open Commit Registration

/-- A request for a model. -/
structure ModelCall where
  model : Model
  force : Bool := false
  indent : Indent := .standard

/-- The request of a call. -/
def ModelCall.request (c : ModelCall) : Request := .model c.model c.force c.indent

/-- The file of the model of a call. -/
def ModelCall.file (c : ModelCall) (p : Project) : Path := c.request.file p

/-- Every draft can be read at its path, and elsewhere nothing is new but missing directories above
the drafts. -/
structure Delivered (d d' : Disk) (drafts : List Draft) : Prop where
  here : d'.here = d.here
  temporaries : d'.temporaries = []
  contents : ∀ f ∈ drafts, d'.node? f.path = some (.file (Text.encode f.content))
  elsewhere : ∀ l, (∀ f ∈ drafts, d.place f.path ≠ l) → d'.tree.get? l = d.tree.get? l ∨
    (d'.tree.get? l = some .dir ∧ d.tree.get? l = none ∧ ∃ f ∈ drafts, Above d l f.path)

/-- What a preview of a model tells about the real run. -/
structure PreviewAgrees (d : Disk) (p : Project) (c : ModelCall) : Prop where
  unchanged : ((c.request.preview p).run d).2 = d
  /-- A preview fails exactly when planning does. -/
  error_iff : ∀ e, ((c.request.preview p).run d).1 = .error e ↔
    ((c.request.plan p).run d).1 = .error e
  /-- The real run fails and changes nothing, or it writes the files of the preview. -/
  real : ∀ shown, ((c.request.preview p).run d).1 = .ok shown →
    ∃ plan, ((c.request.plan p).run d).1 = .ok plan ∧
      shown = plan.drafts.map (fun f => ⟨p.shown f.path, f.content⟩) ∧
      ((∃ e d', (c.request.generate p).run d = (.error e, d') ∧ Disk.Same d' d) ∨
      ∃ g d', (c.request.generate p).run d = (.ok g, d') ∧
        g.files = plan.drafts.map (fun f => (f.path, .written)) ∧ Delivered d d' plan.drafts)
  /-- The setup file is in the plan if no line of it is the statement yet. -/
  registers : ∀ plan, ((c.request.plan p).run d).1 = .ok plan →
    ∃ text, d.readText p.registrationFile = .ok text ∧
      ((∃ f ∈ plan.drafts, f.path = p.registrationFile) ↔
        ∀ line ∈ fileLines text, Text.trim line ≠ statement c.model.name)

variable {d : Disk} {p : Project} {c : ModelCall} {plan : Plan}

theorem delivered_of_wrote {d' : Disk} {drafts : List Draft} (h : Wrote d d' drafts)
    (ha : ∀ l, d'.tree.get? l = some .dir → d.tree.get? l = none → ∃ f ∈ drafts, Above d l f.path)
    (hc : ∀ f ∈ drafts, d'.node? f.path = some (.file (Text.encode f.content))) :
    Delivered d d' drafts := by
  refine ⟨h.here, h.temporaries, hc, fun l hne => ?_⟩
  rcases h.elsewhere l hne with ho | ⟨hd, hnone⟩
  · exact .inl ho
  · exact .inr ⟨hd, hnone, ha l hd hnone⟩

namespace ModelCall

/-- The files of a plan for a model: the model file, then the setup file if the statement is not in
it. All of them may overwrite. -/
theorem drafts_of_plan (h : ((c.request.plan p).run d).1 = .ok plan) :
    ∃ f text, f.path = c.file p ∧ f.overwrite = .always ∧
      d.readText p.registrationFile = .ok text ∧
      ((splice c.indent (statement c.model.name) text = .ok .present ∧ plan.drafts = [f]) ∨
      ∃ new, splice c.indent (statement c.model.name) text = .ok (.inserted new) ∧
        plan.drafts = [f, ⟨p.registrationFile, new, .always⟩]) := by
  obtain ⟨template, text, ht, -, hcases⟩ := Plan.of_ofModel h
  refine ⟨Draft.ofModel c.indent template p.modelsFolder c.model, text, rfl, rfl, ht, ?_⟩
  rcases hcases with ⟨hs, rfl⟩ | ⟨new, hs, rfl⟩
  · exact .inl ⟨hs, rfl⟩
  · exact .inr ⟨new, hs, rfl⟩

theorem mem_drafts_of_plan (h : ((c.request.plan p).run d).1 = .ok plan) :
    ∀ f ∈ plan.drafts, (f.path = c.file p ∨ f.path = p.registrationFile) ∧
      f.overwrite = .always := by
  obtain ⟨f, text, hp, ho, -, ⟨-, hd⟩ | ⟨new, -, hd⟩⟩ := drafts_of_plan h
  · simp [hd, hp, ho]
  · simp [hd, hp, ho]

theorem exists_file_draft (h : ((c.request.plan p).run d).1 = .ok plan) :
    ∃ f ∈ plan.drafts, f.path = c.file p := by
  obtain ⟨f, _, hp, -, -, ⟨-, hd⟩ | ⟨_, -, hd⟩⟩ := drafts_of_plan h
  · exact ⟨f, by simp [hd], hp⟩
  · exact ⟨f, by simp [hd], hp⟩

/-- If the model file is not the setup file, every file of a plan that is written holds its
content. -/
theorem contents_of_wrote (hne : d.place (c.file p) ≠ d.place p.registrationFile)
    (h : ((c.request.plan p).run d).1 = .ok plan) {d' : Disk} (hw : Wrote d d' plan.drafts) :
    ∀ f ∈ plan.drafts, d'.node? f.path = some (.file (Text.encode f.content)) := by
  obtain ⟨f, text, hp, -, -, ⟨-, hd⟩ | ⟨new, -, hd⟩⟩ := drafts_of_plan h
  · rw [hd] at hw ⊢
    simpa using hw.node?_single
  · rw [hd] at hw ⊢
    have hpair := hw.node?_pair (by simpa [hp] using hne)
    simpa using hpair

/-- A real run for a model fails and leaves the disk as it was, or it writes all files of its
plan. -/
theorem generate_cases (quiet : d.temporaries = []) (hm : d.climbs (c.file p) = true)
    (hr : d.climbs p.registrationFile = true)
    (hne : d.place (c.file p) ≠ d.place p.registrationFile) :
    (∃ e d', (c.request.generate p).run d = (.error e, d') ∧ Disk.Same d' d) ∨
    ∃ plan d', ((c.request.plan p).run d).1 = .ok plan ∧ (c.request.generate p).run d =
        (.ok ⟨plan.drafts.map fun f => (f.path, .written), plan.registration⟩, d') ∧
      Wrote d d' plan.drafts ∧ Delivered d d' plan.drafts := by
  have hgen := Request.run_generate p c.request d
  cases hplan : ((c.request.plan p).run d).1 with
  | error e =>
    rw [hplan] at hgen
    exact .inl ⟨e, d, hgen, .refl d⟩
  | ok plan =>
    rw [hplan] at hgen
    have hmem := mem_drafts_of_plan hplan
    have hc : ∀ f ∈ plan.drafts, d.climbs f.path = true := by
      intro f hf
      rcases (hmem f hf).1 with hp | hp <;> rw [hp] <;> assumption
    have hrun := Plan.run_commit plan d
    rcases commit_ok_or_same quiet hc with
      ⟨e, d', hcommit, hs⟩ | ⟨outcomes, written, d', hcommit, ha, hw, habove⟩
    · rw [hcommit] at hrun
      exact .inl ⟨.writeFailed e, d', hgen.trans hrun, hs⟩
    · rw [hcommit] at hrun
      obtain ⟨rfl, rfl⟩ := ha.eq_of_always fun f hf => (hmem f hf).2
      exact .inr ⟨plan, d', rfl, hgen.trans hrun, hw,
        delivered_of_wrote hw habove (contents_of_wrote hne hplan hw)⟩

/-- The setup file is planned anew exactly if no line of it is the statement. -/
theorem registers_iff (hne : d.place (c.file p) ≠ d.place p.registrationFile)
    (h : ((c.request.plan p).run d).1 = .ok plan) :
    ∃ text, d.readText p.registrationFile = .ok text ∧
      ((∃ f ∈ plan.drafts, f.path = p.registrationFile) ↔
        ∀ line ∈ fileLines text, Text.trim line ≠ statement c.model.name) := by
  obtain ⟨f, text, hp, -, ht, ⟨hs, hd⟩ | ⟨new, hs, hd⟩⟩ := drafts_of_plan h
  · obtain ⟨line, hl, hline⟩ := splice_eq_present_iff.1 hs
    refine ⟨text, ht, ?_, fun hn => absurd hline (hn line hl)⟩
    rintro ⟨g, hg, hpath⟩
    obtain rfl : g = f := by simpa [hd] using hg
    exact absurd (by rw [← hp, hpath]) hne
  · refine ⟨text, ht, fun _ => of_splice_eq_inserted hs, fun _ => ?_⟩
    exact ⟨⟨p.registrationFile, new, .always⟩, by simp [hd], rfl⟩

end ModelCall

/-- A preview of a model agrees with the real run, if the model file and the setup file lie at
different places and each `..` of their paths stands in a directory. -/
theorem preview_agrees (t : FileTree) (here : Location) (p : Project) (c : ModelCall)
    (hm : (t.disk here).climbs (c.file p) = true)
    (hr : (t.disk here).climbs p.registrationFile = true)
    (hne : (t.disk here).place (c.file p) ≠ (t.disk here).place p.registrationFile) :
    PreviewAgrees (t.disk here) p c := by
  have hrun := Request.run_preview p c.request (t.disk here)
  cases hplan : ((c.request.plan p).run (t.disk here)).1 with
  | error e =>
    rw [hplan] at hrun
    dsimp only at hrun
    refine ⟨by rw [hrun], fun e' => ?_, fun shown h => ?_, fun plan h => ?_⟩
    · simp [hrun, hplan]
    · rw [hrun] at h
      cases h
    · rw [hplan] at h
      cases h
  | ok plan =>
    rw [hplan] at hrun
    refine ⟨by rw [hrun], fun e' => ?_, fun shown h => ?_, fun plan' h =>
      ModelCall.registers_iff hne h⟩
    · simp [hrun, hplan]
    rw [hrun] at h
    obtain rfl : plan.preview p = shown := Except.ok.inj h
    refine ⟨plan, hplan, rfl, ?_⟩
    rcases ModelCall.generate_cases (d := t.disk here) rfl hm hr hne with
      he | ⟨plan', d', hplan', hgen, -, hdel⟩
    · exact .inl he
    · obtain rfl : plan = plan' := Except.ok.inj (hplan.symm.trans hplan')
      exact .inr ⟨_, d', hgen, rfl, hdel⟩

/-- A setup file that registers nothing. -/
def noteSetup : Text := "extension Config \x7b\n    func setup() \x7b\n    \x7d\n\x7d\n"

/-- A tree with a setup file and a template of models. -/
def noteTree : FileTree :=
  .ofEntries [(["Setup.swift".toList], .file (Text.encode noteSetup)), (["Templates".toList], .dir),
    (["Templates".toList, "model.swift".toList],
      .file (Text.encode "class VAR_MODEL_NAME \x7b\x7d\n"))] (by decide)

/-- A project with its own templates, whose models lie in a missing directory. -/
def noteProject : Project where
  root := "."
  home := none
  settings :=
    { models := "Templates/../Models/Own"
      registration := "Setup.swift"
      templates := some "Templates" }

def noteCall : ModelCall := { model := ⟨"Note", none, [], {}⟩ }

theorem preview_agrees_note :
    (noteTree.disk []).climbs (noteCall.file noteProject) = true ∧
    (noteTree.disk []).climbs noteProject.registrationFile = true ∧
    (noteTree.disk []).place (noteCall.file noteProject) ≠
      (noteTree.disk []).place noteProject.registrationFile ∧
    (((noteCall.request.preview noteProject).run (noteTree.disk [])).1.map List.length).toOption =
      some 2 ∧
    PreviewAgrees (noteTree.disk []) noteProject noteCall :=
  ⟨by decide, by decide, by decide, rfl,
    preview_agrees noteTree [] noteProject noteCall (by decide) (by decide) (by decide)⟩

end Scaffold

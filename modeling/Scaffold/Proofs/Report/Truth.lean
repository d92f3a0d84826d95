import Scaffold.Proofs.Commit.Touched
import Scaffold.Proofs.Plan.Sparing
import Scaffold.Report

/-! What a report says is true. Whether a file was there is asked before the commit, and only for
models; of controllers and views the outcome of the commit tells enough. Each note of a report is
compared with the disk before and after the request, and with the files that the request touched.
Main statement: `report_truthful`. -/

namespace Scaffold

open Commit Registration

/-! ### Notes -/

/-- A note on a planned file that is true of the disks before and after a request, and of the files
that the request touched. -/
structure Tells (d d' : Disk) (touched : List Location) (p : Project) (f : Draft)
    (note : FileNote) : Prop where
  about : note = .created (p.shown f.path) ∨ note = .updated (p.shown f.path) ∨
    note = .kept (p.shown f.path)
  /-- The path led to what was at its place. -/
  seen : d.node? f.path = d.tree.get? (d.place f.path)
  created : note = .created (p.shown f.path) ↔ d.node? f.path = none
  updated : note = .updated (p.shown f.path) ↔ (∃ old, d.node? f.path = some (.file old)) ∧
    d.place f.path ∈ touched ∧ d'.node? f.path = some (.file (Text.encode f.content))
  kept : note = .kept (p.shown f.path) ↔ (∃ node, d.node? f.path = some node) ∧
    d.place f.path ∉ touched ∧ d'.node? f.path = d.node? f.path
  /-- Whatever is not kept holds what was planned. -/
  planned : note ≠ .kept (p.shown f.path) →
    d'.node? f.path = some (.file (Text.encode f.content))

/-- What a report says about the setup file is true of the disks before and after a request. -/
structure TellsSetup (d d' : Disk) (p : Project) (name : Text)
    (registered : Option (Text × Text)) (already : Option Text) : Prop where
  one : registered.isSome = !already.isSome
  registered_eq : ∀ entry, registered = some entry →
    entry = (statement name, p.shown p.registrationFile)
  already_eq : ∀ path, already = some path → path = p.shown p.registrationFile
  /-- The statement is reported as registered exactly if the file changed. -/
  changed : registered.isSome = true ↔
    d'.node? p.registrationFile ≠ d.node? p.registrationFile
  line : ∃ text, d'.readText p.registrationFile = .ok text ∧
    ∃ line ∈ fileLines text, Text.trim line = statement name

/-- A report on a request that works, when the given files were touched. -/
structure Truthful (d d' : Disk) (touched : List Location) (p : Project) (r : Request)
    (plan : Plan) (notes : List FileNote) (registered : Option (Text × Text))
    (already : Option Text) : Prop where
  files : List.Forall₂ (Tells d d' touched p) plan.drafts notes
  reported : ∀ l ∈ touched, ∃ f ∈ plan.drafts, d.place f.path = l
  /-- All other files are as before. -/
  others : ∀ l, l ∉ touched → ∀ content,
    d'.tree.get? l = some (.file content) ↔ d.tree.get? l = some (.file content)
  setup : ∀ m force indent, r = .model m force indent → '\n' ∉ m.name →
    TellsSetup d d' p m.name registered already
  /-- Only models are registered. -/
  unregistered : r.setupFile? p = none → registered = none ∧ already = none

variable {d d' : Disk} {p : Project} {r : Request} {plan : Plan} {f : Draft}
  {touched : List Location} {existing : List Path} {written : List Draft}

/-- The note on a file that was written, if it is known whether its path led to something. -/
theorem tells_written (hw : Wrote d d' written) (hc : d.climbs f.path = true)
    (hafter : d'.node? f.path = some (.file (Text.encode f.content)))
    (ht : d.place f.path ∈ touched)
    (he : f.path ∈ existing ↔ (d.kind? f.path).isSome = true) :
    Tells d d' touched p f (Request.note p existing (f.path, .written)) := by
  have htarget := Disk.target?_of_file hafter
  rw [hw.place_eq] at htarget
  have hfound : ∀ node, d.tree.get? (d.place f.path) = some node → d.node? f.path = some node :=
    fun node hn => (Disk.target?_of_climbs hc hw.here htarget hn).2
  rcases hn : d.node? f.path with _ | _ | old
  · have hplace : d.tree.get? (d.place f.path) = none := by
      cases hg : d.tree.get? (d.place f.path) with
      | none => rfl
      | some node =>
        rw [hfound node hg] at hn
        cases hn
    have hnote : Request.note p existing (f.path, .written) = .created (p.shown f.path) := by
      simp [Request.note, he, Disk.kind?, hn]
    rw [hnote]
    refine ⟨.inl rfl, by rw [hn, hplace], by simp [hn], by simp [hn], by simp [hn], fun _ => hafter⟩
  · -- a directory would still be there
    obtain ⟨-, hg⟩ := Disk.node?_eq_some_iff.1 hn
    obtain ⟨-, hg'⟩ := Disk.node?_eq_some_iff.1 hafter
    rw [hw.place_eq, hw.dirs _ hg] at hg'
    cases hg'
  · have hnote : Request.note p existing (f.path, .written) = .updated (p.shown f.path) := by
      simp [Request.note, he, Disk.kind?, hn]
    rw [hnote]
    exact ⟨.inr (.inl rfl), by rw [hn, (Disk.node?_eq_some_iff.1 hn).2], by simp [hn],
      by simp [hn, ht, hafter], by simp [hn, ht], fun _ => hafter⟩

/-- The note on a file that was left alone. -/
theorem tells_skipped {node : Node} (hn : d.node? f.path = some node)
    (hafter : d'.node? f.path = some node) (ht : d.place f.path ∉ touched) :
    Tells d d' touched p f (Request.note p existing (f.path, .skipped)) := by
  have hnote : Request.note p existing (f.path, .skipped) = .kept (p.shown f.path) := rfl
  rw [hnote]
  exact ⟨.inr (.inr rfl), by rw [hn, (Disk.node?_eq_some_iff.1 hn).2], by simp [hn], by simp [ht],
    by simp [hn, ht, hafter], by simp⟩

/-! ### Running a report -/

namespace Request

theorem run_existing (paths : List Path) (d : Disk) :
    (Request.existing paths).run d = (paths.filter fun q => (d.kind? q).isSome, d) := by
  induction paths with
  | nil => rfl
  | cons q qs ih =>
    by_cases hq : (d.kind? q).isSome = true <;> simp [Request.existing, ih, hq]

theorem touches_existing (paths : List Path) (d : Disk) :
    (Request.existing paths).touches d = [] := by
  induction paths with
  | nil => rfl
  | cons q qs ih =>
    have hlook : (Script.exists? q).touches d = [] :=
      ((Script.only_looks_exists? q).imp fun _ h => h.sparesFiles).touches_eq_nil d
    simp [Request.existing, hlook, ih]

theorem touches_plan (p : Project) (r : Request) (d : Disk) : (r.plan p).touches d = [] :=
  ((r.only_looks_plan p).imp fun _ h => h.sparesFiles).touches_eq_nil d

/-- A report on a request that works comes from a plan that was committed, and the commit is all
that touches files. -/
theorem of_report {report : Report} (quiet : d.temporaries = [])
    (h : ((r.report p false).run d).1 = .ok report) :
    ∃ plan outcomes d', ((r.plan p).run d).1 = .ok plan ∧
      (Scaffold.commit plan.drafts).run d = (.ok outcomes, d') ∧
      ((r.report p false).run d).2 = d' ∧
      report = ⟨r.subject, r.warnings,
        r.body p ((r.watched plan).filter fun q => (d.kind? q).isSome)
          ⟨outcomes, plan.registration⟩⟩ ∧
      (r.report p false).touches d =
        (outcomes.filter fun o => o.2 = .written).map fun o => d.place o.1 := by
  have hreads := readsOnly_plan p r d
  cases hplan : ((r.plan p).run d).1 with
  | error e => simp [Request.report, hplan] at h
  | ok plan =>
    have hcommit := Plan.run_commit plan d
    rcases hrun : (Scaffold.commit plan.drafts).run d with ⟨e | outcomes, d'⟩
    · rw [hrun] at hcommit
      simp [Request.report, hplan, hreads, run_existing, hcommit] at h
    · rw [hrun] at hcommit
      have htouches : plan.commit.touches d = (Scaffold.commit plan.drafts).touches d := by
        simp [Plan.commit, hrun]
      simp only [Request.report, Script.run_bind, hplan, hreads, run_existing, hcommit,
        Bool.false_eq_true, if_false, Script.run_pure, Except.ok.injEq] at h
      refine ⟨plan, outcomes, d', rfl, hrun, ?_, h.symm, ?_⟩
      · simp [Request.report, hplan, hreads, run_existing, hcommit]
      · rw [← touches_commit quiet hrun, ← htouches]
        simp [Request.report, hplan, hreads, run_existing, hcommit, touches_plan,
          touches_existing]

/-- The report on a controller or a view: its file is written if nothing is there, and left alone
otherwise. -/
theorem truthful_single (hr : r.setupFile? p = none) (hplan : ((r.plan p).run d).1 = .ok plan)
    (hc : d.climbs (r.file p) = true) {outcomes : List (Path × Outcome)}
    (ha : Accounts d plan.drafts outcomes written) (hw : Wrote d d' written) :
    List.Forall₂ (Tells d d' (written.map fun f => d.place f.path) p) plan.drafts
      (outcomes.map (note p [])) := by
  obtain ⟨f, rfl, hpath, ho⟩ := single_of_plan hr hplan
  rw [← hpath] at hc
  cases ha with
  | skipped rule found hacc =>
    cases hacc
    obtain ⟨node, hn⟩ := Disk.isSome_kind?_iff.1 found
    exact .cons (tells_skipped hn (hw.node?_of_ne hn (by simp)) (by simp)) .nil
  | written rule grown hacc =>
    cases hacc
    exact .cons (tells_written hw hc hw.node?_single (by simp) (by simp [rule ho])) .nil

/-- The report on files that may all overwrite: each is written. -/
theorem truthful_always {drafts : List Draft} (hw : Wrote d d' drafts)
    (hc : ∀ f ∈ drafts, d.climbs f.path = true)
    (hafter : ∀ f ∈ drafts, d'.node? f.path = some (.file (Text.encode f.content))) :
    List.Forall₂ (Tells d d' (drafts.map fun f => d.place f.path) p) drafts
      ((drafts.map fun f => (f.path, Outcome.written)).map
        (note p ((drafts.map (·.path)).filter fun q => (d.kind? q).isSome))) := by
  rw [List.map_map, List.forall₂_map_right_iff, List.forall₂_same]
  intro f hf
  refine tells_written hw (hc f hf) (hafter f hf) (List.mem_map_of_mem hf) ?_
  have hmem : f.path ∈ drafts.map (·.path) := List.mem_map_of_mem hf
  simp [hmem]

end Request

/-- The report on a model tells what became of the setup file: it has the statement and is left
alone, or the statement is added. -/
theorem tellsSetup {m : Model} {force : Bool} {indent : Indent} (existing : List Path)
    (hplan : (((Request.model m force indent).plan p).run d).1 = .ok plan)
    (hne : d.place (p.modelFile m.name) ≠ d.place p.registrationFile)
    (hw : Wrote d d' plan.drafts) :
    ∃ registered already,
      (∀ files, Request.body p existing (.model m force indent) ⟨files, plan.registration⟩ =
        .written (files.map (Request.note p existing)) registered already) ∧
      ('\n' ∉ m.name → TellsSetup d d' p m.name registered already) := by
  obtain ⟨template, text, ht, -, ⟨hs, rfl⟩ | ⟨new, hs, rfl⟩⟩ := Plan.of_ofModel hplan
  · have hkept : d'.node? p.registrationFile = d.node? p.registrationFile := by
      have hold := Disk.readText_eq_ok_iff.1 ht
      rw [hold]
      refine hw.node?_of_ne hold fun f hf => ?_
      obtain rfl := List.mem_singleton.1 hf
      exact hne
    refine ⟨none, some (p.shown p.registrationFile), fun _ => rfl, fun _ => ⟨rfl, by simp, by simp,
      by simp [hkept], text, ?_, splice_eq_present_iff.1 hs⟩⟩
    rw [Disk.readText_eq_ok_iff, hkept, ← Disk.readText_eq_ok_iff]
    exact ht
  · have hnew : d'.node? p.registrationFile = some (.file (Text.encode new)) :=
      hw.last [_] ⟨p.registrationFile, new, .always⟩ [] rfl (by simp)
    refine ⟨some (statement m.name, p.shown p.registrationFile), none, fun _ => rfl, fun hn => ?_⟩
    obtain ⟨above, inner, outer, hcloses⟩ := closes_of_splice hs
    obtain ⟨line, hline, hcloses'⟩ := hcloses.splice hn hs
    obtain ⟨below, hlines, -⟩ := hcloses'.lines
    have hmem : line ∈ fileLines new := by simp [hlines]
    have hchanged : new ≠ text := by
      rintro rfl
      exact of_splice_eq_inserted hs line hmem hline
    refine ⟨rfl, by simp, by simp, ?_, new, Disk.readText_eq_ok_iff.2 hnew, line, hmem, hline⟩
    rw [hnew, Disk.readText_eq_ok_iff.1 ht]
    simp only [Option.isSome_some, ne_eq, Option.some.injEq, Node.file.injEq, true_iff]
    intro he
    apply hchanged
    have hd := congrArg Text.decode? he
    simpa using hd

/-- If the path of the file of a request climbs safely, so do all paths that are planned: the setup
file has been read. -/
theorem Request.climbs_drafts (hplan : ((r.plan p).run d).1 = .ok plan)
    (hc : d.climbs (r.file p) = true) : ∀ f ∈ plan.drafts, d.climbs f.path = true := by
  cases hr : r.setupFile? p with
  | none =>
    obtain ⟨f, rfl, hpath, -⟩ := Request.single_of_plan hr hplan
    simpa [hpath] using hc
  | some q =>
    obtain ⟨m, force, indent, rfl, rfl⟩ := Request.of_setupFile? hr
    obtain ⟨-, text, -, -, ht, -⟩ := ModelCall.drafts_of_plan (c := ⟨m, force, indent⟩) hplan
    have hsetup := Disk.climbs_of_node? (Disk.readText_eq_ok_iff.1 ht)
    intro f hf
    rcases (ModelCall.mem_drafts_of_plan (c := ⟨m, force, indent⟩) hplan f hf).1 with hp | hp
    · rw [hp]
      exact hc
    · rw [hp]
      exact hsetup

theorem Request.body_of_unregistered (hr : r.setupFile? p = none)
    (outcomes : List (Path × Outcome)) :
    r.body p ((r.watched plan).filter fun q => (d.kind? q).isSome) ⟨outcomes, none⟩ =
      .written (outcomes.map (note p [])) none none := by
  cases r with
  | model m force indent => cases hr
  | controller name kind => rfl
  | view name title => rfl

/-- Every report on a request that works is true, if each `..` in the path of the file of the
request stands in a directory, and this file is not the setup file. -/
theorem report_truthful (t : FileTree) (here : Location) (p : Project) (r : Request)
    (hc : (t.disk here).climbs (r.file p) = true)
    (hne : ∀ q, r.setupFile? p = some q → (t.disk here).place (r.file p) ≠ (t.disk here).place q)
    {report : Report} (h : ((r.report p false).run (t.disk here)).1 = .ok report) :
    ∃ plan notes registered already, ((r.plan p).run (t.disk here)).1 = .ok plan ∧
      report = ⟨r.subject, r.warnings, .written notes registered already⟩ ∧
      Truthful (t.disk here) ((r.report p false).run (t.disk here)).2
        ((r.report p false).touches (t.disk here)) p r plan notes registered already := by
  have quiet : (t.disk here).temporaries = [] := rfl
  generalize t.disk here = d at *
  obtain ⟨plan, outcomes, d', hplan, hcommit, hd', rfl, htouches⟩ := Request.of_report quiet h
  have hothers := fun l (hl : l ∉ (r.report p false).touches d) =>
    Script.get?_of_not_touches hl
  have hclimbs := Request.climbs_drafts hplan hc
  obtain ⟨written, ha, hw⟩ : ∃ written, Accounts d plan.drafts outcomes written ∧
      Wrote d d' written := by
    rcases commit_ok_or_same quiet hclimbs with
      ⟨e, d₁, hrun, -⟩ | ⟨outcomes₁, written, d₁, hrun, ha, hw, -⟩ <;> rw [hcommit] at hrun <;>
      cases hrun
    exact ⟨written, ha, hw⟩
  have hplaces : (r.report p false).touches d = written.map fun f => d.place f.path := by
    have hpaths := congrArg (List.map d.place) ha.written_paths
    rw [List.map_map, List.map_map] at hpaths
    exact htouches.trans hpaths.symm
  have hreported : ∀ l ∈ written.map (fun f => d.place f.path), ∃ f ∈ plan.drafts,
      d.place f.path = l := by
    intro l hl
    obtain ⟨f, hf, rfl⟩ := List.mem_map.1 hl
    exact ⟨f, ha.sublist.subset hf, rfl⟩
  rw [hd', hplaces] at hothers ⊢
  -- Without a setup file there is one draft, which may be kept; a model replaces all that it plans.
  cases hr : r.setupFile? p with
  | none =>
    have hnotes := Request.truthful_single hr hplan hc ha hw
    obtain ⟨f, rfl, -, -⟩ := Request.single_of_plan hr hplan
    refine ⟨_, _, none, none, hplan, by rw [Request.body_of_unregistered hr], ?_⟩
    refine ⟨hnotes, hreported, hothers, ?_, fun _ => ⟨rfl, rfl⟩⟩
    rintro m force indent rfl
    cases hr
  | some q =>
    obtain ⟨m, force, indent, rfl, rfl⟩ := Request.of_setupFile? hr
    have hmem := ModelCall.mem_drafts_of_plan (c := ⟨m, force, indent⟩) hplan
    obtain ⟨rfl, rfl⟩ := ha.eq_of_always fun f hf => (hmem f hf).2
    have hafter := ModelCall.contents_of_wrote (c := ⟨m, force, indent⟩) (hne _ hr) hplan hw
    have hnotes := Request.truthful_always (p := p) hw hclimbs hafter
    obtain ⟨registered, already, hbody, hsetup⟩ := tellsSetup
      ((plan.drafts.map (·.path)).filter fun q => (d.kind? q).isSome) hplan (hne _ hr) hw
    refine ⟨plan, _, registered, already, hplan, congrArg _ (hbody _), hnotes, hreported, hothers,
      ?_, by simp [hr]⟩
    rintro m force indent ⟨⟩
    exact hsetup

/-- The report on a model whose file is new and whose statement is added to the setup file. -/
def noteReport : Report :=
  ⟨"model Note", [],
    .written [.created "Templates/../Models/Own/Note.swift", .updated "Setup.swift"]
      (some ("preparations.append(Note.self)".toList, "Setup.swift".toList)) none⟩

theorem report_truthful_note :
    (noteTree.disk []).climbs (noteCall.request.file noteProject) = true ∧
    (∀ q, noteCall.request.setupFile? noteProject = some q →
      (noteTree.disk []).place (noteCall.request.file noteProject) ≠ (noteTree.disk []).place q) ∧
    ((noteCall.request.report noteProject false).run (noteTree.disk [])).1 = .ok noteReport ∧
    ∃ plan notes registered already,
      ((noteCall.request.plan noteProject).run (noteTree.disk [])).1 = .ok plan ∧
      noteReport = ⟨noteCall.request.subject, noteCall.request.warnings,
        .written notes registered already⟩ ∧
      Truthful (noteTree.disk [])
        ((noteCall.request.report noteProject false).run (noteTree.disk [])).2
        ((noteCall.request.report noteProject false).touches (noteTree.disk []))
        noteProject noteCall.request plan notes registered already := by
  have hne : ∀ q, noteCall.request.setupFile? noteProject = some q →
      (noteTree.disk []).place (noteCall.request.file noteProject) ≠
        (noteTree.disk []).place q := by
    intro q hq
    obtain rfl : noteProject.registrationFile = q := Option.some.inj hq
    decide
  exact ⟨by decide, hne, rfl,
    report_truthful noteTree [] noteProject noteCall.request (by decide) hne rfl⟩

end Scaffold

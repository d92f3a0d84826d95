import Scaffold.Proofs.Report.Truth

/-! Dry runs of requests for controllers and views. A dry run shows the file that is planned and
counts it as one that would be written. The real run leaves the file alone if something is there, so
the two agree exactly if nothing is found at the path of the file. Main statement:
`dryRun_announces_iff`. -/

namespace Scaffold

open Commit

/-! ### What reports list -/

/-- The path of a file that was written. -/
def FileNote.written? : FileNote → Option Text
  | .created path | .updated path => some path
  | .kept _ => none

/-- The paths of the files that a report says were written. -/
def Report.written (r : Report) : List Text :=
  match r.body with
  | .written files _ _ => files.filterMap FileNote.written?
  | .preview _ => []

/-- The files that a report says would be written. -/
def Report.announced (r : Report) : List PreviewFile :=
  match r.body with
  | .written _ _ _ => []
  | .preview files => files

/-- The line of a report that counts the files that would be written. -/
def Report.countLine (count : Nat) (r : Request) : Report.Line :=
  .verbatim (Text.ofNat count ++ " file(s) would be written for " ++ r.subject)

/-- A dry run announces what the real run reports as written and leaves on the disk. -/
structure Announces (d' : Disk) (p : Project) (r : Request) (drafts : List Draft)
    (dry real : Report) : Prop where
  paths : dry.announced.map (·.path) = real.written
  counted : dry.lines.getLast? = some (Report.countLine real.written.length r)
  contents : ∀ g ∈ dry.announced, ∃ f ∈ drafts, g = ⟨p.shown f.path, f.content⟩ ∧
    d'.node? f.path = some (.file (Text.encode f.content))

/-- The report of a dry run that shows one file. -/
def Request.dryReport (p : Project) (r : Request) (f : Draft) : Report :=
  ⟨r.subject, r.warnings, .preview [⟨p.shown f.path, f.content⟩]⟩

variable {d d' : Disk} {p : Project} {r : Request} {f : Draft}

/-! ### One file -/

/-- A draft that must not overwrite what is there is left alone, and so is the disk. -/
theorem run_commit_skipped (ho : f.overwrite = .ifMissing) (hk : (d.kind? f.path).isSome = true) :
    (commit [f]).run d = (.ok [(f.path, .skipped)], d) := by
  have hstage : (stageAll {} [f]).run d = ((⟨[(f.path, .skipped)], [], []⟩, none), d) := by
    rw [run_stageAll_cons, if_pos ⟨ho, hk⟩]
    rfl
  simp [commit, hstage, persistAll]

/-- A draft that must not overwrite is written if nothing is found at its path and the commit
works. -/
theorem wrote_of_commit {outcomes : List (Path × Outcome)} (quiet : d.temporaries = [])
    (hk : d.kind? f.path = none) (h : (commit [f]).run d = (.ok outcomes, d')) :
    outcomes = [(f.path, .written)] ∧ Wrote d d' [f] := by
  have hrest : ∀ g ∈ [f].tail, ∃ content, d.node? g.path = some (.file content) := by simp
  rcases commit_ok_or_sameFiles quiet hrest with
    ⟨e, d₁, hrun, -⟩ | ⟨outcomes₁, written, d₁, hrun, ha, hw⟩ <;> rw [h] at hrun <;> cases hrun
  cases ha with
  | skipped rule found hacc => simp [hk] at found
  | written rule grown hacc =>
    cases hacc
    exact ⟨rfl, hw⟩

namespace Request

/-- A dry run shows the planned file and changes nothing. -/
theorem run_dryRun (hplan : ((r.plan p).run d).1 = .ok ⟨[f], none⟩) :
    (r.report p true).run d = (.ok (r.dryReport p f), d) := by
  have hreads := readsOnly_plan p r d
  simp [Request.report, hplan, hreads, dryReport, Plan.preview]

theorem countLine_dryReport (p : Project) (r : Request) (f : Draft) :
    (r.dryReport p f).lines.getLast? = some (Report.countLine 1 r) := by
  simp [Report.lines, dryReport, Report.bodyLines, Report.countLine]

end Request

/-! ### Dry runs -/

/-- A dry run for a controller or a view announces what the real run writes exactly if nothing is
found at the path of its file before; otherwise the real run keeps what is there, and the whole
disk. -/
theorem dryRun_announces_iff (t : FileTree) (here : Location) (p : Project) (r : Request)
    (hr : r.setupFile? p = none) {real : Report}
    (h : ((r.report p false).run (t.disk here)).1 = .ok real) :
    ∃ f, ((r.plan p).run (t.disk here)).1 = .ok ⟨[f], none⟩ ∧ f.path = r.file p ∧
      (r.report p true).run (t.disk here) = (.ok (r.dryReport p f), t.disk here) ∧
      (Announces ((r.report p false).run (t.disk here)).2 p r [f] (r.dryReport p f) real ↔
        (t.disk here).kind? f.path = none) ∧
      ((t.disk here).kind? f.path ≠ none →
        real.body = .written [.kept (p.shown f.path)] none none ∧
        ((r.report p false).run (t.disk here)).2 = t.disk here) := by
  have quiet : (t.disk here).temporaries = [] := rfl
  generalize t.disk here = d at *
  obtain ⟨plan, outcomes, d', hplan, hcommit, hd', hreport, -⟩ := Request.of_report quiet h
  obtain ⟨f, rfl, hpath, ho⟩ := Request.single_of_plan hr hplan
  rw [Request.body_of_unregistered hr] at hreport
  refine ⟨f, hplan, hpath, Request.run_dryRun hplan, ?_⟩
  rw [hd']
  cases hk : d.kind? f.path with
  | none =>
    obtain ⟨rfl, hw⟩ := wrote_of_commit quiet hk hcommit
    have hwritten : real.written = [p.shown f.path] := by rw [hreport]; rfl
    refine ⟨iff_of_true ⟨?_, ?_, ?_⟩ rfl, by simp⟩
    · rw [hwritten]
      rfl
    · rw [hwritten]
      exact Request.countLine_dryReport p r f
    · intro g hg
      obtain rfl : g = _ := List.mem_singleton.1 hg
      exact ⟨f, by simp, rfl, hw.node?_single⟩
  | some k =>
    rw [run_commit_skipped ho (by simp [hk])] at hcommit
    cases hcommit
    have hbody : real.body = .written [.kept (p.shown f.path)] none none := by rw [hreport]; rfl
    refine ⟨iff_of_false (fun ha => ?_) (by simp), fun _ => ⟨hbody, rfl⟩⟩
    have hnone : real.written = [] := by
      rw [Report.written, hbody]
      rfl
    have hpaths : [p.shown f.path] = real.written := ha.paths
    rw [hnone] at hpaths
    cases hpaths

/-- A request for a controller that the user has written already. -/
def ownRequest : Request := .controller "Home" .view

/-- The report on the real run of the request. -/
def keptReport : Report :=
  ⟨"view controller Home", [], .written [.kept "Controllers/Views/Home.swift"] none none⟩

theorem dryRun_home_not_announced :
    ownRequest.setupFile? homeProject = none ∧
    ((ownRequest.report homeProject false).run (homeTree.disk [])).1 = .ok keptReport ∧
    ∃ f dry, ((ownRequest.plan homeProject).run (homeTree.disk [])).1 = .ok ⟨[f], none⟩ ∧
      (ownRequest.report homeProject true).run (homeTree.disk []) = (.ok dry, homeTree.disk []) ∧
      dry.announced = [⟨"Controllers/Views/Home.swift".toList, "new\n".toList⟩] ∧
      ¬ Announces ((ownRequest.report homeProject false).run (homeTree.disk [])).2 homeProject
        ownRequest [f] dry keptReport := by
  have hreal : ((ownRequest.report homeProject false).run (homeTree.disk [])).1 =
      .ok keptReport := rfl
  obtain ⟨f, hplan, -, hdry, hiff, -⟩ :=
    dryRun_announces_iff homeTree [] homeProject ownRequest rfl hreal
  refine ⟨rfl, hreal, f, _, hplan, hdry, ?_, fun ha => ?_⟩
  · cases hplan
    rfl
  · cases hplan
    exact absurd (hiff.1 ha) (by decide)

end Scaffold

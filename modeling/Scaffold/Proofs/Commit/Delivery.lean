import Scaffold.Proofs.Commit.Verdicts

/-! The exact effect of a commit that works. Its outcomes are the verdicts that the disk before it
tells, and what lies at any location afterwards is told by that disk and the drafts that were not
left alone. Main statement: `commit_ok_exact`. -/

namespace Scaffold

namespace Commit

variable {d c e : Disk} {drafts written : List Draft} {staged : List (Staged Temporary)}

/-- What lies at a location when drafts have been written: the content of the last draft for it, or
else a directory that was missing above a draft, or else what was there before. -/
def withDrafts (d : Disk) (drafts : List Draft) (l : Location) : Option Node :=
  match drafts.reverse.find? fun f => d.place f.path = l with
  | some f => some (.file (Text.encode f.content))
  | none => withFolders d drafts l

/-- What a commit that works gives back and leaves behind. -/
structure Committed (d : Disk) (drafts : List Draft) (results : List (Path × Outcome))
    (d' : Disk) : Prop where
  paths : results.map Prod.fst = drafts.map (·.path)
  results : results = (verdicts d [] drafts).map fun v => (v.1.path, v.2)
  here : d'.here = d.here
  temporaries : d'.temporaries = []
  /-- The path of each draft that is written leads to its place. -/
  leads : ∀ f ∈ writtenAfter d [] drafts, d'.locate f.path = .ok (d.place f.path)
  /-- So no draft is written above another one. -/
  folders : ∀ f ∈ writtenAfter d [] drafts, ∀ l, Above d l f.path → d'.tree.get? l = some .dir
  get? : ∀ l, d'.tree.get? l = withDrafts d (writtenAfter d [] drafts) l

/-- A commit that works has staged all drafts that it does not leave alone, and moved them. -/
theorem of_commit_ok (quiet : d.temporaries = []) (hc : ∀ f ∈ drafts, d.climbs f.path = true)
    {results : List (Path × Outcome)} {d' : Disk} (h : (commit drafts).run d = (.ok results, d')) :
    ∃ p c, (stageAll {} drafts).run d = ((p, none), c) ∧ p.outcomes = results ∧
      Waiting d c p.staged ∧ Moved c d' p.staged.reverse [] := by
  obtain ⟨tried, p, failed, c, hrun, hp, -⟩ :=
    @stageAll_run d d drafts _ (kept_housed quiet hc) [] {} (housed_nil quiet)
  have hw := hp.toWaiting
  cases failed with
  | some path => simp [commit, hrun] at h
  | none =>
    refine ⟨p, c, hrun, ?_⟩
    rcases persistAll_run hw.moved with ⟨e, hm, hmoved⟩ | ⟨_, _, _, _, -, -, -, hm⟩
    · simp only [commit, Script.run_bind, hrun, hm, Script.run_pure, Prod.mk.injEq,
        Except.ok.injEq] at h
      obtain ⟨ho, rfl⟩ := h
      exact ⟨ho, hw, by simpa using hmoved⟩
    · simp [commit, hrun, hm] at h

/-- What lies at a location when staged drafts have been moved, the last one first. -/
theorem laid_eq (hs : List.Forall₂ StagedAs written staged)
    (ht : ∀ s ∈ staged, c.target? s.path = some (d.place s.path)) (l : Location) :
    laid c staged l = match written.find? fun f => d.place f.path = l with
      | some f => some (.file (Text.encode f.content))
      | none => c.tree.get? l := by
  induction hs with
  | nil => rfl
  | @cons f s _ _ hf _ ih =>
    obtain ⟨hpath, hcontent⟩ := hf
    have htar := ht s List.mem_cons_self
    rw [laid, htar, ih fun s' hs' => ht s' (List.mem_cons_of_mem _ hs'), hpath]
    by_cases hl : d.place f.path = l
    · simp [hl, hcontent]
    · simp [hl]

end Commit

open Commit

/-- A commit that works has the exact effect that is told from the disk before it, if each `..` in
the path of a draft stands in a directory that was there before. -/
theorem commit_ok_exact (t : FileTree) (here : Location) {drafts : List Draft}
    (hc : ∀ f ∈ drafts, (t.disk here).climbs f.path = true) {results : List (Path × Outcome)}
    (h : ((commit drafts).run (t.disk here)).1 = .ok results) :
    Committed (t.disk here) drafts results ((commit drafts).run (t.disk here)).2 := by
  have quiet : (t.disk here).temporaries = [] := rfl
  generalize t.disk here = d at *
  obtain ⟨d', hrun⟩ : ∃ d', (commit drafts).run d = (.ok results, d') := ⟨_, Prod.ext h rfl⟩
  obtain ⟨p, c, hstage, rfl, hw, hm⟩ := of_commit_ok quiet hc hrun
  rw [hrun]
  have ht : ∀ s ∈ p.staged, c.target? s.path = some (d.place s.path) := fun s hs =>
    target?_of_moved hw hm (List.mem_reverse.2 hs)
  have hn : ∀ s ∈ p.staged, s.path.EndsInName := fun s hs =>
    (Disk.target?_eq_some_iff.1 (ht s hs)).1
  obtain ⟨ho, hs, hh⟩ := verdicts_of_stageAll quiet hc (housed_nil quiet) .nil hstage hn
  have hreached := hh.reached hs hn
  simp only [List.nil_append] at ho hs hh hreached
  have htar : ∀ f ∈ writtenAfter d [] drafts, d'.target? f.path = some (d.place f.path) := by
    intro f hf
    obtain ⟨s, hsm, hpath, -⟩ := exists_of_mem_left hs hf
    rw [target?_eq_of_sameDirs hm.here hm.dirs, ← hpath, ht s hsm]
  refine ⟨?_, ho, hm.here.trans hw.here, List.perm_nil.1 hm.temporaries, fun f hf => ?_,
    fun f hf l ha => ?_, fun l => ?_⟩
  · rw [ho, List.map_map, ← map_fst_verdicts d [] drafts, List.map_map, map_fst_verdicts]
    rfl
  · exact (Disk.target?_eq_some_iff.1 (htar f hf)).2
  · obtain ⟨-, hdir⟩ := Disk.get?_dropLast_of_target? (htar f hf)
    exact FileTree.get?_of_prefix hdir (prefix_dropLast ha.1 ha.2)
  · rw [hm.get?, laid_eq (List.forall₂_reverse_iff.2 hs) fun s hs => ht s (List.mem_reverse.1 hs),
      hreached.get?]
    rfl

/-- A tree with a file and an empty directory. -/
def keepTree : FileTree :=
  .ofEntries [(["keep.txt".toList], .file (Text.encode "mine")), (["empty".toList], .dir)]
    (by decide)

/-- Drafts that may not all overwrite: for a file that is there, for a directory that is made for
the first draft, and two for one file, which is not there when either of them is reached. -/
def keepDrafts : List Draft :=
  [⟨"Sources/App/User.swift", "model", .always⟩, ⟨"keep.txt", "theirs", .ifMissing⟩,
    ⟨"Sources/App", "folder", .ifMissing⟩, ⟨"empty/../Sources/Home.swift", "one", .ifMissing⟩,
    ⟨"./Sources//Home.swift", "two", .ifMissing⟩]

theorem commit_keepDrafts_exact :
    (∀ f ∈ keepDrafts, (keepTree.disk []).climbs f.path = true) ∧
    ((commit keepDrafts).run (keepTree.disk [])).1 = .ok [("Sources/App/User.swift", .written),
      ("keep.txt", .skipped), ("Sources/App", .skipped), ("empty/../Sources/Home.swift", .written),
      ("./Sources//Home.swift", .written)] ∧
    withDrafts (keepTree.disk []) (writtenAfter (keepTree.disk []) [] keepDrafts)
      ["Sources".toList, "Home.swift".toList] = some (.file (Text.encode "two")) ∧
    Committed (keepTree.disk []) keepDrafts [("Sources/App/User.swift", .written),
      ("keep.txt", .skipped), ("Sources/App", .skipped), ("empty/../Sources/Home.swift", .written),
      ("./Sources//Home.swift", .written)] ((commit keepDrafts).run (keepTree.disk [])).2 :=
  ⟨by decide, rfl, by decide +kernel, commit_ok_exact keepTree [] (by decide) rfl⟩

end Scaffold

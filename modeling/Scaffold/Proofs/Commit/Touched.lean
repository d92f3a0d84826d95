import Scaffold.Proofs.Commit.Files
import Scaffold.Proofs.Disk.Trace

/-! Which files a script touches, and which a commit does. A file that is not touched is as before,
whatever the script is. A commit that works touches the files of the drafts that it does not leave
alone, and no others. Main statement: `touches_commit`. -/

namespace Scaffold

open Commit

/-! ### Files that are not touched -/

namespace Disk

variable {d d' : Disk} {l : Location}

theorem tree_unstage (d : Disk) (t : Temporary) : (d.unstage t).tree = d.tree := rfl

/-- A change at one location leaves the files of other locations as they are. -/
theorem get?_of_touched {c : Call Temporary} (hl : d.touched c ≠ some l) (content : ByteArray) :
    (d.answer c).2.tree.get? l = some (.file content) ↔ d.tree.get? l = some (.file content) := by
  cases c with
  | kind p => rfl
  | read p => rfl
  | unstage t => rfl
  | makeDir p => exact (grown_makeDir d p).sameFiles l content
  | removeDir p => exact sameFiles_removeDir d p l content
  | stage folder content' =>
    simp only [answer]
    rcases hs : d.stage? folder content' with _ | ⟨t, d'⟩
    · rfl
    · obtain ⟨-, -, -, -, rfl⟩ := of_stage? hs
      rfl
  | write p new =>
    simp only [answer]
    cases hw : d.writeFile? p new with
    | none => rfl
    | some d' =>
      obtain ⟨k, tree, hk, ht, rfl⟩ := of_writeFile? hw
      have hne : l ≠ k := by
        rintro rfl
        simp [touched, hw, hk] at hl
      rw [attempt_some, withTree_tree, FileTree.get?_of_writeFile? ht, if_neg hne]
  | removeFile p =>
    simp only [answer]
    cases hr : d.removeFile? p with
    | none => rfl
    | some d' =>
      obtain ⟨k, tree, hk, ht, rfl⟩ := of_removeFile? hr
      have hne : l ≠ k := by
        rintro rfl
        simp [touched, hr, hk] at hl
      rw [attempt_some, withTree_tree, FileTree.get?_of_removeFile? ht, if_neg hne]
  | persist t p =>
    simp only [answer]
    cases hp : d.persist? t p with
    | none => rfl
    | some d' =>
      obtain ⟨k, tree, hk, ht, rfl⟩ := of_persist? hp
      have hne : l ≠ k := by
        rintro rfl
        simp [touched, hp, hk] at hl
      rw [attempt_some, tree_unstage, withTree_tree, FileTree.get?_of_writeFile? ht, if_neg hne]

end Disk

/-- Files that a script does not touch are as before. The induction is on the script, each time for
the disk that the operation before it leaves. -/
theorem Script.get?_of_not_touches {α : Type} {s : Script Temporary α} {d : Disk} {l : Location}
    (hl : l ∉ s.touches d) (content : ByteArray) :
    (s.run d).2.tree.get? l = some (.file content) ↔ d.tree.get? l = some (.file content) := by
  induction s generalizing d with
  | done a => rfl
  | call c next ih =>
    rw [touches, List.mem_append, not_or, Option.mem_toList] at hl
    rw [run, ih _ hl.2]
    exact Disk.get?_of_touched hl.1 content

/-! ### Commits -/

namespace Commit

variable {τ : Type}

theorem only_sparesFiles_contentAt (p : Path) :
    (contentAt p : Script τ _).Only Call.SparesFiles := by
  refine .bind ⟨trivial, fun _ => trivial⟩ fun found => ?_
  split
  · refine .bind ⟨trivial, fun _ => trivial⟩ fun r => ?_
    split <;> exact .pure _
  · exact .pure _

theorem only_sparesFiles_missingBelow (found above : List Path) :
    (missingBelow found above : Script τ _).Only Call.SparesFiles := by
  induction above generalizing found with
  | nil => exact .pure _
  | cons p above ih =>
    unfold missingBelow
    split
    · exact .pure _
    · refine .bind ⟨trivial, fun _ => trivial⟩ fun there => ?_
      split
      · exact .pure _
      · exact ih _

theorem only_sparesFiles_makeFolders (folders : List Path) :
    (makeFolders folders : Script τ _).Only Call.SparesFiles := by
  induction folders with
  | nil => exact .pure _
  | cons p ps ih => exact .bind ⟨trivial, fun _ => trivial⟩ fun _ => ih

theorem only_sparesFiles_stageDraft (f : Draft) :
    (stageDraft f : Script τ _).Only Call.SparesFiles := by
  refine .bind (only_sparesFiles_contentAt _) fun content => ?_
  split
  · exact .pure _
  · refine .bind (only_sparesFiles_missingBelow _ _) fun missing => ?_
    refine .bind (only_sparesFiles_makeFolders _) fun _ => ?_
    refine .bind ⟨trivial, fun _ => trivial⟩ fun there => ?_
    split
    · refine .bind ⟨trivial, fun _ => trivial⟩ fun t => ?_
      split <;> exact .pure _
    · exact .pure _

/-- Staging touches no file. -/
theorem only_sparesFiles_stageAll (p : Progress τ) (drafts : List Draft) :
    (stageAll p drafts).Only Call.SparesFiles := by
  induction drafts generalizing p with
  | nil => exact .pure _
  | cons f fs ih =>
    unfold stageAll
    split
    all_goals
      refine .bind ?_ fun kept => ?_
      · first | exact ⟨trivial, fun _ => trivial⟩ | exact .pure _
      · cases kept
        · refine .bind (only_sparesFiles_stageDraft f) fun r => ?_
          obtain ⟨_ | s, missing⟩ := r
          · exact .pure _
          · exact ih _
        · exact ih _

/-- Moving all staged drafts touches the files at their places. -/
theorem touches_persistAll {moved rest : List (Staged Temporary)} {e e' : Disk}
    (h : (persistAll moved rest).run e = (none, e')) :
    (persistAll moved rest).touches e = rest.map fun s => e.place s.path := by
  induction rest generalizing moved e with
  | nil => rfl
  | cons s rest ih =>
    rw [persistAll, Script.run_bind, Script.run_persist] at h
    rw [persistAll, Script.touches_bind, Script.run_persist]
    cases hp : e.persist? s.temporary s.path with
    | none => simp [hp] at h
    | some e₁ =>
      obtain ⟨l, tree, hl, -, rfl⟩ := Disk.of_persist? hp
      have hself : (Script.persist s.temporary s.path).touches e = [e.place s.path] := by
        simp [Script.persist, Script.touches, Disk.touched, hp, hl, Disk.eq_place_of_target? hl]
      rw [hp, Disk.attempt_some] at h
      rw [hself, Disk.attempt_some, if_pos rfl, ih (by simpa using h)]
      rfl

/-- The outcomes tell which drafts are written. -/
theorem Accounts.written_paths {d : Disk} {drafts written : List Draft}
    {outcomes : List (Path × Outcome)} (h : Accounts d drafts outcomes written) :
    written.map (·.path) = (outcomes.filter fun o => o.2 = .written).map Prod.fst := by
  induction h with
  | nil => rfl
  | skipped _ _ _ ih => simpa using ih
  | written _ _ _ ih => simpa using ih

end Commit

/-- A commit that works touches the files at the places of the drafts that it writes. -/
theorem touches_commit {d d' : Disk} {drafts : List Draft} {results : List (Path × Outcome)}
    (quiet : d.temporaries = []) (h : (commit drafts).run d = (.ok results, d')) :
    (commit drafts).touches d =
      ((results.filter fun o => o.2 = .written).map fun o => d.place o.1) := by
  obtain ⟨tried, p, failed, c, hrun, hw, hok⟩ :=
    @stageAll_run d d drafts _ (kept_waiting d drafts) [] {} (waiting_nil quiet)
  have hstage := (only_sparesFiles_stageAll {} drafts).touches_eq_nil d
  cases failed with
  | some path => simp [commit, hrun] at h
  | none =>
    obtain ⟨outcomes, written, staged, ha, hs, ho, hst, -⟩ := hok rfl
    simp only [List.nil_append] at ho hst
    simp only [commit, Script.run_bind, hrun] at h
    simp only [commit, Script.touches_bind, hstage, hrun, List.nil_append]
    rcases hm : (persistAll [] p.staged).run c with ⟨_ | ⟨path, restored⟩, e⟩
    · simp only [hm, Script.run_pure, Prod.mk.injEq, Except.ok.injEq] at h
      obtain ⟨rfl, -⟩ := h
      have hplaces : p.staged.map (fun s => c.place s.path) =
          (p.staged.map (·.path)).map d.place := by
        rw [List.map_map]
        exact List.map_congr_left fun s _ => Disk.place_eq_of_here hw.here s.path
      rw [touches_persistAll hm, hplaces, hst, paths_eq_of_stagedAs hs, ha.written_paths, ho,
        List.map_map]
      simp
    · simp [hm] at h

end Scaffold

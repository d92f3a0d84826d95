import Scaffold.Proofs.Commit.Effect

/-! What a commit does to files when nothing is known about the paths of its drafts. Then a commit
that fails may leave directories behind or remove some, but if only its first draft can be new, the
files are as before: no draft is moved before the one that fails. -/

namespace Scaffold

open Commit

theorem Commit.sameFiles_removeDir (e : Disk) (q : Path) :
    e.SameFiles (e.attempt (e.removeDir? q)).2 := by
  intro l content
  cases hr : e.removeDir? q with
  | none => rfl
  | some e' =>
    obtain ⟨k, tree, -, ht, rfl⟩ := Disk.of_removeDir? hr
    simp only [Disk.attempt_some, Disk.withTree_tree]
    rw [FileTree.get?_of_removeDir? ht]
    split
    · next hl => simp [hl, (FileTree.of_removeDir? ht).2.1]
    · rfl

theorem Commit.sameFiles_removeFolders (folders : List Path) (e : Disk) :
    e.SameFiles ((removeFolders folders).run e).2 := by
  induction folders generalizing e with
  | nil => exact fun _ _ => Iff.rfl
  | cons q qs ih =>
    rw [removeFolders, Script.run_bind, Script.run_removeDir]
    exact (sameFiles_removeDir e q).trans (ih _)

/-- Every draft whose path leads to a file can be moved, whatever was moved before. -/
theorem Commit.exists_writeFile?_of_moved {d c e : Disk} {moved : List (Staged Temporary)}
    (hw : d.Grown c) (hm : Moved c e moved []) {p : Path} {old : ByteArray}
    (hn : d.node? p = some (.file old)) (content : ByteArray) :
    ∃ e', e.writeFile? p content = some e' := by
  have hc := Disk.node?_of_le hw.here.symm hw.le hn
  have ht : e.target? p = some (c.place p) := by
    rw [target?_eq_of_sameDirs hm.here hm.dirs]
    exact Disk.target?_of_file hc
  refine Disk.exists_writeFile? ht (fun hd => ?_) content
  rw [← hm.dirs, (Disk.node?_eq_some_iff.1 hc).2] at hd
  cases hd

/-- A commit fails and keeps all files as they are, or it writes all drafts that it does not leave
alone, if all drafts but the first one go to files that are there. -/
theorem commit_ok_or_sameFiles {d : Disk} {drafts : List Draft} (quiet : d.temporaries = [])
    (hrest : ∀ f ∈ drafts.tail, ∃ content, d.node? f.path = some (.file content)) :
    (∃ e d', (commit drafts).run d = (.error e, d') ∧ d.SameFiles d') ∨
    ∃ outcomes written d', (commit drafts).run d = (.ok outcomes, d') ∧
      Accounts d drafts outcomes written ∧ Wrote d d' written := by
  rcases commit_cases (kept_waiting d drafts) (waiting_nil quiet) with
    ⟨path, tried, staged, folders, c, hw, hrun⟩ |
    ⟨outcomes, written, staged, folders, c, hr, ⟨before, s, after, e, hs, hm, hn, _, hrun⟩ |
      ⟨d', hm, hrun⟩⟩
  · have hgone : c.SameFiles { c with temporaries := [] } := fun _ _ => Iff.rfl
    exact .inl ⟨_, _, hrun, hw.sameFiles.trans (hgone.trans (sameFiles_removeFolders _ _))⟩
  · rcases before with _ | ⟨b, before⟩
    · have hfiles : d.SameFiles e := by
        intro l content
        rw [hm.get?]
        exact hr.kept.sameFiles l content
      exact .inl ⟨_, _, hrun, hfiles.trans (sameFiles_removeFolders _ _)⟩
    · exfalso
      have hst := hr.stagedAs
      rw [hs] at hst
      rcases hst with _ | ⟨-, hst⟩
      next g w =>
        obtain ⟨f, hf, hpath, -⟩ := exists_of_mem_right hst (by simp : s ∈ before ++ s :: after)
        obtain ⟨old, hold⟩ := hrest f (hr.accounts.sublist.tail.subset hf)
        rw [← hpath] at hold
        obtain ⟨e', he'⟩ := exists_writeFile?_of_moved hr.kept.toGrown hm hold s.temporary.content
        rw [hn] at he'
        cases he'
  · exact .inr ⟨outcomes, written, d', hrun, hr.accounts, wrote_of_moved hr.stagedAs hr.kept hm⟩

end Scaffold

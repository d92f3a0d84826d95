import Scaffold.Proofs.Commit.Moving
import Scaffold.Proofs.Commit.Staging

/-! The ways in which a commit can go: staging fails, or a staged draft cannot be moved, or all
drafts are moved. Whatever is kept by staging holds of the disk on which the drafts are moved.
Main statement: `commit_cases`. -/

namespace Scaffold.Commit

variable {d : Disk} {drafts : List Draft}
  {I : Disk → List Path → List (Staged Temporary) → List Path → Prop}

/-- The staged drafts of a commit that gets to its second phase, and the disk then. -/
structure Ready (d : Disk) (drafts : List Draft)
    (I : Disk → List Path → List (Staged Temporary) → List Path → Prop)
    (outcomes : List (Path × Outcome)) (written : List Draft) (staged : List (Staged Temporary))
    (folders : List Path) (c : Disk) : Prop where
  accounts : Accounts d drafts outcomes written
  stagedAs : List.Forall₂ StagedAs written staged
  kept : I c (written.map (·.path)) staged folders

/-- When staging is done, no draft has been moved and all staged drafts are waiting. -/
theorem Waiting.moved {c : Disk} {staged : List (Staged Temporary)} (h : Waiting d c staged) :
    Moved c c [] staged := by
  refine ⟨rfl, ?_, FileTree.SameDirs.refl _, fun _ => rfl, by simp⟩
  rw [h.temporaries]
  exact List.reverse_perm _

/-- Everything that a commit can do. In the last case it works; in the others it fails, removes
the temporary files and puts back the drafts that were moved, and then removes directories. -/
theorem commit_cases (hk : Kept d drafts I) (h : I d [] [] []) :
    (∃ path tried staged folders c, I c tried staged folders ∧ (commit drafts).run d =
      (.error (.stage path), ((removeFolders folders.reverse).run { c with temporaries := [] }).2)) ∨
    ∃ outcomes written staged folders c, Ready d drafts I outcomes written staged folders c ∧
      ((∃ before s after e, staged = before ++ s :: after ∧ Moved c e before.reverse [] ∧
        e.writeFile? s.path s.temporary.content = none ∧ ∃ restored, (commit drafts).run d =
          (.error (.persist s.path restored),
            ((removeFolders folders.reverse).run ((rollBack before.reverse).run e).2).2)) ∨
      ∃ d', Moved c d' staged.reverse [] ∧ (commit drafts).run d = (.ok outcomes, d')) := by
  obtain ⟨tried, ⟨outcomes, staged, folders⟩, failed, c, hrun, hp, hok⟩ :=
    @stageAll_run d d drafts I hk [] {} h
  simp only at hp hok
  have hstart := (hk.waiting hp).moved
  cases failed with
  | some path =>
    refine .inl ⟨path, tried, staged, folders, c, hp, ?_⟩
    simp [commit, hrun, run_unstageAll _ _ hstart.temporaries]
  | none =>
    obtain ⟨outcomes', written, staged', ha, hw, ho, hst, ht⟩ := hok rfl
    simp only [List.nil_append] at ho hst ht
    subst ho hst ht
    refine .inr ⟨outcomes, written, staged, folders, c, ⟨ha, hw, hp⟩, ?_⟩
    rcases persistAll_run hstart with ⟨d', hm, hmoved⟩ | ⟨before, s, after, e, hs, hm, hw', hrest⟩
    · exact .inr ⟨d', by simpa using hmoved, by simp [commit, hrun, hm]⟩
    · rw [List.append_nil] at hm hrest
      refine .inl ⟨before, s, after, e, hs, hm, hw', ((rollBack before.reverse).run e).1, ?_⟩
      simp [commit, hrun, hrest]

end Scaffold.Commit

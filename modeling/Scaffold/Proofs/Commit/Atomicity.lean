import Scaffold.Proofs.Commit.Preparing
import Scaffold.Proofs.Commit.Run

/-! A commit writes all drafts or none. If it fails, in whichever phase, the disk is what it was
before: the temporary files are gone, the drafts that were moved are put back, and the directories
that were made are removed. If it works, every draft was left alone or moved to its place. Main
statement: `commit_error_same`. -/

namespace Scaffold

open Commit

variable {d : Disk} {drafts : List Draft}

namespace Commit

/-- What a prepared draft remembers is what lies at its place when drafts are moved. -/
theorem Prepared.recalls_target {c : Disk} {tried folders : List Path}
    {staged : List (Staged Temporary)} (h : Prepared d c tried staged folders)
    {s : Staged Temporary} (hs : s ∈ staged) {l : Location} (hl : c.target? s.path = some l)
    (content : ByteArray) :
    c.tree.get? l = some (.file content) ↔ s.replaced = some content := by
  rw [h.sameFiles]
  exact h.recalls s hs c l h.here hl content

/-- Removing the directories that were made leads back to the first disk. -/
theorem Prepared.removeFolders {c e : Disk} {tried folders : List Path}
    {staged : List (Staged Temporary)} (quiet : d.temporaries = [])
    (h : Prepared d c tried staged folders) (hh : e.here = c.here) (ht : e.temporaries = [])
    (hg : ∀ l, e.tree.get? l = c.tree.get? l) :
    Disk.Same ((removeFolders folders.reverse).run e).2 d := by
  apply Between.same
  apply h.unmakes
  refine ⟨hh.trans h.here, ht.trans quiet.symm, fun l node hn => ?_, fun l node hn => ?_⟩
  · rw [hg]; exact h.le l node hn
  · rw [← hg]; exact hn

end Commit

/-- Everything that a commit can do: it fails and leaves the disk as it was, or it stages and moves
all drafts that it does not leave alone. -/
theorem commit_run (quiet : d.temporaries = []) (hc : ∀ f ∈ drafts, d.climbs f.path = true) :
    (∃ e d', (commit drafts).run d = (.error e, d') ∧ Disk.Same d' d) ∨
    ∃ outcomes written staged folders c d', (commit drafts).run d = (.ok outcomes, d') ∧
      Ready d drafts (Prepared d) outcomes written staged folders c ∧
      Moved c d' staged.reverse [] := by
  rcases commit_cases (kept_prepared quiet hc) (prepared_nil quiet) with
    ⟨path, tried, staged, folders, c, hp, hrun⟩ |
    ⟨outcomes, written, staged, folders, c, hr, ⟨before, s, after, e, hs, hm, -, _, hrun⟩ |
      ⟨d', hm, hrun⟩⟩
  · exact .inl ⟨_, _, hrun, hp.removeFolders quiet rfl rfl fun _ => rfl⟩
  · have hback := rollBack_restores hm.restoring fun s' hs' =>
      ⟨hm.targets s' hs', fun l hl => hr.kept.recalls_target (by
        rw [hs]
        exact List.mem_append_left _ (by simpa using hs')) hl⟩
    exact .inl ⟨_, _, hrun, hr.kept.removeFolders quiet hback.here hback.temporaries fun l =>
      (hback.get? l).resolve_right (by simp)⟩
  · exact .inr ⟨outcomes, written, staged, folders, c, d', hrun, hr, hm⟩

/-- A commit that fails leaves the disk as it was, if each `..` in the path of a draft stands in a
directory that was there before. -/
theorem commit_error_same (t : FileTree) (here : Location) {drafts : List Draft}
    (hc : ∀ f ∈ drafts, (t.disk here).climbs f.path = true) {e : CommitError}
    (h : ((commit drafts).run (t.disk here)).1 = .error e) :
    Disk.Same ((commit drafts).run (t.disk here)).2 (t.disk here) := by
  rcases commit_run (d := t.disk here) rfl hc with ⟨e', d', hrun, hs⟩ | ⟨_, _, _, _, _, _, hrun, -⟩
  · rw [hrun]; exact hs
  · rw [hrun] at h; cases h

/-- A tree with a file, an empty directory, and a directory that is not empty. -/
def blockedTree : FileTree :=
  .ofEntries [(["first".toList], .file (Text.encode "before")), (["empty".toList], .dir),
    (["blocked".toList], .dir), (["blocked".toList, "child".toList], .dir)] (by decide)

/-- Drafts of which the last one cannot be moved to its place. Two of them go to one file, two
need new directories. -/
def blockedDrafts : List Draft :=
  [⟨"Sources/App/User.swift", "model", .always⟩, ⟨"first", "after", .always⟩,
    ⟨"empty/../Sources/x", "x", .ifMissing⟩, ⟨"./first", "again", .always⟩,
    ⟨"blocked", "content", .always⟩]

theorem commit_blockedDrafts_same :
    (∀ f ∈ blockedDrafts, (blockedTree.disk []).climbs f.path = true) ∧
    ((commit blockedDrafts).run (blockedTree.disk [])).1 = .error (.persist "blocked"
      ["./first", "empty/../Sources/x", "first", "Sources/App/User.swift"]) ∧
    Disk.Same ((commit blockedDrafts).run (blockedTree.disk [])).2 (blockedTree.disk []) :=
  ⟨by decide, rfl, commit_error_same blockedTree [] (by decide) rfl⟩

end Scaffold

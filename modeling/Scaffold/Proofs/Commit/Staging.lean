import Mathlib.Data.List.TakeWhile
import Scaffold.Disk.Commit
import Scaffold.Proofs.Disk.Change

/-! The first phase of a commit. Staging changes no file: it adds directories, and a temporary file
for each draft that is not left alone. Whatever staging one draft keeps is kept by the whole
phase. Main statement: `stageAll_run`, by induction over the drafts. -/

namespace Scaffold

/-- The content of a file. -/
def Node.content? : Node → Option ByteArray
  | .dir => none
  | .file content => some content

theorem Node.content?_eq_some_iff {n : Node} {content : ByteArray} :
    n.content? = some content ↔ n = .file content := by
  cases n <;> simp [content?]

namespace Commit

variable {d c c' : Disk} {p q : Path} {staged : List (Staged Temporary)} {missing : List Path}

/-! ### Missing directories -/

/-- Of paths that lie above each other, nearest first, those before the first that exists, outermost
first. -/
def missingAbove (c : Disk) (above : List Path) : List Path :=
  (above.takeWhile fun q => q.text ≠ [] ∧ c.kind? q = none).reverse

theorem run_missingBelow (found above : List Path) (c : Disk) :
    (missingBelow found above).run c = (missingAbove c above ++ found, c) := by
  induction above generalizing found with
  | nil => rfl
  | cons q above ih =>
    unfold missingBelow
    by_cases he : q.text = []
    · simp [missingAbove, he]
    · cases hk : c.kind? q with
      | some k => simp [missingAbove, he, hk]
      | none => simpa [missingAbove, he, hk] using ih (q :: found)

theorem of_mem_missingAbove {above : List Path} (h : q ∈ missingAbove c above) :
    q ∈ above ∧ q.text ≠ [] ∧ c.kind? q = none := by
  have hm := List.mem_reverse.1 h
  exact ⟨(List.takeWhile_prefix _).subset hm, by simpa using List.mem_takeWhile_imp hm⟩

theorem grown_makeDir (c : Disk) (q : Path) : c.Grown (c.attempt (c.makeDir? q)).2 := by
  cases hm : c.makeDir? q with
  | none => exact .refl c
  | some c' =>
    obtain ⟨l, tree, -, ht, rfl⟩ := Disk.of_makeDir? hm
    refine ⟨rfl, FileTree.le_of_makeDir? ht, fun k node hk => ?_⟩
    simp only [Disk.attempt_some, Disk.withTree_tree] at hk
    rw [FileTree.get?_of_makeDir? ht] at hk
    split at hk
    · next hkl =>
      cases hk
      exact .inr ⟨rfl, hkl ▸ (FileTree.of_makeDir? ht).2.1⟩
    · exact .inl hk

theorem temporaries_makeDir (c : Disk) (q : Path) :
    (c.attempt (c.makeDir? q)).2.temporaries = c.temporaries := by
  cases hm : c.makeDir? q with
  | none => rfl
  | some c' =>
    obtain ⟨-, -, -, -, rfl⟩ := Disk.of_makeDir? hm
    rfl

theorem grown_makeFolders (c : Disk) (folders : List Path) :
    c.Grown ((makeFolders folders).run c).2 ∧
      ((makeFolders folders).run c).2.temporaries = c.temporaries := by
  induction folders generalizing c with
  | nil => exact ⟨.refl c, rfl⟩
  | cons q qs ih =>
    obtain ⟨hg, ht⟩ := ih (c.attempt (c.makeDir? q)).2
    simp only [makeFolders, Script.run_bind, Script.run_makeDir]
    exact ⟨(grown_makeDir c q).trans hg, ht.trans (temporaries_makeDir c q)⟩

/-! ### One draft -/

/-- The staged form of a draft: where it goes, and the content that it is given there. -/
def StagedAs (f : Draft) (s : Staged Temporary) : Prop :=
  s.path = f.path ∧ s.temporary.content = Text.encode f.content

theorem paths_eq_of_stagedAs {written : List Draft} {staged : List (Staged Temporary)}
    (h : List.Forall₂ StagedAs written staged) :
    staged.map (·.path) = written.map (·.path) := by
  induction h with
  | nil => rfl
  | cons hs _ ih => rw [List.map_cons, List.map_cons, hs.1, ih]

theorem run_contentAt (p : Path) (c : Disk) :
    (contentAt p).run c = (some ((c.node? p).bind Node.content?), c) := by
  rcases hn : c.node? p with _ | _ | content
  · simp [contentAt, Disk.kind?, hn]
  · simp [contentAt, Disk.kind?, hn, Node.kind, Node.content?]
  · obtain ⟨hl, hg⟩ := Disk.node?_eq_some_iff.1 hn
    have hr : c.read p = .ok content := by
      simp only [Disk.read, hl, bind, Except.bind, hg]
    simp [contentAt, Disk.kind?, hn, Node.kind, Node.content?, hr]

/-- The directories that are missing above a draft. -/
def missingFor (f : Draft) (c : Disk) : List Path :=
  missingAbove c (folderOf f.path).ancestors

/-- The disk on which a draft is staged: the directories that were missing above it have been made,
as far as possible. -/
def furnished (f : Draft) (c : Disk) : Disk :=
  ((makeFolders (missingFor f c)).run c).2

theorem grown_furnished (f : Draft) (c : Disk) :
    c.Grown (furnished f c) ∧ (furnished f c).temporaries = c.temporaries :=
  grown_makeFolders c _

/-- What staging a draft does: it makes missing directories, and then puts the draft into a
temporary file, if that is possible. -/
theorem run_stageDraft (f : Draft) (c : Disk) :
    (stageDraft f).run c =
      match (furnished f c).stage? (folderOf f.path) (Text.encode f.content) with
      | some (t, c') =>
        ((some ⟨f.path, t, (c.node? f.path).bind Node.content?⟩, missingFor f c), c')
      | none => ((none, missingFor f c), furnished f c) := by
  simp only [stageDraft, missingFolders, Script.run_bind, run_contentAt, run_missingBelow,
    List.append_nil, Script.run_isDir?]
  change Script.run (if ((furnished f c).kind? (folderOf f.path) == some .dir) = true then _ else _)
    (furnished f c) = _
  split_ifs with hdir
  · rw [Script.run_bind, Script.run_stage?]
    rcases (furnished f c).stage? (folderOf f.path) (Text.encode f.content) with _ | ⟨t, c'⟩ <;> rfl
  · -- a temporary file is made in a directory only
    cases hs : (furnished f c).stage? (folderOf f.path) (Text.encode f.content) with
    | none => rfl
    | some r =>
      obtain ⟨hn, -⟩ := (Disk.isSome_stage?_iff _).1 (by rw [hs]; rfl)
      exact absurd (Disk.kind?_eq_dir_iff.2 hn) (by simpa using hdir)

/-- A disk while drafts are staged: directories have been added, and the staged drafts wait in
temporary files. -/
structure Waiting (d c : Disk) (staged : List (Staged Temporary)) : Prop extends d.Grown c where
  temporaries : c.temporaries = (staged.map (·.temporary)).reverse

theorem waiting_nil (quiet : d.temporaries = []) : Waiting d d [] :=
  ⟨.refl d, quiet⟩

theorem grown_stageDraft {f : Draft} {r : Option (Staged Temporary)}
    (hr : (stageDraft f).run c = ((r, missing), c')) : c.Grown c' := by
  obtain ⟨hg, -⟩ := grown_furnished f c
  rw [run_stageDraft] at hr
  split at hr <;> cases hr
  next hs =>
    obtain ⟨-, -, -, -, rfl⟩ := Disk.of_stage? hs
    exact ⟨hg.here, hg.le, hg.new⟩
  next => exact hg

/-- What staging one draft does, whether it works or not. -/
theorem Waiting.stageDraft (h : Waiting d c staged) {f : Draft} {r : Option (Staged Temporary)}
    (hr : (stageDraft f).run c = ((r, missing), c')) :
    Waiting d c' (staged ++ r.toList) ∧ ∀ s, r = some s → StagedAs f s := by
  have hd := h.toGrown.trans (grown_stageDraft hr)
  obtain ⟨-, ht⟩ := grown_furnished f c
  rw [run_stageDraft] at hr
  split at hr <;> cases hr
  next t hs =>
    obtain ⟨l, -, -, rfl, rfl⟩ := Disk.of_stage? hs
    refine ⟨⟨hd, by simp [ht, h.temporaries]⟩, ?_⟩
    rintro s hs
    cases hs
    exact ⟨rfl, rfl⟩
  next => exact ⟨⟨hd, by simp [ht, h.temporaries]⟩, by simp⟩

/-! ### All drafts -/

/-- What became of drafts, in order, when the first of them was reached on the given disk: each was
left alone, because it must not overwrite what was found at its path, or is among those to be
written, for which directories were added to the disk. -/
inductive Accounts : Disk → List Draft → List (Path × Outcome) → List Draft → Prop
  | nil {c : Disk} : Accounts c [] [] []
  | skipped {c : Disk} {f : Draft} {fs outcomes written} (rule : f.overwrite = .ifMissing)
      (found : (c.kind? f.path).isSome = true) : Accounts c fs outcomes written →
        Accounts c (f :: fs) ((f.path, .skipped) :: outcomes) written
  | written {c c' : Disk} {f : Draft} {fs outcomes written}
      (rule : f.overwrite = .ifMissing → c.kind? f.path = none) (grown : c.Grown c') :
      Accounts c' fs outcomes written →
        Accounts c (f :: fs) ((f.path, .written) :: outcomes) (f :: written)

theorem Accounts.sublist {drafts written : List Draft} {outcomes : List (Path × Outcome)}
    (h : Accounts c drafts outcomes written) : written.Sublist drafts := by
  induction h with
  | nil => exact List.Sublist.refl _
  | skipped _ _ _ ih => exact ih.cons _
  | written _ _ _ ih => exact ih.cons_cons _

theorem run_stageAll_cons (p : Progress Temporary) (f : Draft) (fs : List Draft) (c : Disk) :
    (stageAll p (f :: fs)).run c =
      if f.overwrite = .ifMissing ∧ (c.kind? f.path).isSome then
        (stageAll { p with outcomes := p.outcomes ++ [(f.path, .skipped)] } fs).run c
      else match (stageDraft f).run c with
        | ((some s, missing), c') => (stageAll ⟨p.outcomes ++ [(f.path, .written)], p.staged ++ [s],
            p.folders ++ missing⟩ fs).run c'
        | ((none, missing), c') =>
            (({ p with folders := p.folders ++ missing }, some f.path), c') := by
  rcases hd : (stageDraft f).run c with ⟨⟨_ | s, missing⟩, c'⟩ <;>
    by_cases ho : f.overwrite = .ifMissing <;> by_cases hk : (c.kind? f.path).isSome = true <;>
    simp [stageAll, ho, hk, hd]

/-- Something that is kept while the given drafts are staged. It speaks of the disk, the paths for
which staging was tried, the staged drafts and the directories that were missing. -/
structure Kept (d : Disk) (drafts : List Draft)
    (I : Disk → List Path → List (Staged Temporary) → List Path → Prop) : Prop where
  waiting : ∀ {c tried staged folders}, I c tried staged folders → Waiting d c staged
  step : ∀ {f c c' tried staged folders r missing}, f ∈ drafts → I c tried staged folders →
    (stageDraft f).run c = ((r, missing), c') →
      I c' (tried ++ [f.path]) (staged ++ r.toList) (folders ++ missing)

/-- Staging leaves drafts waiting, whatever they are. -/
theorem kept_waiting (d : Disk) (drafts : List Draft) :
    Kept d drafts fun c _ staged _ => Waiting d c staged :=
  ⟨id, fun _ h hr => (h.stageDraft hr).1⟩

theorem Kept.tail {f : Draft} {fs : List Draft}
    {I : Disk → List Path → List (Staged Temporary) → List Path → Prop} (h : Kept d (f :: fs) I) :
    Kept d fs I :=
  ⟨h.waiting, fun hf => h.step (List.mem_cons_of_mem _ hf)⟩

/-- The first phase of a commit, whether it ends with a failure or not. -/
theorem stageAll_run {drafts : List Draft}
    {I : Disk → List Path → List (Staged Temporary) → List Path → Prop} (hk : Kept d drafts I)
    {tried : List Path} {p : Progress Temporary} (h : I c tried p.staged p.folders) :
    ∃ tried' p' failed c', (stageAll p drafts).run c = ((p', failed), c') ∧
      I c' tried' p'.staged p'.folders ∧
      (failed = none → ∃ outcomes written staged, Accounts c drafts outcomes written ∧
        List.Forall₂ StagedAs written staged ∧ p'.outcomes = p.outcomes ++ outcomes ∧
        p'.staged = p.staged ++ staged ∧ tried' = tried ++ written.map (·.path)) := by
  induction drafts generalizing c tried p with
  | nil =>
    exact ⟨tried, p, none, c, rfl, h, fun _ => ⟨[], [], [], .nil, .nil, by simp, by simp, by simp⟩⟩
  | cons f fs ih =>
    rw [run_stageAll_cons]
    split_ifs with hkept
    · obtain ⟨tried', p', failed, c', hrun, hp, hok⟩ :=
        @ih c hk.tail tried { p with outcomes := p.outcomes ++ [(f.path, .skipped)] } h
      refine ⟨tried', p', failed, c', hrun, hp, fun hn => ?_⟩
      obtain ⟨outcomes, written, staged, ha, hw, ho, hs, ht⟩ := hok hn
      exact ⟨_, written, staged, .skipped hkept.1 hkept.2 ha, hw, by simp [ho], hs, ht⟩
    · have hwait := hk.waiting h
      rcases hd : (stageDraft f).run c with ⟨⟨_ | s, missing⟩, c₁⟩
      · have hstep := hk.step List.mem_cons_self h hd
        exact ⟨_, _, _, _, rfl, by simpa using hstep, by simp⟩
      · have hstep := hk.step List.mem_cons_self h hd
        have hs := (hwait.stageDraft hd).2 s rfl
        have hrule : f.overwrite = .ifMissing → c.kind? f.path = none := by
          intro ho
          simpa [ho] using hkept
        obtain ⟨tried', p', failed, c', hrun, hp, hok⟩ := @ih c₁ hk.tail (tried ++ [f.path])
          ⟨p.outcomes ++ [(f.path, .written)], p.staged ++ [s], p.folders ++ missing⟩ hstep
        refine ⟨tried', p', failed, c', hrun, hp, fun hn => ?_⟩
        obtain ⟨outcomes, written, staged, ha, hw, ho, hst, ht⟩ := hok hn
        exact ⟨_, f :: written, s :: staged, .written hrule (grown_stageDraft hd) ha, .cons hs hw,
          by simp [ho], by simp [hst], by simp [ht]⟩

end Commit
end Scaffold

import Mathlib.Data.List.Infix
import Mathlib.Data.List.Nodup
import Scaffold.Proofs.Commit.Housing

/-! What comes of a commit, told from the disk before it. A draft that cannot be staged decides,
even if it stands behind drafts that cannot be moved; otherwise the first draft that cannot be moved
does, and all drafts before it are put back. Directories that are made for one draft may be in the
way of another. Main statement: `commit_outcome`, for plain paths. -/

namespace Scaffold

namespace Commit

variable {d c e : Disk} {drafts earlier written : List Draft} {f : Draft}
  {tried folders : List Path} {staged : List (Staged Temporary)}

/-! ### Drafts that fail -/

instance (t : FileTree) (l : Location) : Decidable (∃ content, t.get? l = some (.file content)) :=
  match t.get? l with
  | some (.file content) => isTrue ⟨content, rfl⟩
  | some .dir => isFalse (by simp)
  | none => isFalse (by simp)

instance (d : Disk) (f : Draft) : Decidable (Blocked d f) :=
  haveI : Decidable (∃ l, Above d l f.path ∧ ∃ content, d.tree.get? l = some (.file content)) :=
    decidable_of_iff (∃ l ∈ (d.place f.path).inits,
      Above d l f.path ∧ ∃ content, d.tree.get? l = some (.file content))
      ⟨fun ⟨l, _, h⟩ => ⟨l, h⟩, fun ⟨l, h⟩ => ⟨l, (List.mem_inits _ _).2 h.1.1, h⟩⟩
  inferInstanceAs (Decidable (_ ∨ _ ∨ _))

/-- A staged draft cannot be moved to its place: a directory is there, or one is made there for
another draft, or the path cannot be followed. -/
def Barred (d : Disk) (written : List Draft) (f : Draft) : Prop :=
  d.tree.get? (d.place f.path) = some .dir ∨
    (∃ g ∈ written, Above d (d.place f.path) g.path) ∨ ¬ Followable f.path

instance (d : Disk) (written : List Draft) (f : Draft) : Decidable (Barred d written f) :=
  inferInstanceAs (Decidable (_ ∨ _ ∨ _))

/-- The drafts before the first one that cannot be moved. -/
def movedFirst (d : Disk) (written : List Draft) : List Draft :=
  written.takeWhile fun f => ¬ Barred d written f

/-- What comes of a commit. -/
def outcome (d : Disk) (drafts : List Draft) : Except CommitError (List (Path × Outcome)) :=
  let written := writtenAfter d [] drafts
  match written.find? fun f => Blocked d f with
  | some f => .error (.stage f.path)
  | none =>
    match written.find? fun f => Barred d written f with
    | some f => .error (.persist f.path ((movedFirst d written).map (·.path)).reverse)
    | none => .ok ((verdicts d [] drafts).map fun v => (v.1.path, v.2))

/-! ### Staging -/

theorem plain_of_stagedAs (hs : List.Forall₂ StagedAs written staged)
    (hp : ∀ f ∈ written, f.path.Plain) : ∀ s ∈ staged, s.path.Plain := by
  intro s hm
  obtain ⟨f, hf, hpath, -⟩ := exists_of_mem_right hs hm
  rw [hpath]
  exact hp f hf

/-- Staging fails at the first draft that is blocked. -/
theorem failed_of_stageAll (quiet : d.temporaries = []) (hhere : d.tree.get? d.here = some .dir)
    (hp : ∀ f ∈ drafts, f.path.Plain) (he : ∀ f ∈ earlier, f.path.Plain)
    {p q : Progress Temporary} {failed : Option Path}
    (h : Housed d c (earlier.map (·.path)) p.staged p.folders)
    (hs : List.Forall₂ StagedAs earlier p.staged)
    (hrun : (stageAll p drafts).run c = ((q, failed), e)) :
    failed = ((writtenAfter d earlier drafts).find? fun f => Blocked d f).map (·.path) := by
  -- The disk and the drafts before are general; what is blocked is told from `d` throughout.
  induction drafts generalizing c p earlier with
  | nil =>
    cases hrun
    rfl
  | cons f fs ih =>
    have hf := hp f List.mem_cons_self
    have hfs : ∀ g ∈ fs, g.path.Plain := fun g hg => hp g (List.mem_cons_of_mem _ hg)
    have hreached := h.reached hs fun s hm => (plain_of_stagedAs hs he s hm).endsInName
    have hfound := hreached.isSome_kind?_iff (Disk.climbs_of_plain hf d)
    have hstaged := isSome_stageDraft_iff hreached hf hhere
    rw [run_stageAll_cons] at hrun
    simp only [hfound] at hrun
    split_ifs at hrun with hkept
    · rw [(verdicts_skipped hkept fs).2]
      exact ih hfs he (p := { p with outcomes := p.outcomes ++ [(f.path, .skipped)] }) h hs hrun
    · rw [(verdicts_written hkept fs).2]
      rcases hd : (stageDraft f).run c with ⟨⟨_ | s, missing⟩, c₁⟩ <;> rw [hd] at hrun hstaged
      · have hb : Blocked d f := by simpa using hstaged
        cases hrun
        simp [hb]
      · have hb : ¬ Blocked d f := hstaged.1 rfl
        have hkeeps : Kept d [f] (Housed d) :=
          kept_housed quiet (by simp [Disk.climbs_of_plain hf d])
        have hstep := hkeeps.step List.mem_cons_self h hd
        have hsf := (hkeeps.waiting h).stageDraft hd
        rw [List.find?_cons_of_neg (by simpa using hb)]
        refine ih hfs (fun g hg => ?_) (by simpa using hstep)
          (List.rel_append hs (.cons (hsf.2 s rfl) .nil)) hrun
        rcases List.mem_append.1 hg with hg | hg
        · exact he g hg
        · obtain rfl : g = f := List.mem_singleton.1 hg
          exact hf

/-! ### Moving -/

/-- A staged draft can be moved exactly if it is not barred. -/
theorem movable_iff (hr : Reached d c written) (hb : ∀ g ∈ written, ¬ Blocked d g)
    (hp : f.path.Plain) (hfolder : c.node? (folderOf f.path) = some .dir) :
    (∃ l, c.target? f.path = some l ∧ c.tree.get? l ≠ some .dir) ↔ ¬ Barred d written f := by
  have hplace : c.place f.path = d.place f.path := Disk.place_eq_of_here hr.here _
  -- What staging has added are the directories above the drafts, and no draft is blocked by a file.
  have hdir : c.tree.get? (d.place f.path) = some .dir ↔
      d.tree.get? (d.place f.path) = some .dir ∨
        ∃ g ∈ written, Above d (d.place f.path) g.path := by
    rw [hr.get?, withFolders]
    split
    · next hnew => exact iff_of_true rfl (.inr hnew.2)
    · next hold =>
      refine ⟨.inl, ?_⟩
      rintro (hd | ⟨g, hg, hab⟩)
      · exact hd
      · rcases hn : d.tree.get? (d.place f.path) with _ | _ | content
        · exact absurd ⟨hn, g, hg, hab⟩ hold
        · rfl
        · exact absurd (.inl ⟨_, hab, content, hn⟩) (hb g hg)
  rw [Barred, ← or_assoc, ← hdir, not_or, not_not]
  constructor
  · rintro ⟨l, ht, hnd⟩
    obtain ⟨⟨hf, he, hlead⟩, rfl⟩ := Disk.locate_eq_ok_iff.1 (Disk.target?_eq_some_iff.1 ht).2
    rw [hplace] at hnd
    exact ⟨hnd, hf, he, hlead.isFileName⟩
  · rintro ⟨hnd, hf, -, hlen⟩
    have hparent := (Disk.node?_eq_some_iff.1 hfolder).2
    rw [place_folderOf hp.endsInName, Disk.place_of_plain hp,
      List.dropLast_append_of_ne_nil f.path.segments_ne_nil] at hparent
    have hloc := Disk.locate_of_plain hp hf hlen hparent
    exact ⟨_, Disk.target?_eq_some_iff.2 ⟨hp.endsInName, hloc⟩, by rwa [hplace]⟩

/-- Drafts with different plain paths go to different places. -/
theorem pairwise_target? {moved : List (Staged Temporary)} (hp : ∀ s ∈ moved, s.path.Plain)
    (hn : (moved.map (·.path)).Nodup) (ht : ∀ s ∈ moved, ∃ l, c.target? s.path = some l) :
    moved.Pairwise fun s s' => c.target? s.path ≠ c.target? s'.path := by
  rw [List.Nodup, List.pairwise_map] at hn
  refine hn.imp_of_mem fun {s s'} hs hs' hne he => hne ?_
  obtain ⟨l, hl⟩ := ht s hs
  have hl' := hl
  rw [he] at hl'
  apply Disk.eq_of_place_eq (d := c) (hp s hs) (hp s' hs')
  rw [← Disk.eq_place_of_target? hl, ← Disk.eq_place_of_target? hl']

/-- Moving stops at the first draft that is barred, and the drafts before it are put back; if there
is none, all drafts are moved. -/
theorem persistAll_eq (h : Housed d c tried staged folders) (hr : Reached d c written)
    (hs : List.Forall₂ StagedAs written staged) (hb : ∀ g ∈ written, ¬ Blocked d g)
    (hp : ∀ f ∈ written, f.path.Plain) (hn : (written.map (·.path)).Nodup) :
    ((persistAll [] staged).run c).1 = (written.find? fun f => Barred d written f).map fun f =>
      (f.path, ((movedFirst d written).map (·.path)).reverse) := by
  have hmovable : ∀ {f s}, f ∈ written → s ∈ staged → StagedAs f s →
      ((∃ l, c.target? s.path = some l ∧ c.tree.get? l ≠ some .dir) ↔ ¬ Barred d written f) := by
    intro f s hf hm hsf
    have hfolder := h.housed s hm
    rw [hsf.1] at hfolder ⊢
    exact movable_iff hr hb (hp f hf) hfolder
  rcases persistAll_run h.toWaiting.moved with
    ⟨e, hm, hmoved⟩ | ⟨before, s, after, e, rfl, hmoved, hw, hm⟩
  · rw [hm, List.find?_eq_none.2, Option.map_none]
    intro f hf
    obtain ⟨s, hsm, hsf⟩ := exists_of_mem_left hs hf
    have hfree := (hmovable hf hsm hsf).1 (hmoved.targets s (by simpa using hsm))
    simpa using hfree
  · rw [List.append_nil] at hmoved hm
    obtain ⟨first, f, rest, rfl, hfirst, hsf⟩ := exists_of_forall₂_append hs
    have hbar : Barred d (first ++ f :: rest) f := by
      by_contra hfree
      obtain ⟨l, hl, hnd⟩ := (hmovable (by simp) (by simp) hsf).2 hfree
      rw [← target?_eq_of_sameDirs hmoved.here hmoved.dirs] at hl
      rw [ne_eq, hmoved.dirs] at hnd
      obtain ⟨e', he'⟩ := Disk.exists_writeFile? hl hnd s.temporary.content
      rw [hw] at he'
      cases he'
    have hfree : ∀ g ∈ first, ¬ Barred d (first ++ f :: rest) g := by
      intro g hg
      obtain ⟨s', hsm, hsg⟩ := exists_of_mem_left hfirst hg
      exact (hmovable (List.mem_append_left _ hg) (List.mem_append_left _ hsm) hsg).1
        (hmoved.targets s' (by simpa using hsm))
    have hplain := plain_of_stagedAs hfirst fun g hg => hp g (List.mem_append_left _ hg)
    have hpaths := paths_eq_of_stagedAs hfirst
    have hnodup : (before.reverse.map (·.path)).Nodup := by
      rw [List.map_append] at hn
      rw [List.map_reverse, List.nodup_reverse, hpaths]
      exact hn.of_append_left
    have hback := paths_of_rollBack hmoved
      (pairwise_target? (fun s' hs' => hplain s' (by simpa using hs')) hnodup
        fun s' hs' => (hmoved.targets s' hs').imp fun _ h => h.1)
      fun s' hs' l hl => h.toPrepared.recalls_target
        (List.mem_append_left _ (by simpa using hs')) hl
    rw [hm, hback, List.map_reverse, hpaths, hsf.1,
      List.find?_append, List.find?_eq_none.2 (by simpa using hfree), movedFirst,
      List.takeWhile_append_of_pos (by simpa using hfree)]
    simp [hbar]

end Commit

open Commit

/-- What comes of a commit of drafts with different plain paths is told from the disk before it. -/
theorem commit_outcome (t : FileTree) (here : Location) (hhere : t.get? here = some .dir)
    {drafts : List Draft} (hp : ∀ f ∈ drafts, f.path.Plain) (hn : (drafts.map (·.path)).Nodup) :
    ((commit drafts).run (t.disk here)).1 = outcome (t.disk here) drafts := by
  have quiet : (t.disk here).temporaries = [] := rfl
  have hhere' : (t.disk here).tree.get? (t.disk here).here = some .dir := hhere
  generalize t.disk here = d at *
  have hc : ∀ f ∈ drafts, d.climbs f.path = true := fun f hf => Disk.climbs_of_plain (hp f hf) d
  obtain ⟨tried, p, failed, c, hrun, hh, hok⟩ :=
    @stageAll_run d d drafts _ (kept_housed quiet hc) [] {} (housed_nil quiet)
  have hfailed := failed_of_stageAll quiet hhere' hp (by simp) (housed_nil quiet) .nil hrun
  cases failed with
  | some path =>
    obtain ⟨f, hfind, rfl⟩ := Option.map_eq_some_iff.1 hfailed.symm
    simp [commit, hrun, outcome, hfind]
  | none =>
    have hfind := Option.map_eq_none_iff.1 hfailed.symm
    obtain ⟨_, written, staged, ha, hst, -, hstaged, -⟩ := hok rfl
    rw [List.nil_append] at hstaged
    have hplain := plain_of_stagedAs hst fun f hf => hp f (ha.sublist.subset hf)
    rw [← hstaged] at hplain
    have hends : ∀ s ∈ p.staged, s.path.EndsInName := fun s hs => (hplain s hs).endsInName
    obtain ⟨ho, hs, hhoused⟩ :=
      verdicts_of_stageAll quiet hc (housed_nil quiet) .nil hrun hends
    simp only [List.nil_append] at ho hs hhoused
    have hsub := writtenAfter_sublist d [] drafts
    have hmove := persistAll_eq hhoused (hhoused.reached hs hends) hs
      (by simpa using hfind) (fun f hf => hp f (hsub.subset hf)) (hn.sublist (hsub.map _))
    rcases hm : (persistAll [] p.staged).run c with ⟨result, e⟩
    rw [hm] at hmove
    cases hb : (writtenAfter d [] drafts).find? fun f => Barred d (writtenAfter d [] drafts) f with
    | none =>
      obtain rfl : result = none := by simpa [hb] using hmove
      simp [commit, hrun, hm, outcome, hfind, hb, ho]
    | some f =>
      obtain rfl : result = some (f.path, _) := by simpa [hb] using hmove
      simp [commit, hrun, hm, outcome, hfind, hb]

/-- Drafts of which one goes where a directory is made for another one. -/
def folderDrafts : List Draft :=
  [⟨"Sources/App/User.swift", "model", .always⟩, ⟨"first", "mine", .ifMissing⟩,
    ⟨"empty/x", "x", .ifMissing⟩, ⟨"Sources", "folder", .always⟩, ⟨"blocked", "content", .always⟩]

theorem commit_folderDrafts_outcome :
    blockedTree.get? [] = some .dir ∧ (∀ f ∈ folderDrafts, f.path.Plain) ∧
    (folderDrafts.map (·.path)).Nodup ∧
    ((commit folderDrafts).run (blockedTree.disk [])).1 =
      .error (.persist "Sources" ["empty/x", "Sources/App/User.swift"]) := by
  have hp : ∀ f ∈ folderDrafts, f.path.Plain := by decide
  have hn : (folderDrafts.map (·.path)).Nodup := by decide
  exact ⟨rfl, hp, hn, (commit_outcome blockedTree [] rfl hp hn).trans (by decide +kernel)⟩

/-- A draft whose name is too long for a file. -/
def longDraft : Draft := ⟨⟨List.replicate 256 'a'⟩, "x", .always⟩

/-- Where nothing is in the way, a draft still cannot be moved to a name that is too long. -/
theorem commit_longDraft_persist :
    longDraft.path.Plain ∧ (∀ l content, FileTree.empty.get? l ≠ some (.file content)) ∧
    FileTree.empty.get? ((FileTree.empty.disk []).place longDraft.path) = none ∧
    ((commit [longDraft]).run (FileTree.empty.disk [])).1 =
      .error (.persist longDraft.path []) := by
  refine ⟨by decide +kernel, fun l content => ?_, by decide +kernel, by decide +kernel⟩
  simp only [FileTree.get?, FileTree.empty, Node.find]
  split <;> simp

end Scaffold

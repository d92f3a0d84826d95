import Scaffold.Proofs.Commit.Verdicts
import Scaffold.Proofs.Disk.Plain

/-! Whether a draft with a plain path can be staged. The directory that it belongs in is made, one
name after the other, unless a file is in the way or a name is too long; then it can only be that
the path of the temporary file is too long. So it is told from the disk before the commit which
drafts can be staged: `isSome_stageDraft_iff`. -/

open Scaffold.Location Scaffold.Path

namespace Scaffold.Commit

variable {d c c' : Disk} {p : Path} {names : List Text} {earlier : List Draft} {f : Draft}

/-! ### Making the directories of a path -/

theorem run_makeFolders_append (qs rs : List Path) (c : Disk) :
    ((makeFolders (qs ++ rs)).run c).2 = ((makeFolders rs).run ((makeFolders qs).run c).2).2 := by
  induction qs generalizing c with
  | nil => rfl
  | cons q qs ih => simp [makeFolders, ih]

/-- Nothing but directories lies on the way to a location. -/
def Open (c : Disk) (l : Location) : Prop :=
  ∀ k, k <+: l → ∀ content, c.tree.get? k ≠ some (.file content)

/-- When a directory is made in a directory, it is there afterwards. -/
theorem get?_makeDir (hp : p.Plain) (hf : p.isFollowable = true)
    (hlen : ∀ s ∈ p.segments, s.isFileName = true)
    (hd : c.tree.get? (c.here ++ p.segments.dropLast) = some .dir)
    (hopen : ∀ content, c.tree.get? (c.place p) ≠ some (.file content)) :
    (c.attempt (c.makeDir? p)).2.tree.get? (c.place p) = some .dir := by
  rcases hg : c.tree.get? (c.place p) with _ | _ | content
  · have ht : c.target? p = some (c.place p) :=
      Disk.target?_eq_some_iff.2 ⟨hp.endsInName, Disk.locate_of_plain hp hf hlen hd⟩
    obtain ⟨hne, hparent⟩ := Disk.get?_dropLast_of_target? ht
    obtain ⟨tree, hmake⟩ : ∃ tree, c.tree.makeDir? (c.place p) = some tree :=
      ⟨_, dif_pos ⟨hne, hg, hparent⟩⟩
    have hmade : c.makeDir? p = some (c.withTree tree) := by simp [Disk.makeDir?, ht, hmake]
    rw [hmade, Disk.attempt_some, Disk.withTree_tree, FileTree.get?_of_makeDir? hmake, if_pos rfl]
  · exact (grown_makeDir c p).le _ _ hg
  · exact absurd hg (hopen content)

/-- The directories of names are made, from the outermost one on; the induction goes over the
names. -/
theorem get?_makeFolders (hs : ∀ s ∈ names, '/' ∉ s) (hn : ∀ s ∈ names, IsName s)
    (hlen : ∀ s ∈ names, s.isFileName = true) (hf : (ofNames names).isFollowable = true)
    (hhere : c.tree.get? c.here = some .dir) (hopen : Open c (c.here ++ names)) :
    ((makeFolders (missingAbove c (ofNames names :: ancestorsOf [] names.reverse))).run
      c).2.tree.get? (c.here ++ names) = some .dir := by
  induction names using List.reverseRecOn with
  | nil => simpa [missingAbove, ofNames, Text.join, makeFolders] using hhere
  | append_singleton names n ih =>
    have hinit : ∀ s ∈ names, s ∈ names ++ [n] := fun s hm => List.mem_append_left _ hm
    have hplain := plain_ofNames hs hn (by simp)
    have hseg := segments_ofNames hs (by simp)
    have hplace : ∀ e : Disk, e.here = c.here →
        e.place (ofNames (names ++ [n])) = c.here ++ (names ++ [n]) := fun e he => by
      rw [Disk.place_of_plain hplain, hseg, he]
    -- If the last directory is found, none is missing; otherwise it is made in the one before it.
    cases hk : c.kind? (ofNames (names ++ [n])) with
    | some k =>
      obtain ⟨node, hnode⟩ := Disk.isSome_kind?_iff.1 (by rw [hk]; rfl)
      have hget := (Disk.node?_eq_some_iff.1 hnode).2
      rw [hplace c rfl] at hget
      have hmissing : missingAbove c (ofNames (names ++ [n]) ::
          ancestorsOf [] (names ++ [n]).reverse) = [] := by simp [missingAbove, hk]
      rw [hmissing]
      cases node with
      | dir => exact hget
      | file content => exact absurd hget (hopen _ (List.prefix_refl _) content)
    | none =>
      have hmissing : missingAbove c (ofNames (names ++ [n]) ::
          ancestorsOf [] (names ++ [n]).reverse) =
            missingAbove c (ofNames names :: ancestorsOf [] names.reverse) ++
              [ofNames (names ++ [n])] := by
        rw [ancestorsOf_concat (fun s hm => hn s (hinit s hm)) (hn n (by simp))]
        simp [missingAbove, hk, hplain.ne_nil]
      have hdir := ih (fun s hm => hs s (hinit s hm)) (fun s hm => hn s (hinit s hm))
        (fun s hm => hlen s (hinit s hm)) (isFollowable_of_concat hf)
        (fun k hp => hopen k (hp.trans (by rw [← List.append_assoc]; exact List.prefix_append _ _)))
      rw [hmissing, run_makeFolders_append]
      obtain ⟨hgrown, -⟩ := grown_makeFolders c
        (missingAbove c (ofNames names :: ancestorsOf [] names.reverse))
      generalize ((makeFolders (missingAbove c (ofNames names ::
        ancestorsOf [] names.reverse))).run c).2 = e at hdir hgrown ⊢
      have hmade := get?_makeDir (c := e) hplain hf (by rwa [hseg])
        (by rw [hseg, List.dropLast_concat, hgrown.here]; exact hdir) (fun content hfile => by
          rw [hplace e hgrown.here] at hfile
          exact hopen _ (List.prefix_refl _) content ((hgrown.sameFiles _ _).1 hfile))
      rw [hplace e hgrown.here] at hmade
      simpa [makeFolders] using hmade

/-! ### Staging -/

theorem isSome_stageDraft (f : Draft) (c : Disk) :
    ((stageDraft f).run c).1.1.isSome = true ↔
      (furnished f c).node? (folderOf f.path) = some .dir ∧
        ((furnished f c).temporaryPath (folderOf f.path)).isFollowable = true := by
  rw [← Disk.isSome_stage?_iff (Text.encode f.content), run_stageDraft]
  rcases (furnished f c).stage? (folderOf f.path) (Text.encode f.content) with _ | ⟨t, c'⟩ <;>
    simp

/-- A draft cannot be staged: there is a file above its place, or a directory above it has a name
that no directory can have, or the path of its temporary file is too long. -/
def Blocked (d : Disk) (f : Draft) : Prop :=
  (∃ l, Above d l f.path ∧ ∃ content, d.tree.get? l = some (.file content)) ∨
    (∃ s ∈ f.path.segments.dropLast, s.isFileName = false) ∨
    (d.temporaryPath (folderOf f.path)).isFollowable = false

/-- The directory of a plain path is made of all its names but the last one. -/
theorem folderOf_plain (h : p.Plain) :
    folderOf p = if p.segments.dropLast = [] then ("." : Path)
      else ofNames p.segments.dropLast := by
  unfold folderOf
  rw [h.parent?]
  by_cases hd : p.segments.dropLast = []
  · simp [hd, ofNames, Text.join]
  · simp [hd, (h.dropLast hd).1.ne_nil]

/-- The directory of a draft is there on the disk on which the draft is staged, if nothing is in the
way. -/
theorem node?_furnished (hp : f.path.Plain) (hhere : c.tree.get? c.here = some .dir)
    (hopen : Open c (c.place f.path).dropLast)
    (hlen : ∀ s ∈ f.path.segments.dropLast, s.isFileName = true)
    (hf : (c.temporaryPath (folderOf f.path)).isFollowable = true) :
    (furnished f c).node? (folderOf f.path) = some .dir := by
  have hgrown := (grown_furnished f c).1
  unfold furnished missingFor at hgrown ⊢
  rw [folderOf_plain hp] at hf hgrown ⊢
  by_cases hd : f.path.segments.dropLast = []
  · rw [if_pos hd] at hgrown ⊢
    exact Disk.node?_of_le hgrown.here.symm hgrown.le (Disk.node?_dot hhere)
  · obtain ⟨hplain, hseg⟩ := hp.dropLast hd
    rw [if_neg hd] at hf hgrown ⊢
    have hfollow := Disk.isFollowable_of_temporaryPath hf hplain.front.2
    rw [Disk.place_of_plain hp, List.dropLast_append_of_ne_nil f.path.segments_ne_nil] at hopen
    have hdir := get?_makeFolders
      (fun s hs => f.path.slash_not_mem_segments s (List.dropLast_subset _ hs))
      (fun s hs => hp s (List.dropLast_subset _ hs)) hlen hfollow hhere hopen
    have hanc : (ofNames f.path.segments.dropLast).ancestors =
        ofNames f.path.segments.dropLast :: ancestorsOf [] f.path.segments.dropLast.reverse := by
      rw [ancestors, hplain.properAncestors, hseg]
    rw [hanc] at hgrown ⊢
    generalize ((makeFolders _).run c).2 = e at hdir hgrown ⊢
    rw [← hgrown.here] at hdir
    rw [Disk.node?_eq_some_iff, Disk.place_of_plain hplain, hseg]
    refine ⟨?_, hdir⟩
    have hloc := Disk.locate_of_plain (d := e) hplain hfollow (by rwa [hseg])
      (FileTree.get?_of_prefix hdir (by
        rw [hseg]
        exact (List.prefix_append_right_inj _).2 (List.dropLast_prefix _)))
    rwa [Disk.place_of_plain hplain, hseg] at hloc

theorem above_of_prefix_dropLast {k : Location} (h : k <+: (d.place p).dropLast)
    (hne : d.place p ≠ []) : Above d k p := by
  refine ⟨h.trans (List.dropLast_prefix _), fun he => ?_⟩
  have hlen := h.length_le
  have hpos := List.length_pos_of_ne_nil hne
  rw [he, List.length_dropLast] at hlen
  omega

/-- A draft with a plain path that is reached on a disk can be staged exactly if it is not
blocked. -/
theorem isSome_stageDraft_iff (hr : Reached d c earlier) (hp : f.path.Plain)
    (hhere : d.tree.get? d.here = some .dir) :
    ((stageDraft f).run c).1.1.isSome = true ↔ ¬ Blocked d f := by
  have hgrown := (grown_furnished f c).1
  have hh : (furnished f c).here = d.here := hgrown.here.trans hr.here
  rw [isSome_stageDraft, Disk.temporaryPath_eq_of_here hh]
  constructor
  · rintro ⟨hdir, hf⟩ (⟨l, ⟨hpre, hne⟩, content, hl⟩ | ⟨s, hs, hlen⟩ | hlong)
    · have hfolder := (Disk.node?_eq_some_iff.1 hdir).2
      rw [Disk.place_eq_of_here hh, place_folderOf hp.endsInName] at hfolder
      have hdir' := FileTree.get?_of_prefix hfolder (prefix_dropLast hpre hne)
      rw [FileTree.get?_of_le (hr.le.trans hgrown.le) hl] at hdir'
      cases hdir'
    · have hne : f.path.segments.dropLast ≠ [] := List.ne_nil_of_mem hs
      obtain ⟨⟨-, -, hlead⟩, -⟩ := Disk.locate_eq_ok_iff.1 (Disk.node?_eq_some_iff.1 hdir).1
      have hnames := hlead.isFileName
      rw [folderOf_plain hp, if_neg hne, (hp.dropLast hne).2] at hnames
      rw [hnames s hs] at hlen
      cases hlen
    · rw [hf] at hlong
      cases hlong
  · intro hb
    simp only [Blocked, not_or, not_exists, not_and, Bool.not_eq_false] at hb
    obtain ⟨hfree, hlen, hf⟩ := hb
    refine ⟨node?_furnished hp ?_ ?_ hlen ?_, hf⟩
    · rw [hr.here]
      exact FileTree.get?_of_le hr.le hhere
    · intro k hk content hfile
      rw [Disk.place_eq_of_here hr.here] at hk
      have hab : Above d k f.path := above_of_prefix_dropLast hk (by
        rw [Disk.place_of_plain hp]
        simp [f.path.segments_ne_nil])
      rw [hr.get?, withFolders] at hfile
      split at hfile
      · cases hfile
      · exact hfree k hab content hfile
    · rwa [Disk.temporaryPath_eq_of_here hr.here]

end Scaffold.Commit

import Scaffold.Proofs.Commit.Effect

/-! Which drafts are left alone, told from the disk before the commit. When a draft is reached, all
that is new are the missing directories above the drafts that were prepared before it; so its path
leads to something if it did before, or if it leads to one of these directories. Main statement:
`verdicts_of_stageAll`, by induction over the drafts. -/

namespace Scaffold

open Location

namespace Commit

instance (d : Disk) (l : Location) (p : Path) : Decidable (Above d l p) :=
  inferInstanceAs (Decidable (_ ∧ _))

/-- What lies at a location when the missing directories above drafts have been made. -/
def withFolders (d : Disk) (drafts : List Draft) (l : Location) : Option Node :=
  if d.tree.get? l = none ∧ ∃ f ∈ drafts, Above d l f.path then some .dir else d.tree.get? l

/-- A path that can be followed wherever its place is a directory: it is not empty, and neither the
path nor any part of it is too long. -/
def Followable (p : Path) : Prop :=
  p.isFollowable = true ∧ p.text ≠ [] ∧ ∀ s ∈ p.segments, s.isFileName = true

instance (p : Path) : Decidable (Followable p) :=
  inferInstanceAs (Decidable (_ ∧ _ ∧ _))

/-- Whether something is found at a path when the given drafts have been prepared: it was there
before, or it is a missing directory above one of them. -/
def Found (d : Disk) (earlier : List Draft) (p : Path) : Prop :=
  (d.kind? p).isSome = true ∨
    (Followable p ∧ d.tree.get? (d.place p) = none ∧ ∃ f ∈ earlier, Above d (d.place p) f.path)

instance (d : Disk) (earlier : List Draft) (p : Path) : Decidable (Found d earlier p) :=
  inferInstanceAs (Decidable (_ ∨ _))

/-- What becomes of drafts when those of `earlier` have been prepared: a draft that must not
overwrite is left alone if something is found at its path. -/
def verdicts (d : Disk) (earlier : List Draft) : List Draft → List (Draft × Outcome)
  | [] => []
  | f :: fs =>
    if f.overwrite = .ifMissing ∧ Found d earlier f.path then
      (f, .skipped) :: verdicts d earlier fs
    else (f, .written) :: verdicts d (earlier ++ [f]) fs

/-- The drafts that are not left alone. -/
def writtenAfter (d : Disk) (earlier drafts : List Draft) : List Draft :=
  ((verdicts d earlier drafts).filter fun v => v.2 = .written).map Prod.fst

theorem map_fst_verdicts (d : Disk) (earlier drafts : List Draft) :
    (verdicts d earlier drafts).map Prod.fst = drafts := by
  induction drafts generalizing earlier with
  | nil => rfl
  | cons f fs ih =>
    unfold verdicts
    split
    · rw [List.map_cons, ih]
    · rw [List.map_cons, ih]

theorem writtenAfter_sublist (d : Disk) (earlier drafts : List Draft) :
    (writtenAfter d earlier drafts).Sublist drafts := by
  conv_rhs => rw [← map_fst_verdicts d earlier drafts]
  exact List.filter_sublist.map _

variable {d c : Disk} {p : Path} {earlier : List Draft} {f : Draft}

theorem verdicts_skipped (h : f.overwrite = .ifMissing ∧ Found d earlier f.path) (fs : List Draft) :
    verdicts d earlier (f :: fs) = (f, .skipped) :: verdicts d earlier fs ∧
      writtenAfter d earlier (f :: fs) = writtenAfter d earlier fs := by
  have hv : verdicts d earlier (f :: fs) = (f, .skipped) :: verdicts d earlier fs := if_pos h
  exact ⟨hv, by simp [writtenAfter, hv]⟩

theorem verdicts_written (h : ¬(f.overwrite = .ifMissing ∧ Found d earlier f.path))
    (fs : List Draft) :
    verdicts d earlier (f :: fs) = (f, .written) :: verdicts d (earlier ++ [f]) fs ∧
      writtenAfter d earlier (f :: fs) = f :: writtenAfter d (earlier ++ [f]) fs := by
  have hv : verdicts d earlier (f :: fs) = (f, .written) :: verdicts d (earlier ++ [f]) fs :=
    if_neg h
  exact ⟨hv, by simp [writtenAfter, hv]⟩

/-! ### Disks on which drafts are reached -/

/-- The disk when drafts have been prepared: missing directories above them have been made. -/
structure Reached (d c : Disk) (earlier : List Draft) : Prop where
  here : c.here = d.here
  get? : ∀ l, c.tree.get? l = withFolders d earlier l

theorem Reached.le (h : Reached d c earlier) : d.tree ≤ c.tree := by
  intro l node hn
  rw [h.get?, withFolders, if_neg, hn]
  simp [hn]

/-- Whether something is found at a path that climbs safely is told from the first disk. -/
theorem Reached.isSome_kind?_iff (h : Reached d c earlier) (hc : d.climbs p = true) :
    (c.kind? p).isSome = true ↔ Found d earlier p := by
  have hplace : c.place p = d.place p := Disk.place_eq_of_here h.here p
  constructor
  · intro hk
    obtain ⟨node, hn⟩ := Disk.isSome_kind?_iff.1 hk
    obtain ⟨hl, hg⟩ := Disk.node?_eq_some_iff.1 hn
    rw [hplace] at hl hg
    rw [h.get?, withFolders] at hg
    split at hg
    · next hnew =>
      obtain ⟨⟨hf, he, hlead⟩, -⟩ := Disk.locate_eq_ok_iff.1 hl
      exact .inr ⟨⟨hf, he, hlead.isFileName⟩, hnew⟩
    · have hd := Disk.node?_eq_some_iff.2 ⟨Disk.locate_of_climbs hc h.here h.le hl hg, hg⟩
      exact .inl (Disk.isSome_kind?_iff.2 ⟨node, hd⟩)
  · rintro (hk | ⟨⟨hf, he, hnames⟩, hnew⟩)
    · obtain ⟨node, hn⟩ := Disk.isSome_kind?_iff.1 hk
      exact Disk.isSome_kind?_iff.2 ⟨node, Disk.node?_of_le h.here.symm h.le hn⟩
    · have hdir : c.tree.get? (c.place p) = some .dir := by
        rw [hplace, h.get?, withFolders, if_pos hnew]
      have hcc := Disk.climbs_of_dirs h.here.symm (fun _ => FileTree.get?_of_le h.le) hc
      have hlead := FileTree.leads_of_climbs hcc hnames hdir
      exact Disk.isSome_kind?_iff.2 ⟨.dir, Disk.node?_eq_some_iff.2
        ⟨Disk.locate_eq_ok_iff.2 ⟨⟨hf, he, hlead⟩, rfl⟩, hdir⟩⟩

/-! ### The directory of a draft -/

theorem folderOf_eq (h : p.steps ≠ []) :
    (folderOf p).steps = p.steps.dropLast ∧ (folderOf p).isAbsolute = p.isAbsolute := by
  obtain ⟨q, hq, hs, ha⟩ := Path.exists_parent h
  unfold folderOf
  rw [hq]
  dsimp only
  split
  · next he =>
    have htext : q.text = [] := by simpa using he
    obtain rfl : q = ⟨[]⟩ := congrArg Path.mk htext
    exact ⟨hs, ha⟩
  · exact ⟨hs, ha⟩

/-- The directory that a target belongs in lies directly above it. -/
theorem place_folderOf (h : p.EndsInName) : d.place (folderOf p) = (d.place p).dropLast := by
  obtain ⟨before, name, hs, hn⟩ := h
  have hsteps : p.steps = before.filter (fun s => !Path.isIdle s) ++ [name] := by
    simp [Path.steps, hs, hn.1]
  obtain ⟨hfolder, ha⟩ := folderOf_eq (p := p) (by simp [hsteps])
  have hstart : d.start (folderOf p) = d.start p := by rw [Disk.start, ha, Disk.start]
  rw [Disk.place_eq_steps, Disk.place_eq_steps, hfolder, hstart, hsteps, List.dropLast_concat,
    followAll_append, followAll_cons, followAll_nil, follow_name hn, List.dropLast_concat]

/-- A draft is only staged if the directory it belongs in is there. -/
theorem node?_folderOf_of_stageDraft {c' : Disk} {s : Staged Temporary} {missing : List Path}
    (hr : (stageDraft f).run c = ((some s, missing), c')) :
    c'.node? (folderOf f.path) = some .dir := by
  rw [run_stageDraft] at hr
  split at hr <;> cases hr
  next hs =>
    obtain ⟨hfolder, -⟩ := (Disk.isSome_stage?_iff _).1 (by rw [hs]; rfl)
    obtain ⟨-, -, -, -, rfl⟩ := Disk.of_stage? hs
    exact hfolder

/-! ### All drafts -/

/-- A disk while drafts are staged, on which every staged draft has its directory. -/
structure Housed (d c : Disk) (tried : List Path) (staged : List (Staged Temporary))
    (folders : List Path) : Prop extends Prepared d c tried staged folders where
  housed : ∀ s ∈ staged, c.node? (folderOf s.path) = some .dir

variable {tried folders : List Path} {staged : List (Staged Temporary)} {drafts : List Draft}

theorem housed_nil (quiet : d.temporaries = []) : Housed d d [] [] [] :=
  ⟨prepared_nil quiet, by simp⟩

theorem prefix_dropLast {α : Type} {l k : List α} (h : l <+: k) (hne : l ≠ k) :
    l <+: k.dropLast := by
  obtain ⟨rest, rfl⟩ := h
  have hrest : rest ≠ [] := by
    rintro rfl
    exact hne (List.append_nil l).symm
  rw [List.dropLast_append_of_ne_nil hrest]
  exact List.prefix_append _ _

theorem kept_housed (quiet : d.temporaries = []) (hc : ∀ f ∈ drafts, d.climbs f.path = true) :
    Kept d drafts (Housed d) := by
  have hk := kept_prepared quiet hc
  refine ⟨fun h => hk.waiting h.toPrepared, ?_⟩
  intro f c c' tried staged folders r missing hf h hr
  refine ⟨hk.step hf h.toPrepared hr, fun s hs => ?_⟩
  rcases List.mem_append.1 hs with hs | hs
  · have hg := grown_stageDraft hr
    exact Disk.node?_of_le hg.here.symm hg.le (h.housed s hs)
  · cases r with
    | none => simp at hs
    | some s' =>
      obtain rfl : s = s' := by simpa using hs
      have hpath := ((hk.waiting h.toPrepared).stageDraft hr).2 s rfl
      rw [hpath.1]
      exact node?_folderOf_of_stageDraft hr

/-- On a disk on which every staged draft has its directory, all missing directories above the
drafts have been made, and nothing else is new. -/
theorem Housed.reached (h : Housed d c (earlier.map (·.path)) staged folders)
    (hs : List.Forall₂ StagedAs earlier staged) (hn : ∀ s ∈ staged, s.path.EndsInName) :
    Reached d c earlier := by
  refine ⟨h.here, fun l => ?_⟩
  unfold withFolders
  split
  · next hnew =>
    obtain ⟨-, f, hf, hpre, hne⟩ := hnew
    obtain ⟨s, hsm, hpath, -⟩ := exists_of_mem_left hs hf
    have hfolder := (Disk.node?_eq_some_iff.1 (h.housed s hsm)).2
    rw [Disk.place_eq_of_here h.here, place_folderOf (hn s hsm), hpath] at hfolder
    exact FileTree.get?_of_prefix hfolder (prefix_dropLast hpre hne)
  · next hold =>
    cases hd : d.tree.get? l with
    | some node => exact h.le l node hd
    | none =>
      cases hcl : c.tree.get? l with
      | none => rfl
      | some node =>
        rcases h.new l node hcl with ho | ⟨rfl, -⟩
        · rw [hd] at ho
          cases ho
        · obtain ⟨p, hp, ha⟩ := h.above l hcl hd
          obtain ⟨f, hf, rfl⟩ := List.mem_map.1 hp
          exact absurd ⟨hd, f, hf, ha⟩ hold

/-- Staging all drafts leaves alone those that the verdicts leave alone, and stages the others. -/
theorem verdicts_of_stageAll (quiet : d.temporaries = [])
    (hc : ∀ f ∈ drafts, d.climbs f.path = true) {p q : Progress Temporary} {e : Disk}
    (h : Housed d c (earlier.map (·.path)) p.staged p.folders)
    (hs : List.Forall₂ StagedAs earlier p.staged)
    (hrun : (stageAll p drafts).run c = ((q, none), e))
    (hn : ∀ s ∈ q.staged, s.path.EndsInName) :
    q.outcomes = p.outcomes ++ (verdicts d earlier drafts).map (fun v => (v.1.path, v.2)) ∧
      List.Forall₂ StagedAs (earlier ++ writtenAfter d earlier drafts) q.staged ∧
      Housed d e ((earlier ++ writtenAfter d earlier drafts).map (·.path)) q.staged q.folders := by
  induction drafts generalizing c p earlier with
  | nil =>
    cases hrun
    simpa [verdicts, writtenAfter] using ⟨hs, h⟩
  | cons f fs ih =>
    have hfs : ∀ g ∈ fs, d.climbs g.path = true := fun g hg => hc g (List.mem_cons_of_mem _ hg)
    have hsub : p.staged ⊆ q.staged := by
      obtain ⟨_, _, _, _, hrun', -, hok⟩ := stageAll_run (kept_housed quiet hc) h
      rw [hrun] at hrun'
      cases hrun'
      obtain ⟨_, _, staged, -, -, -, hst, -⟩ := hok rfl
      exact hst ▸ List.subset_append_left _ _
    have hreached := h.reached hs fun s hm => hn s (hsub hm)
    have hfound := hreached.isSome_kind?_iff (hc f List.mem_cons_self)
    rw [run_stageAll_cons] at hrun
    simp only [hfound] at hrun
    split_ifs at hrun with hkept
    · obtain ⟨hv, hw⟩ := verdicts_skipped hkept fs
      obtain ⟨ho, hst, hh⟩ := ih hfs
        (p := { p with outcomes := p.outcomes ++ [(f.path, .skipped)] }) h hs hrun
      rw [hv, hw]
      exact ⟨by simp [ho], hst, hh⟩
    · obtain ⟨hv, hw⟩ := verdicts_written hkept fs
      rcases hd : (stageDraft f).run c with ⟨⟨_ | s, missing⟩, c₁⟩
      · rw [hd] at hrun
        cases hrun
      · rw [hd] at hrun
        have hstep := (kept_housed quiet hc).step List.mem_cons_self h hd
        have hsf := ((kept_housed quiet hc).waiting h).stageDraft hd
        have hs' : List.Forall₂ StagedAs (earlier ++ [f]) (p.staged ++ [s]) :=
          List.rel_append hs (.cons (hsf.2 s rfl) .nil)
        obtain ⟨ho, hst, hh⟩ := ih hfs (by simpa using hstep) hs' hrun
        rw [hv, hw]
        exact ⟨by simp [ho], by simpa using hst, by simpa using hh⟩

end Commit
end Scaffold

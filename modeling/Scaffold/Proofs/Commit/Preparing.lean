import Scaffold.Proofs.Commit.Folders

/-! Staging drafts whose paths climb safely. Directories are added only above the places of the
drafts, removing them leads back to the disk before, and each staged draft remembers the file that
was at its place then. -/

namespace Scaffold.Commit

open Location

variable {d c : Disk} {p q : Path} {l : Location}

/-! ### Directories above a path -/

/-- A directory above the target of a path: it has the first steps of the path, or it is the
directory that relative paths start from. -/
theorem of_mem_ancestors_folderOf (hq : q ∈ (folderOf p).ancestors) (hne : q.text ≠ []) :
    q = "." ∨ (q.isAbsolute = p.isAbsolute ∧ ∃ rest, rest ≠ [] ∧ p.steps = q.steps ++ rest) := by
  have hdot : ∀ q ∈ Path.ancestors ".", q.text ≠ [] → q = "." := by decide
  unfold folderOf at hq
  split at hq
  · next folder hf =>
    split at hq
    · exact .inl (hdot q hq hne)
    · next hfe =>
      have hfe' : folder.text ≠ [] := by simpa using hfe
      obtain ⟨ha, rest, hr, hs⟩ := Path.of_mem_properAncestors (List.mem_of_mem_head? hf) hfe'
      obtain ⟨ha', rest', hs'⟩ := Path.of_mem_ancestors hq hne
      exact .inr ⟨ha'.trans ha, rest' ++ rest, by simp [hr], by rw [hs, ← hs', List.append_assoc]⟩
  · exact .inl (hdot q hq hne)

theorem climbs_of_mem_ancestors_folderOf (hq : q ∈ (folderOf p).ancestors) (hne : q.text ≠ [])
    (hc : d.climbs p = true) : d.climbs q = true := by
  rcases of_mem_ancestors_folderOf hq hne with rfl | ⟨ha, rest, -, hs⟩
  · rw [Disk.climbs_eq_steps]; rfl
  · rw [Disk.climbs_eq_steps, hs, FileTree.climbs_append, Bool.and_eq_true] at hc
    rw [Disk.climbs_eq_steps, Disk.start, ha]
    exact hc.1

/-- A location that lies above the place of a path. -/
def Above (d : Disk) (l : Location) (p : Path) : Prop :=
  l <+: d.place p ∧ l ≠ d.place p

/-- Behind a location where nothing lies, a path that climbs safely only goes down. -/
theorem isName_of_climbs {t : FileTree} {rest : List Text} (hc : t.climbs l rest = true)
    (hl : t.get? l = none) (hi : ∀ s ∈ rest, Path.isIdle s = false) : ∀ s ∈ rest, IsName s := by
  induction rest generalizing l with
  | nil => simp
  | cons s rest ih =>
    simp only [FileTree.climbs, Bool.and_eq_true, Bool.or_eq_true, bne_iff_ne, beq_iff_eq, hl] at hc
    have hs : IsName s := ⟨hi s (by simp), hc.1.resolve_right (by simp)⟩
    rw [follow_name hs] at hc
    intro s' hs'
    rcases List.mem_cons.1 hs' with rfl | hs'
    · exact hs
    · exact ih hc.2 (FileTree.get?_child_eq_none (by simp [hl]) s) (fun s h => hi s (by simp [h]))
        s' hs'

/-- Where a missing directory above the target of a path is made, the path passes. -/
theorem above_of_mem_ancestors_folderOf (hq : q ∈ (folderOf p).ancestors) (hne : q.text ≠ [])
    (hc : d.climbs p = true) (hh : c.here = d.here) (ht : c.target? q = some l)
    (hl : d.tree.get? l = none) : Above d l p := by
  obtain rfl := Disk.eq_place_of_target? ht
  rw [Disk.place_eq_of_here hh] at hl ⊢
  rcases of_mem_ancestors_folderOf hq hne with rfl | ⟨ha, rest, hr, hs⟩
  · obtain ⟨⟨before, name, hseg, hn⟩, -⟩ := Disk.target?_eq_some_iff.1 ht
    have : name = ['.'] := by
      have hdot : Path.segments "." = [['.']] := rfl
      rw [hdot] at hseg
      have hlast := congrArg List.getLast? hseg
      simpa using hlast.symm
    exact absurd hn.1 (by simp [this, Path.isIdle])
  · have hst : d.start q = d.start p := by simp [Disk.start, ha]
    rw [Disk.climbs_eq_steps, hs, FileTree.climbs_append, Bool.and_eq_true, ← hst,
      ← Disk.place_eq_steps] at hc
    have hidle : ∀ s ∈ rest, Path.isIdle s = false := by
      intro s hm
      have : s ∈ p.steps := hs ▸ List.mem_append_right _ hm
      simpa using (List.mem_filter.1 this).2
    have hplace : d.place p = d.place q ++ rest := by
      rw [Disk.place_eq_steps, hs, followAll_append, ← hst, ← Disk.place_eq_steps,
        followAll_names (isName_of_climbs hc.2 hl hidle)]
    exact ⟨⟨rest, hplace.symm⟩, fun he => hr (by simpa [← he] using hplace)⟩

/-! ### Staged drafts -/

/-- A staged draft remembers the file that was at its place, if its path can be a target. -/
def Recalls (d : Disk) (s : Staged Temporary) : Prop :=
  ∀ (d' : Disk) (l : Location), d'.here = d.here → d'.target? s.path = some l →
    ∀ content, d.tree.get? l = some (.file content) ↔ s.replaced = some content

/-- What staging does to a disk, when it was tried for the given paths. -/
structure Prepared (d c : Disk) (tried : List Path) (staged : List (Staged Temporary))
    (folders : List Path) : Prop extends Waiting d c staged where
  above : ∀ l, c.tree.get? l = some .dir → d.tree.get? l = none → ∃ p ∈ tried, Above d l p
  unmakes : Unmakes d d.tree folders c.tree
  recalls : ∀ s ∈ staged, Recalls d s

theorem prepared_nil (quiet : d.temporaries = []) : Prepared d d [] [] [] :=
  ⟨waiting_nil quiet, fun l hd hn => by simp [hn] at hd, Unmakes.refl _ _, by simp⟩

variable {tried folders : List Path} {staged : List (Staged Temporary)}

/-- What is read at the path of a draft while it is staged, was there before the commit. -/
theorem Waiting.recalls_node? (h : Waiting d c staged) (hc : d.climbs p = true) (t : Temporary) :
    Recalls d ⟨p, t, (c.node? p).bind Node.content?⟩ := by
  intro d' l hh ht content
  simp only [Option.bind_eq_some_iff, Node.content?_eq_some_iff, exists_eq_right]
  constructor
  · intro hl
    exact Disk.node?_of_le h.here.symm h.le (Disk.target?_of_climbs hc hh ht hl).2
  · intro hn
    rw [← h.sameFiles, Disk.eq_place_of_target? ht, Disk.place_eq_of_here (hh.trans h.here.symm)]
    exact (Disk.node?_eq_some_iff.1 hn).2

/-- Staging keeps a disk prepared. -/
theorem kept_prepared (quiet : d.temporaries = []) {drafts : List Draft}
    (hc : ∀ f ∈ drafts, d.climbs f.path = true) : Kept d drafts (Prepared d) := by
  refine ⟨fun h => h.toWaiting, ?_⟩
  intro f c c' tried staged folders r missing hf h hr
  have hwait := (h.toWaiting.stageDraft hr).1
  have hfolders : ∀ q ∈ missingFor f c, Fresh d q ∧ d.climbs q = true := by
    intro q hq
    obtain ⟨ha, hne, hk⟩ := of_mem_missingAbove hq
    have hcq := climbs_of_mem_ancestors_folderOf ha hne (hc f hf)
    exact ⟨fresh_of_kind? hcq h.here h.le hk, hcq⟩
  have hmakes := makes_makeFolders quiet hfolders h.here
  have habove : ∀ l, (furnished f c).tree.get? l = some .dir →
      d.tree.get? l = none → ∃ p ∈ tried ++ [f.path], Above d l p := by
    intro l hl hnone
    rcases (grown_furnished f c).1.new l _ hl with ho | ⟨-, hn⟩
    · obtain ⟨p, hp, ha⟩ := h.above l ho hnone
      exact ⟨p, List.mem_append_left _ hp, ha⟩
    · obtain ⟨q, hq, c₁, hh, ht⟩ := hmakes.made l hl hn
      obtain ⟨ha, hne, -⟩ := of_mem_missingAbove hq
      exact ⟨f.path, by simp, above_of_mem_ancestors_folderOf ha hne (hc f hf) hh ht hnone⟩
  have hun := h.unmakes.trans hmakes.unmakes
  rw [run_stageDraft] at hr
  split at hr <;> cases hr
  next t hs =>
    obtain ⟨-, -, -, -, rfl⟩ := Disk.of_stage? hs
    refine ⟨hwait, habove, hun, fun s hs => ?_⟩
    rcases List.mem_append.1 hs with hs | hs
    · exact h.recalls s hs
    · obtain rfl : s = _ := by simpa using hs
      exact h.toWaiting.recalls_node? (hc f hf) t
  next => exact ⟨hwait, habove, hun, by simpa using h.recalls⟩

end Scaffold.Commit

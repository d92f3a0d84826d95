import Scaffold.Proofs.Commit.Staging

/-! The directories that a commit makes, and how they are removed again. A directory is made only
where nothing was, and removing directories in reverse order undoes making them: this also holds
if some are gone already, so the claim is about all disks between the first and the last one. -/

namespace Scaffold.Commit

open Location

/-- A disk with everything that a first disk has, and nothing that a tree has not. -/
structure Between (d : Disk) (t : FileTree) (s : Disk) : Prop where
  here : s.here = d.here
  temporaries : s.temporaries = d.temporaries
  lower : d.tree ≤ s.tree
  upper : s.tree ≤ t

/-- Removing directories in reverse order leads from below one tree to below another one, and
keeps all that a disk has. -/
def Unmakes (d : Disk) (t : FileTree) (folders : List Path) (t' : FileTree) : Prop :=
  ∀ s, Between d t' s → Between d t ((removeFolders folders.reverse).run s).2

/-- A path that cannot lead to anything on a disk. -/
def Fresh (d : Disk) (q : Path) : Prop :=
  ∀ (d' : Disk) (l : Location), d'.here = d.here → d'.target? q = some l → d.tree.get? l = none

variable {d c : Disk} {t : FileTree} {p q : Path} {l : Location}

theorem Between.same {s : Disk} (h : Between d d.tree s) : Disk.Same s d :=
  ⟨FileTree.get?_eq_of_le_of_le h.upper h.lower, h.here, h.temporaries⟩

theorem run_removeFolders_append (qs rs : List Path) (d : Disk) :
    ((removeFolders (qs ++ rs)).run d).2 =
      ((removeFolders rs).run ((removeFolders qs).run d).2).2 := by
  induction qs generalizing d with
  | nil => rfl
  | cons q qs ih => simp [removeFolders, ih]

theorem Unmakes.refl (d : Disk) (t : FileTree) : Unmakes d t [] t := fun _ h => h

theorem Unmakes.trans {t' t'' : FileTree} {qs rs : List Path} (h : Unmakes d t qs t')
    (h' : Unmakes d t' rs t'') : Unmakes d t (qs ++ rs) t'' := by
  intro s hs
  rw [List.reverse_append, run_removeFolders_append]
  exact h _ (h' s hs)

/-- A path that climbs safely and leads to nothing, although directories have been added, is
fresh. -/
theorem fresh_of_kind? (hc : d.climbs q = true) (hh : c.here = d.here) (hle : d.tree ≤ c.tree)
    (hk : c.kind? q = none) : Fresh d q := by
  intro d' l hh' ht
  cases hl : d.tree.get? l with
  | none => rfl
  | some node =>
    have hn := Disk.node?_of_le hh.symm hle (Disk.target?_of_climbs hc hh' ht hl).2
    simp [Disk.kind?, hn] at hk

/-! ### One directory -/

/-- What removing one directory leaves of a disk. -/
theorem removeDir_lower {s : Disk} (hf : Fresh d q) (hs : Between d t s) :
    Between d s.tree (s.attempt (s.removeDir? q)).2 := by
  cases hr : s.removeDir? q with
  | none => exact ⟨hs.here, hs.temporaries, hs.lower, le_refl _⟩
  | some s' =>
    obtain ⟨l, tree, hl, ht, rfl⟩ := Disk.of_removeDir? hr
    refine ⟨hs.here, hs.temporaries, fun k node hk => ?_, fun k node hk => ?_⟩
    · have hne : k ≠ l := by
        rintro rfl
        rw [hf s k hs.here hl] at hk
        cases hk
      simp only [Disk.attempt_some, Disk.withTree_tree]
      rw [FileTree.get?_of_removeDir? ht, if_neg hne]
      exact hs.lower k node hk
    · simp only [Disk.attempt_some, Disk.withTree_tree] at hk
      rw [FileTree.get?_of_removeDir? ht] at hk
      split at hk
      · cases hk
      · exact hk

/-- Nothing is left where a directory has just been made and is removed: nothing lies in it. -/
theorem removeDir_made {s : Disk} {tree : FileTree} (quiet : d.temporaries = [])
    (hc : d.climbs q = true) (hh : c.here = d.here) (hl : c.target? q = some l)
    (ht : c.tree.makeDir? l = some tree) (hs : Between d tree s) :
    (s.attempt (s.removeDir? q)).2.tree.get? l = none := by
  cases hr : s.removeDir? q with
  | some s' =>
    obtain ⟨l', tree', hl', ht', rfl⟩ := Disk.of_removeDir? hr
    have hll : l = l' := by
      rw [Disk.eq_place_of_target? hl, Disk.eq_place_of_target? hl']
      exact Disk.place_eq_of_here (hh.trans hs.here.symm) q
    simp [FileTree.get?_of_removeDir? ht', hll]
  | none =>
    cases hn : s.tree.get? l with
    | none => simp [hn]
    | some node =>
      have hdir : s.tree.get? l = some .dir := by
        have := hs.upper l node hn
        rw [FileTree.get?_of_makeDir? ht, if_pos rfl] at this
        rw [hn, this]
      have hempty : ∀ name, s.tree.get? (l ++ [name]) = none := by
        intro name
        apply FileTree.get?_eq_none_of_le hs.upper
        rw [FileTree.get?_of_makeDir? ht, if_neg (by simp)]
        exact FileTree.get?_child_eq_none (by simp [(FileTree.of_makeDir? ht).2.1]) name
      have hclimbs := Disk.climbs_of_dirs hs.here.symm (fun _ => FileTree.get?_of_le hs.lower) hc
      have htar := (Disk.target?_of_climbs hclimbs (hh.trans hs.here.symm) hl hn).1
      obtain ⟨s', hs'⟩ := Disk.exists_removeDir? (hs.temporaries.trans quiet) htar hdir hempty
      rw [hr] at hs'
      cases hs'

theorem unmakes_makeDir (quiet : d.temporaries = []) (hf : Fresh d q) (hc : d.climbs q = true)
    (hh : c.here = d.here) : Unmakes d c.tree [q] (c.attempt (c.makeDir? q)).2.tree := by
  intro s hs
  have hlow := removeDir_lower hf hs
  show Between d c.tree (s.attempt (s.removeDir? q)).2
  refine ⟨hlow.here, hlow.temporaries, hlow.lower, fun k node hk => ?_⟩
  have hup := hs.upper k node (hlow.upper k node hk)
  cases hm : c.makeDir? q with
  | none => simpa [hm] using hup
  | some c' =>
    obtain ⟨l, tree, hl, ht, rfl⟩ := Disk.of_makeDir? hm
    simp only [hm, Disk.attempt_some, Disk.withTree_tree] at hup hs
    rw [FileTree.get?_of_makeDir? ht] at hup
    split at hup
    · next hkl =>
      subst hkl
      rw [removeDir_made quiet hc hh hl ht hs] at hk
      cases hk
    · exact hup

/-! ### Making directories -/

/-- What making directories does besides adding them: each lies at the place of its path, and
removing them in reverse order undoes it. -/
structure Makes (d c : Disk) (folders : List Path) (c' : Disk) : Prop where
  made : ∀ l, c'.tree.get? l = some .dir → c.tree.get? l = none →
    ∃ q ∈ folders, ∃ c : Disk, c.here = d.here ∧ c.target? q = some l
  unmakes : Unmakes d c.tree folders c'.tree

theorem Makes.trans {c' c'' : Disk} {qs rs : List Path} (h : Makes d c qs c')
    (h' : Makes d c' rs c'') (hg : c'.Grown c'') : Makes d c (qs ++ rs) c'' where
  made l hn hc := by
    rcases hg.new l _ hn with ho | ⟨-, hnone⟩
    · obtain ⟨q, hq, hd⟩ := h.made l ho hc
      exact ⟨q, List.mem_append_left _ hq, hd⟩
    · obtain ⟨q, hq, hd⟩ := h'.made l hn hnone
      exact ⟨q, List.mem_append_right _ hq, hd⟩
  unmakes := h.unmakes.trans h'.unmakes

theorem makes_makeDir (quiet : d.temporaries = []) (hf : Fresh d q) (hc : d.climbs q = true)
    (hh : c.here = d.here) : Makes d c [q] (c.attempt (c.makeDir? q)).2 := by
  refine ⟨fun l hn hnone => ?_, unmakes_makeDir quiet hf hc hh⟩
  cases hm : c.makeDir? q with
  | none => simp [hm, hnone] at hn
  | some c' =>
    obtain ⟨k, tree, hk, ht, rfl⟩ := Disk.of_makeDir? hm
    simp only [hm, Disk.attempt_some, Disk.withTree_tree] at hn
    rw [FileTree.get?_of_makeDir? ht] at hn
    split at hn
    · next hlk => exact ⟨q, by simp, c, hh, by rw [hk, hlk]⟩
    · rw [hnone] at hn
      cases hn

theorem makes_makeFolders (quiet : d.temporaries = []) {folders : List Path}
    (hf : ∀ q ∈ folders, Fresh d q ∧ d.climbs q = true) (hh : c.here = d.here) :
    Makes d c folders ((makeFolders folders).run c).2 := by
  induction folders generalizing c with
  | nil => exact ⟨fun l hn hnone => by simp [makeFolders, hnone] at hn, Unmakes.refl _ _⟩
  | cons q qs ih =>
    obtain ⟨hq, hc⟩ := hf q (by simp)
    have h₁ := makes_makeDir quiet hq hc hh
    have h₂ := ih (fun r hr => hf r (by simp [hr])) ((grown_makeDir c q).here.trans hh)
    have hg := (grown_makeFolders (c.attempt (c.makeDir? q)).2 qs).1
    simpa [makeFolders] using h₁.trans h₂ hg

end Scaffold.Commit

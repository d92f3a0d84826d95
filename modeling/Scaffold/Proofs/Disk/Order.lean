import Mathlib.Order.Basic
import Scaffold.Disk.Basic

/-! Trees that contain each other. A tree is below another one if the other has everything that
it has; two trees below each other have the same at every location. Trees can also be compared
by their directories alone, which is what paths depend on. -/

namespace Scaffold

namespace FileTree

variable {t t' : FileTree} {k l : Location}

instance : Preorder FileTree where
  le t t' := ∀ l node, t.get? l = some node → t'.get? l = some node
  le_refl _ _ _ h := h
  le_trans _ _ _ h h' l node hn := h' l node (h l node hn)

theorem get?_of_le (h : t ≤ t') {node : Node} (hn : t.get? l = some node) :
    t'.get? l = some node :=
  h l node hn

theorem get?_eq_none_of_le (h : t ≤ t') (hn : t'.get? l = none) : t.get? l = none := by
  cases hl : t.get? l with
  | none => rfl
  | some node => rw [get?_of_le h hl] at hn; cases hn

theorem get?_eq_of_le_of_le (h : t ≤ t') (h' : t' ≤ t) (l : Location) : t.get? l = t'.get? l :=
  Option.ext fun node => ⟨h l node, h' l node⟩

theorem get?_child_eq_none (h : t.get? l ≠ some .dir) (name : Text) :
    t.get? (l ++ [name]) = none := by
  cases hc : t.get? (l ++ [name]) with
  | none => rfl
  | some node => exact absurd (get?_parent hc) h

theorem isEmptyDir_iff : t.isEmptyDir l = true ↔ ∀ name, t.get? (l ++ [name]) = none := by
  refine ⟨lookup_eq_none_of_isEmptyDir, fun h => List.all_eq_true.2 fun e he => ?_⟩
  by_cases hroot : e.1 = []
  · simp [hroot]
  · have hne : e.1.dropLast ≠ l := by
      rintro rfl
      have hn := h (e.1.getLast hroot)
      rw [List.dropLast_concat_getLast, get?, Node.find, if_neg hroot,
        List.lookup_eq_none_iff] at hn
      simpa using hn e he
    simp [hne]

theorem exists_removeDir? (hl : l ≠ []) (hd : t.get? l = some .dir)
    (hc : ∀ name, t.get? (l ++ [name]) = none) : ∃ t', t.removeDir? l = some t' :=
  ⟨_, dif_pos ⟨hl, hd, isEmptyDir_iff.2 hc⟩⟩

theorem of_makeDir? (h : t.makeDir? l = some t') :
    l ≠ [] ∧ t.get? l = none ∧ t.get? l.dropLast = some .dir := by
  unfold makeDir? at h
  split at h
  · next hl => exact hl
  · simp at h

theorem of_writeFile? {content : ByteArray} (h : t.writeFile? l content = some t') :
    l ≠ [] ∧ t.get? l ≠ some .dir ∧ t.get? l.dropLast = some .dir := by
  unfold writeFile? at h
  split at h
  · next hl => exact hl
  · simp at h

theorem of_removeDir? (h : t.removeDir? l = some t') :
    l ≠ [] ∧ t.get? l = some .dir ∧ t.isEmptyDir l = true := by
  unfold removeDir? at h
  split at h
  · next hl => exact hl
  · simp at h

theorem le_of_makeDir? (h : t.makeDir? l = some t') : t ≤ t' := by
  intro k node hk
  rw [get?_of_makeDir? h, if_neg]
  · exact hk
  · rintro rfl
    rw [(of_makeDir? h).2.1] at hk
    cases hk

/-- A tree by its entries, if each of them lies in a directory. -/
def ofEntries (es : List (Location × Node))
    (h : ∀ e ∈ es, Node.find es e.1.dropLast = some .dir) : FileTree where
  entries := es
  parent_eq_dir l name node hn := by
    rw [Node.find, if_neg (by simp)] at hn
    have hm : (l ++ [name], node) ∈ es := by
      obtain ⟨l₁, l₂, he, -⟩ := List.lookup_eq_some_iff.1 hn
      simp [he]
    simpa using h _ hm

/-! ### The same directories -/

/-- Trees that have the same directories; their files may differ. -/
def SameDirs (t t' : FileTree) : Prop :=
  ∀ l, t.get? l = some .dir ↔ t'.get? l = some .dir

theorem SameDirs.refl (t : FileTree) : SameDirs t t := fun _ => Iff.rfl

theorem SameDirs.trans {t'' : FileTree} (h : SameDirs t t') (h' : SameDirs t' t'') :
    SameDirs t t'' :=
  fun l => (h l).trans (h' l)

theorem sameDirs_of_writeFile? {content : ByteArray} (h : t.writeFile? l content = some t') :
    SameDirs t t' := by
  intro k
  rw [get?_of_writeFile? h]
  split
  · next hk => subst hk; simp [(of_writeFile? h).2.1]
  · rfl

theorem sameDirs_of_removeFile? (h : t.removeFile? l = some t') : SameDirs t t' := by
  intro k
  rw [get?_of_removeFile? h]
  unfold removeFile? at h
  split at h
  · next hl => split <;> simp_all
  · simp at h

/-- The disk with a tree, seen from a directory, while no file is being moved. -/
def disk (t : FileTree) (here : Location) : Disk := { tree := t, here := here }

end FileTree

/-- Disks that nobody can tell apart: they have the same at every location, the same temporary
files, and paths start from the same directory. -/
structure Disk.Same (d d' : Disk) : Prop where
  get? : ∀ l, d.tree.get? l = d'.tree.get? l
  here : d.here = d'.here
  temporaries : d.temporaries = d'.temporaries

namespace Disk.Same

variable {d d' : Disk}

theorem refl (d : Disk) : Same d d := ⟨fun _ => rfl, rfl, rfl⟩

theorem symm (h : Same d d') : Same d' d :=
  ⟨fun l => (h.get? l).symm, h.here.symm, h.temporaries.symm⟩

theorem le (h : Same d d') : d.tree ≤ d'.tree := fun l _ hn => (h.get? l).symm.trans hn

end Disk.Same

/-- Disks with the same files; their directories may differ. -/
def Disk.SameFiles (d d' : Disk) : Prop :=
  ∀ l content, d'.tree.get? l = some (.file content) ↔ d.tree.get? l = some (.file content)

theorem Disk.SameFiles.trans {d d' d'' : Disk} (h : d.SameFiles d') (h' : d'.SameFiles d'') :
    d.SameFiles d'' :=
  fun l content => (h' l content).trans (h l content)

/-- A disk to which directories have been added, where nothing was before. -/
structure Disk.Grown (d d' : Disk) : Prop where
  here : d'.here = d.here
  le : d.tree ≤ d'.tree
  new : ∀ l node, d'.tree.get? l = some node →
    d.tree.get? l = some node ∨ (node = .dir ∧ d.tree.get? l = none)

namespace Disk.Grown

variable {d d' d'' : Disk}

theorem refl (d : Disk) : Grown d d := ⟨rfl, le_refl _, fun _ _ h => .inl h⟩

theorem trans (h : Grown d d') (h' : Grown d' d'') : Grown d d'' := by
  refine ⟨h'.here.trans h.here, h.le.trans h'.le, fun l node hn => ?_⟩
  rcases h'.new l node hn with ho | ⟨hd, hnone⟩
  · exact h.new l node ho
  · exact .inr ⟨hd, FileTree.get?_eq_none_of_le h.le hnone⟩

/-- Files are as they were. -/
theorem sameFiles (h : Grown d d') : d.SameFiles d' := by
  refine fun l content => ⟨fun hc => ?_, FileTree.get?_of_le h.le⟩
  rcases h.new l _ hc with ho | ⟨hn, -⟩
  · exact ho
  · cases hn

end Disk.Grown
end Scaffold

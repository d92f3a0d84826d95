import Scaffold.Disk.Script
import Scaffold.Proofs.Disk.Place

/-! What a change does to a disk. A change that is made leads to the place of its path and does
to the tree what the operation of the tree does there; the other way round, a change is made as
soon as its path can be followed and the tree allows it. -/

namespace Scaffold.Disk

variable {d d' : Disk} {p : Path} {l : Location} {t : Temporary}

@[simp] theorem withTree_tree (d : Disk) (t : FileTree) : (d.withTree t).tree = t := rfl

@[simp] theorem attempt_some (d d' : Disk) : d.attempt (some d') = (true, d') := rfl

@[simp] theorem attempt_none (d : Disk) : d.attempt none = (false, d) := rfl

/-- The changes of the tree at the place of a path have one form. -/
theorem of_change {change : Location → Option FileTree}
    (h : (do return d.withTree (← change (← d.target? p))) = some d') :
    ∃ l tree, d.target? p = some l ∧ change l = some tree ∧ d' = d.withTree tree := by
  simp only [Option.bind_eq_bind, Option.bind_eq_some_iff, Option.pure_def,
    Option.some.injEq] at h
  obtain ⟨l, hl, tree, ht, rfl⟩ := h
  exact ⟨l, tree, hl, ht, rfl⟩

theorem of_makeDir? (h : d.makeDir? p = some d') :
    ∃ l tree, d.target? p = some l ∧ d.tree.makeDir? l = some tree ∧ d' = d.withTree tree :=
  of_change h

theorem of_writeFile? {content : ByteArray} (h : d.writeFile? p content = some d') :
    ∃ l tree, d.target? p = some l ∧ d.tree.writeFile? l content = some tree ∧
      d' = d.withTree tree :=
  @of_change d d' p (fun l => d.tree.writeFile? l content) h

theorem of_removeFile? (h : d.removeFile? p = some d') :
    ∃ l tree, d.target? p = some l ∧ d.tree.removeFile? l = some tree ∧ d' = d.withTree tree :=
  of_change h

theorem of_removeDir? (h : d.removeDir? p = some d') :
    ∃ l tree, d.target? p = some l ∧ d.tree.removeDir? l = some tree ∧ d' = d.withTree tree := by
  simp only [removeDir?, Option.bind_eq_bind, Option.bind_eq_some_iff] at h
  obtain ⟨l, hl, h⟩ := h
  split at h
  · cases h
  · simp only [Option.bind_eq_some_iff, Option.pure_def, Option.some.injEq] at h
    obtain ⟨tree, ht, rfl⟩ := h
    exact ⟨l, tree, hl, ht, rfl⟩

theorem of_persist? (h : d.persist? t p = some d') :
    ∃ l tree, d.target? p = some l ∧ d.tree.writeFile? l t.content = some tree ∧
      d' = (d.withTree tree).unstage t := by
  simp only [persist?, Option.bind_eq_bind, Option.bind_eq_some_iff, Option.pure_def,
    Option.some.injEq] at h
  obtain ⟨d'', hw, rfl⟩ := h
  obtain ⟨l, tree, hl, ht, rfl⟩ := of_writeFile? hw
  exact ⟨l, tree, hl, ht, rfl⟩

/-- Whether a temporary file can be moved does not depend on the temporary files there are. -/
theorem writeFile?_eq_none_of_persist? (h : d.persist? t p = none) :
    ({ d with temporaries := [] } : Disk).writeFile? p t.content = none := by
  have hw : d.writeFile? p t.content = none := by
    cases hw : d.writeFile? p t.content with
    | none => rfl
    | some d' => simp [persist?, hw] at h
  change (do return (_ : Disk).withTree (← d.tree.writeFile? (← d.target? p) t.content)) = none
  cases ht : d.target? p with
  | none => rfl
  | some l =>
    cases hf : d.tree.writeFile? l t.content with
    | none => simp [hf]
    | some tree => simp [writeFile?, ht, hf] at hw

theorem of_stage? {folder : Path} {content : ByteArray} (h : d.stage? folder content = some (t, d')) :
    ∃ l, d.locate folder = .ok l ∧ d.tree.get? l = some .dir ∧ t = ⟨l, content⟩ ∧
      d' = { d with temporaries := t :: d.temporaries } := by
  unfold stage? at h
  split at h
  · next l hl =>
    split at h
    · next hd =>
      simp only [Bool.and_eq_true, decide_eq_true_eq] at hd
      simp only [Option.some.injEq, Prod.mk.injEq] at h
      obtain ⟨rfl, rfl⟩ := h
      exact ⟨l, hl, hd.1, rfl, rfl⟩
    · cases h
  · cases h

/-- A temporary file can be made in a directory, unless its path is too long. -/
theorem isSome_stage?_iff {folder : Path} (content : ByteArray) :
    (d.stage? folder content).isSome = true ↔
      d.node? folder = some .dir ∧ (d.temporaryPath folder).isFollowable = true := by
  unfold stage? node?
  cases d.locate folder with
  | error e => simp
  | ok l => by_cases hd : d.tree.get? l = some .dir <;> simp [hd]

theorem exists_removeDir? (quiet : d.temporaries = []) (hl : d.target? p = some l)
    (hd : d.tree.get? l = some .dir) (hc : ∀ name, d.tree.get? (l ++ [name]) = none) :
    ∃ d', d.removeDir? p = some d' := by
  obtain ⟨tree, ht⟩ := FileTree.exists_removeDir? (get?_dropLast_of_target? hl).1 hd hc
  exact ⟨d.withTree tree, by simp [removeDir?, hl, quiet, ht]⟩

theorem exists_writeFile? (hl : d.target? p = some l) (hd : d.tree.get? l ≠ some .dir)
    (content : ByteArray) : ∃ d', d.writeFile? p content = some d' := by
  obtain ⟨hne, hdir⟩ := get?_dropLast_of_target? hl
  simp [writeFile?, hl, FileTree.writeFile?, hne, hd, hdir]

theorem exists_removeFile? {content : ByteArray} (hl : d.target? p = some l)
    (hf : d.tree.get? l = some (.file content)) : ∃ d', d.removeFile? p = some d' := by
  simp [removeFile?, hl, FileTree.removeFile?, hf]

end Scaffold.Disk

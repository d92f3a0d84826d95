import Scaffold.Disk.Commit
import Scaffold.Proofs.Disk.Change

/-! The second phase of a commit. Moving a staged draft changes one file and no directory, so all
paths lead where they led when staging was done. Putting back what the drafts replaced gives every
location the content it had then, also where several drafts went to one place: each of them
remembers the same file. -/

namespace Scaffold.Commit

variable {d c e : Disk} {moved rest : List (Staged Temporary)} {s : Staged Temporary}

/-- What lies at a location when staged drafts, last first, have been moved to their places. -/
def laid (c : Disk) : List (Staged Temporary) → Location → Option Node
  | [], l => c.tree.get? l
  | s :: moved, l =>
    if c.target? s.path = some l then some (.file s.temporary.content) else laid c moved l

/-- The disk while drafts are moved: those of the first list have been moved, last first, and
those of the second list are waiting in temporary files. -/
structure Moved (c e : Disk) (moved rest : List (Staged Temporary)) : Prop where
  here : e.here = c.here
  temporaries : e.temporaries.Perm (rest.map (·.temporary))
  dirs : c.tree.SameDirs e.tree
  get? : ∀ l, e.tree.get? l = laid c moved l
  targets : ∀ s ∈ moved, ∃ l, c.target? s.path = some l ∧ c.tree.get? l ≠ some .dir

/-- Drafts that go elsewhere do not matter for a location. -/
theorem laid_append {l : Location} (h : ∀ s ∈ moved, c.target? s.path ≠ some l) :
    laid c (moved ++ rest) l = laid c rest l := by
  induction moved with
  | nil => rfl
  | cons s moved ih =>
    rw [List.cons_append, laid, if_neg (h s (by simp)), ih fun s' hs => h s' (by simp [hs])]

theorem laid_of_not_target {l : Location} (h : ∀ s ∈ moved, c.target? s.path ≠ some l) :
    laid c moved l = c.tree.get? l := by
  simpa [laid] using @laid_append c moved [] l h

/-- Paths lead where they led on a disk with the same directories. -/
theorem target?_eq_of_sameDirs (hh : e.here = c.here) (hd : c.tree.SameDirs e.tree) (p : Path) :
    e.target? p = c.target? p :=
  Option.ext fun _ => ⟨Disk.target?_of_dirs hh fun k => (hd k).2,
    Disk.target?_of_dirs hh.symm fun k => (hd k).1⟩

theorem Moved.step (h : Moved c e moved (s :: rest)) {e' : Disk}
    (hp : e.persist? s.temporary s.path = some e') : Moved c e' (s :: moved) rest := by
  obtain ⟨l, tree, hl, ht, rfl⟩ := Disk.of_persist? hp
  rw [target?_eq_of_sameDirs h.here h.dirs] at hl
  refine ⟨h.here, ?_, h.dirs.trans (FileTree.sameDirs_of_writeFile? ht), fun k => ?_, ?_⟩
  · have hperm := h.temporaries.erase s.temporary
    rwa [List.map_cons, List.erase_cons_head] at hperm
  · show tree.get? k = _
    rw [FileTree.get?_of_writeFile? ht, laid, hl, h.get?]
    by_cases hk : k = l
    · simp [hk]
    · simp [hk, Ne.symm hk]
  · intro s' hs'
    rcases List.mem_cons.1 hs' with rfl | hs'
    · exact ⟨l, hl, fun hd => (FileTree.of_writeFile? ht).2.1 ((h.dirs l).1 hd)⟩
    · exact h.targets s' hs'

theorem run_unstageAll (ss : List (Staged Temporary)) (e : Disk)
    (h : e.temporaries.Perm (ss.map (·.temporary))) :
    (unstageAll ss).run e = ((), { e with temporaries := [] }) := by
  induction ss generalizing e with
  | nil =>
    obtain ⟨tree, here, temporaries⟩ := e
    obtain rfl := List.perm_nil.1 h
    rfl
  | cons s ss ih =>
    have hperm := h.erase s.temporary
    rw [List.map_cons, List.erase_cons_head] at hperm
    rw [unstageAll, Script.run_bind, Script.run_unstage, ih _ hperm]
    rfl

/-- What moving drafts can do: all are moved, or one of them cannot be moved and those moved
before it are put back. -/
theorem persistAll_run (h : Moved c e moved rest) :
    (∃ e', (persistAll moved rest).run e = (none, e') ∧ Moved c e' (rest.reverse ++ moved) []) ∨
    ∃ before s after e', rest = before ++ s :: after ∧
      Moved c e' (before.reverse ++ moved) [] ∧ e'.writeFile? s.path s.temporary.content = none ∧
      (persistAll moved rest).run e =
        (some (s.path, ((rollBack (before.reverse ++ moved)).run e').1),
          ((rollBack (before.reverse ++ moved)).run e').2) := by
  induction rest generalizing e moved with
  | nil => exact .inl ⟨e, rfl, h⟩
  | cons s rest ih =>
    rw [persistAll, Script.run_bind, Script.run_persist]
    cases hp : e.persist? s.temporary s.path with
    | some e₁ =>
      rcases ih (h.step hp) with ⟨e', hrun, hm⟩ | ⟨before, s', after, e', hr, hm, hw, hrun⟩
      · exact .inl ⟨e', hrun, by simpa using hm⟩
      · refine .inr ⟨s :: before, s', after, e', by simp [hr], by simpa using hm, hw, ?_⟩
        simpa using hrun
    | none =>
      refine .inr ⟨[], s, rest, { e with temporaries := [] }, rfl, ?_, ?_, ?_⟩
      · exact ⟨h.here, by simp, h.dirs, h.get?, h.targets⟩
      · exact Disk.writeFile?_eq_none_of_persist? hp
      · simp [run_unstageAll _ _ h.temporaries]

/-! ### Putting back -/

/-- The disk while drafts are put back: it differs from the disk before the first move only where
drafts have been moved that are not put back yet. -/
structure Restoring (c e : Disk) (moved : List (Staged Temporary)) : Prop where
  here : e.here = c.here
  temporaries : e.temporaries = []
  dirs : c.tree.SameDirs e.tree
  get? : ∀ l, e.tree.get? l = c.tree.get? l ∨ ∃ s ∈ moved, c.target? s.path = some l

theorem Moved.restoring (h : Moved c e moved []) : Restoring c e moved := by
  refine ⟨h.here, List.perm_nil.1 h.temporaries, h.dirs, fun l => ?_⟩
  by_cases ht : ∃ s ∈ moved, c.target? s.path = some l
  · exact .inr ht
  · exact .inl ((h.get? l).trans (laid_of_not_target fun s hs hl => ht ⟨s, hs, hl⟩))

/-- Once the place of a moved draft holds again what it held, the draft counts as put back. -/
theorem Restoring.step (h : Restoring c e (s :: moved)) {l : Location} {e' : Disk}
    (hl : c.target? s.path = some l) (hh : e'.here = e.here) (ht : e'.temporaries = e.temporaries)
    (hd : e.tree.SameDirs e'.tree)
    (hg : ∀ k, e'.tree.get? k = if k = l then c.tree.get? l else e.tree.get? k) :
    Restoring c e' moved := by
  refine ⟨hh.trans h.here, ht.trans h.temporaries, h.dirs.trans hd, fun k => ?_⟩
  rw [hg]
  split
  · next hk => exact .inl (by rw [hk])
  · next hk =>
    rcases h.get? k with hk' | ⟨s', hs', hl'⟩
    · exact .inl hk'
    · rcases List.mem_cons.1 hs' with rfl | hs'
      · rw [hl] at hl'
        exact absurd (Option.some.inj hl').symm hk
      · exact .inr ⟨s', hs', hl'⟩

/-- A change that puts back one draft. -/
def restore (s : Staged Temporary) (e : Disk) : Option Disk :=
  match s.replaced with
  | some content => e.writeFile? s.path content
  | none => e.removeFile? s.path

theorem run_rollBack_cons (s : Staged Temporary) (moved : List (Staged Temporary)) (e : Disk) :
    ((rollBack (s :: moved)).run e).2 = ((rollBack moved).run (e.attempt (restore s e)).2).2 := by
  unfold restore
  rw [rollBack]
  cases s.replaced <;> simp

/-- A draft that replaced nothing was moved to where nothing was. -/
theorem eq_none_of_replaced {l : Location} (hc : c.tree.get? l ≠ some .dir)
    (hr : ∀ content, c.tree.get? l = some (.file content) ↔ s.replaced = some content)
    (hrep : s.replaced = none) : c.tree.get? l = none := by
  rcases hg : c.tree.get? l with _ | _ | content
  · rfl
  · exact absurd hg hc
  · rw [(hr content).1 hg] at hrep
    cases hrep

/-- Putting back a draft works, and its place holds again what it held before the first move, unless
the draft replaced nothing and its file is gone already. -/
theorem exists_restore {l : Location} (hl : e.target? s.path = some l)
    (hd : e.tree.get? l ≠ some .dir) (hc : c.tree.get? l ≠ some .dir)
    (hr : ∀ content, c.tree.get? l = some (.file content) ↔ s.replaced = some content)
    (hf : s.replaced = none → ∃ old, e.tree.get? l = some (.file old)) :
    ∃ tree, restore s e = some (e.withTree tree) ∧ e.tree.SameDirs tree ∧
      ∀ k, tree.get? k = if k = l then c.tree.get? l else e.tree.get? k := by
  unfold restore
  cases hrep : s.replaced with
  | some content =>
    obtain ⟨e', he'⟩ := Disk.exists_writeFile? hl hd content
    obtain ⟨k, tree, hk, hw, rfl⟩ := Disk.of_writeFile? he'
    obtain rfl : l = k := Option.some.inj (hl.symm.trans hk)
    rw [(hr content).2 hrep]
    exact ⟨tree, he', FileTree.sameDirs_of_writeFile? hw, FileTree.get?_of_writeFile? hw⟩
  | none =>
    obtain ⟨old, hold⟩ := hf hrep
    obtain ⟨e', he'⟩ := Disk.exists_removeFile? hl hold
    obtain ⟨k, tree, hk, hw, rfl⟩ := Disk.of_removeFile? he'
    obtain rfl : l = k := Option.some.inj (hl.symm.trans hk)
    rw [eq_none_of_replaced hc hr hrep]
    exact ⟨tree, he', FileTree.sameDirs_of_removeFile? hw, FileTree.get?_of_removeFile? hw⟩

theorem Restoring.restore (h : Restoring c e (s :: moved))
    (hr : ∀ l, c.target? s.path = some l → ∀ content,
      c.tree.get? l = some (.file content) ↔ s.replaced = some content)
    (hs : ∃ l, c.target? s.path = some l ∧ c.tree.get? l ≠ some .dir) :
    Restoring c (e.attempt (Commit.restore s e)).2 moved := by
  obtain ⟨l, hl, hnd⟩ := hs
  have hl' : e.target? s.path = some l := by rwa [target?_eq_of_sameDirs h.here h.dirs]
  have hd : e.tree.get? l ≠ some .dir := by rwa [ne_eq, ← h.dirs]
  by_cases hf : s.replaced = none → ∃ old, e.tree.get? l = some (.file old)
  · obtain ⟨tree, hrun, hdirs, hget⟩ := exists_restore hl' hd hnd (hr l hl) hf
    rw [hrun, Disk.attempt_some]
    exact h.step hl rfl rfl hdirs hget
  · -- the file is gone already: an earlier step has put back another draft at the same place
    rw [Classical.not_imp, not_exists] at hf
    obtain ⟨hrep, hgone⟩ := hf
    have he : e.tree.get? l = none := by
      rcases hg : e.tree.get? l with _ | _ | content
      · rfl
      · exact absurd hg hd
      · exact absurd hg (hgone content)
    have hnone : Commit.restore s e = none := by
      simp [Commit.restore, hrep, Disk.removeFile?, hl', FileTree.removeFile?, he]
    rw [hnone, Disk.attempt_none]
    refine h.step hl rfl rfl (FileTree.SameDirs.refl _) fun k => ?_
    split
    · next hk => rw [hk, he, eq_none_of_replaced hnd (hr l hl) hrep]
    · rfl

theorem rollBack_restores (h : Restoring c e moved)
    (hr : ∀ s ∈ moved, (∃ l, c.target? s.path = some l ∧ c.tree.get? l ≠ some .dir) ∧
      ∀ l, c.target? s.path = some l → ∀ content,
        c.tree.get? l = some (.file content) ↔ s.replaced = some content) :
    Restoring c ((rollBack moved).run e).2 [] := by
  induction moved generalizing e with
  | nil => exact h
  | cons s moved ih =>
    obtain ⟨hs, hrec⟩ := hr s (by simp)
    rw [run_rollBack_cons]
    exact ih (h.restore hrec hs) fun s' hs' => hr s' (by simp [hs'])

/-- If the drafts that are put back later go elsewhere, putting back a draft works, and is as if the
draft had not been moved. -/
theorem Moved.putBack (h : Moved c e (s :: moved) [])
    (hne : ∀ s' ∈ moved, c.target? s.path ≠ c.target? s'.path)
    (hr : ∀ l, c.target? s.path = some l → ∀ content,
      c.tree.get? l = some (.file content) ↔ s.replaced = some content) :
    ∃ e', restore s e = some e' ∧ Moved c e' moved [] := by
  obtain ⟨l, hl, hnd⟩ := h.targets s List.mem_cons_self
  have hl' : e.target? s.path = some l := by rwa [target?_eq_of_sameDirs h.here h.dirs]
  have hfile : e.tree.get? l = some (.file s.temporary.content) := by
    rw [h.get?, laid, if_pos hl]
  have hrest : laid c moved l = c.tree.get? l :=
    laid_of_not_target fun s' hs' he => hne s' hs' (hl.trans he.symm)
  obtain ⟨tree, hrun, hdirs, hget⟩ :=
    exists_restore hl' (by simp [hfile]) hnd (hr l hl) fun _ => ⟨_, hfile⟩
  refine ⟨_, hrun, h.here, h.temporaries, h.dirs.trans hdirs, fun k => ?_,
    fun s' hs' => h.targets s' (List.mem_cons_of_mem _ hs')⟩
  rw [Disk.withTree_tree, hget]
  split
  · next hk => rw [hk, hrest]
  · next hk => rw [h.get?, laid, hl, if_neg fun he => hk (Option.some.inj he).symm]

/-- Drafts that have been moved to different places are all put back. -/
theorem paths_of_rollBack (h : Moved c e moved [])
    (hne : moved.Pairwise fun s s' => c.target? s.path ≠ c.target? s'.path)
    (hr : ∀ s ∈ moved, ∀ l, c.target? s.path = some l → ∀ content,
      c.tree.get? l = some (.file content) ↔ s.replaced = some content) :
    ((rollBack moved).run e).1 = moved.map (·.path) := by
  induction moved generalizing e with
  | nil => rfl
  | cons s moved ih =>
    rw [List.pairwise_cons] at hne
    obtain ⟨e', he', hm⟩ := h.putBack hne.1 (hr s List.mem_cons_self)
    have hrest := ih hm hne.2 fun s' hs' => hr s' (List.mem_cons_of_mem _ hs')
    unfold restore at he'
    rw [rollBack]
    cases hrep : s.replaced <;> rw [hrep] at he' <;> dsimp only at he' <;> simp [he', hrest]

end Scaffold.Commit

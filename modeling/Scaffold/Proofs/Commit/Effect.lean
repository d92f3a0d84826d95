import Mathlib.Data.List.Forall2
import Scaffold.Proofs.Commit.Atomicity

/-! What a commit that works leaves behind. The last draft for a place gives its content to the
file there, every directory stays, and nothing else changes but that missing directories above the
drafts are made. Main statement: `commit_ok_or_same`. -/

namespace Scaffold

open Commit

/-- What writing drafts does to a disk. -/
structure Wrote (d d' : Disk) (written : List Draft) : Prop where
  here : d'.here = d.here
  temporaries : d'.temporaries = []
  /-- The last draft for a place can be read there. -/
  last : ∀ before f after, written = before ++ f :: after →
    (∀ g ∈ after, d.place g.path ≠ d.place f.path) →
      d'.node? f.path = some (.file (Text.encode f.content))
  dirs : ∀ l, d.tree.get? l = some .dir → d'.tree.get? l = some .dir
  elsewhere : ∀ l, (∀ f ∈ written, d.place f.path ≠ l) → d'.tree.get? l = d.tree.get? l ∨
    (d'.tree.get? l = some .dir ∧ d.tree.get? l = none)

namespace Wrote

variable {d d' : Disk} {written : List Draft} {f g : Draft}

/-- Files at other places keep their content. -/
theorem get?_file (h : Wrote d d' written) {l : Location} {content : ByteArray}
    (hl : d.tree.get? l = some (.file content)) (hne : ∀ f ∈ written, d.place f.path ≠ l) :
    d'.tree.get? l = some (.file content) := by
  rcases h.elsewhere l hne with ho | ⟨-, hnone⟩
  · rw [ho, hl]
  · rw [hl] at hnone
    cases hnone

theorem node?_single (h : Wrote d d' [f]) : d'.node? f.path = some (.file (Text.encode f.content)) :=
  h.last [] f [] rfl (by simp)

theorem node?_pair (h : Wrote d d' [f, g]) (hne : d.place f.path ≠ d.place g.path) :
    d'.node? f.path = some (.file (Text.encode f.content)) ∧
      d'.node? g.path = some (.file (Text.encode g.content)) :=
  ⟨h.last [] f [g] rfl (by simpa using hne.symm), h.last [f] g [] rfl (by simp)⟩

/-- The place of a path does not depend on what is written. -/
theorem place_eq (h : Wrote d d' written) (p : Path) : d'.place p = d.place p :=
  Disk.place_eq_of_here h.here p

/-- A path that climbs safely still does when drafts have been written. -/
theorem climbs (h : Wrote d d' written) {p : Path} (hc : d.climbs p = true) :
    d'.climbs p = true :=
  Disk.climbs_of_dirs h.here.symm h.dirs hc

/-- What is found at other places is still found. -/
theorem node?_of_ne (h : Wrote d d' written) {p : Path} {node : Node} (hn : d.node? p = some node)
    (hne : ∀ f ∈ written, d.place f.path ≠ d.place p) : d'.node? p = some node := by
  obtain ⟨hl, hg⟩ := Disk.node?_eq_some_iff.1 hn
  rw [Disk.node?_eq_some_iff, h.place_eq]
  refine ⟨Disk.locate_of_dirs h.here.symm h.dirs hl, ?_⟩
  rcases h.elsewhere _ hne with ho | ⟨-, hnone⟩
  · rw [ho, hg]
  · rw [hg] at hnone
    cases hnone

end Wrote

namespace Commit

variable {d c e : Disk} {written : List Draft} {staged moved : List (Staged Temporary)}

theorem target?_of_moved (hw : Waiting d c staged) (hm : Moved c e moved []) {s : Staged Temporary}
    (hs : s ∈ moved) : c.target? s.path = some (d.place s.path) := by
  obtain ⟨l, hl, -⟩ := hm.targets s hs
  rw [hl, Disk.eq_place_of_target? hl, Disk.place_eq_of_here hw.here]

/-- The first of the drafts for a location decides what lies there; the drafts stand in the order
of `laid`, last first. -/
theorem laid_of_first {before after : List Draft} {f : Draft}
    (hs : List.Forall₂ StagedAs (after ++ f :: before) moved)
    (ht : ∀ s ∈ moved, c.target? s.path = some (d.place s.path))
    (ha : ∀ g ∈ after, d.place g.path ≠ d.place f.path) :
    laid c moved (d.place f.path) = some (.file (Text.encode f.content)) := by
  induction after generalizing moved with
  | nil =>
    rcases hs with _ | ⟨⟨hpath, hcontent⟩, -⟩
    rw [laid, if_pos (by rw [ht _ List.mem_cons_self, hpath]), hcontent]
  | cons g after ih =>
    rcases hs with _ | ⟨⟨hpath, -⟩, hs⟩
    have hg := ht _ List.mem_cons_self
    rw [hpath] at hg
    rw [laid, if_neg, ih hs (fun s hm => ht s (List.mem_cons_of_mem _ hm))
      fun g' hg' => ha g' (List.mem_cons_of_mem _ hg')]
    rw [hpath, hg]
    intro he
    exact ha g List.mem_cons_self (Option.some.inj he)

theorem exists_of_mem_right {α β : Type} {R : α → β → Prop} {as : List α} {bs : List β}
    (h : List.Forall₂ R as bs) {b : β} (hb : b ∈ bs) : ∃ a ∈ as, R a b := by
  induction h with
  | nil => cases hb
  | cons hab _ ih =>
    rcases List.mem_cons.1 hb with rfl | hb
    · exact ⟨_, List.mem_cons_self, hab⟩
    · obtain ⟨a, ha, hab⟩ := ih hb
      exact ⟨a, List.mem_cons_of_mem _ ha, hab⟩

theorem exists_of_mem_left {α β : Type} {R : α → β → Prop} {as : List α} {bs : List β}
    (h : List.Forall₂ R as bs) {a : α} (ha : a ∈ as) : ∃ b ∈ bs, R a b :=
  @exists_of_mem_right _ _ (flip R) _ _ h.flip _ ha

/-- What is related to a list with an entry in it has an entry there as well. -/
theorem exists_of_forall₂_append {α β : Type} {R : α → β → Prop} {as : List α} {b : β}
    {before after : List β} (h : List.Forall₂ R as (before ++ b :: after)) :
    ∃ first a rest, as = first ++ a :: rest ∧ List.Forall₂ R first before ∧ R a b := by
  have hfirst := List.forall₂_take_append as before (b :: after) h
  have hrest := List.forall₂_drop_append as before (b :: after) h
  rcases hd : as.drop before.length with _ | ⟨a, rest⟩ <;> rw [hd] at hrest <;> cases hrest
  next hab _ => exact ⟨_, a, rest, by rw [← hd, List.take_append_drop], hfirst, hab⟩

/-- Moving all staged drafts writes them. -/
theorem wrote_of_moved (hs : List.Forall₂ StagedAs written staged) (hw : Waiting d c staged)
    (hm : Moved c e staged.reverse []) : Wrote d e written := by
  have ht : ∀ s ∈ staged.reverse, c.target? s.path = some (d.place s.path) := fun s hs' =>
    target?_of_moved hw hm hs'
  have hh : e.here = d.here := hm.here.trans hw.here
  refine ⟨hh, List.perm_nil.1 hm.temporaries, fun before f after hwr ha => ?_, fun l hl => ?_,
    fun l hne => ?_⟩
  · have hrev : List.Forall₂ StagedAs (after.reverse ++ f :: before.reverse) staged.reverse := by
      have := List.forall₂_reverse_iff.2 hs
      rwa [hwr, List.reverse_append, List.reverse_cons, List.append_assoc] at this
    obtain ⟨s, hsm, hpath, -⟩ := exists_of_mem_left hs (by rw [hwr]; simp : f ∈ written)
    have hloc : e.locate f.path = .ok (d.place f.path) := by
      have htar := ht s (List.mem_reverse.2 hsm)
      rw [hpath, ← target?_eq_of_sameDirs hm.here hm.dirs] at htar
      exact (Disk.target?_eq_some_iff.1 htar).2
    rw [Disk.node?_eq_some_iff, Disk.place_eq_of_here hh]
    exact ⟨hloc, (hm.get? _).trans (laid_of_first hrev ht fun g hg => ha g (List.mem_reverse.1 hg))⟩
  · exact (hm.dirs l).1 (FileTree.get?_of_le hw.le hl)
  · have hlaid : e.tree.get? l = c.tree.get? l := by
      rw [hm.get?]
      apply laid_of_not_target
      intro s hs' hl
      obtain ⟨f, hf, hpath, -⟩ := exists_of_mem_right hs (List.mem_reverse.1 hs')
      rw [ht s hs', hpath] at hl
      exact hne f hf (Option.some.inj hl)
    rw [hlaid]
    cases hd : d.tree.get? l with
    | some node => exact .inl (FileTree.get?_of_le hw.le hd)
    | none =>
      cases hc : c.tree.get? l with
      | none => exact .inl rfl
      | some node =>
        rcases hw.new l node hc with ho | ⟨rfl, -⟩
        · rw [hd] at ho
          cases ho
        · exact .inr ⟨rfl, rfl⟩

end Commit

variable {d : Disk} {drafts : List Draft}

/-- A commit fails and leaves the disk as it was, or it writes all drafts that it does not leave
alone; then the directories that it makes lie above them. -/
theorem commit_ok_or_same (quiet : d.temporaries = [])
    (hc : ∀ f ∈ drafts, d.climbs f.path = true) :
    (∃ e d', (commit drafts).run d = (.error e, d') ∧ Disk.Same d' d) ∨
    ∃ outcomes written d', (commit drafts).run d = (.ok outcomes, d') ∧
      Accounts d drafts outcomes written ∧ Wrote d d' written ∧
      ∀ l, d'.tree.get? l = some .dir → d.tree.get? l = none → ∃ f ∈ written, Above d l f.path := by
  rcases commit_run quiet hc with he | ⟨outcomes, written, staged, folders, c, d', hrun, hr, hm⟩
  · exact .inl he
  · refine .inr ⟨outcomes, written, d', hrun, hr.accounts,
      wrote_of_moved hr.stagedAs hr.kept.toWaiting hm, fun l hl hnone => ?_⟩
    obtain ⟨p, hp, ha⟩ := hr.kept.above l ((hm.dirs l).2 hl) hnone
    obtain ⟨f, hf, rfl⟩ := List.mem_map.1 hp
    exact ⟨f, hf, ha⟩

/-- Drafts that may overwrite are never left alone. -/
theorem Commit.Accounts.eq_of_always {outcomes : List (Path × Outcome)} {written : List Draft}
    (h : Accounts d drafts outcomes written) (ha : ∀ f ∈ drafts, f.overwrite = .always) :
    written = drafts ∧ outcomes = drafts.map fun f => (f.path, .written) := by
  induction h with
  | nil => exact ⟨rfl, rfl⟩
  | @skipped _ f _ _ _ rule _ _ _ =>
    have hf := ha f List.mem_cons_self
    rw [rule] at hf
    cases hf
  | written _ _ _ ih =>
    obtain ⟨hw, ho⟩ := ih fun g hg => ha g (List.mem_cons_of_mem _ hg)
    exact ⟨by rw [hw], by rw [ho]; rfl⟩

end Scaffold

import Mathlib.Data.List.Induction
import Scaffold.Proofs.Disk.Order
import Scaffold.Proofs.Path.Steps

/-! Where a path leads. The place of a path is read off its steps alone, whatever lies there; if
the path can be followed it leads to its place. A path climbs safely if each `..` in it stands in
a directory. Then whatever lies at the place of the path is also found by following it, and this
stays so when directories are added. -/

namespace Scaffold

namespace Location

/-- Where a part leads from a location: an idle part nowhere else, `..` one up, a name one
down. -/
def follow (l : Location) (part : Text) : Location :=
  if Path.isIdle part then l
  else if part = ['.', '.'] then l.dropLast
  else l ++ [part]

/-- Where parts lead from a location. -/
def followAll (l : Location) (parts : List Text) : Location :=
  parts.foldl follow l

@[simp] theorem followAll_nil (l : Location) : followAll l [] = l := rfl

@[simp] theorem followAll_cons (l : Location) (part : Text) (parts : List Text) :
    followAll l (part :: parts) = followAll (follow l part) parts := rfl

@[simp] theorem followAll_append (l : Location) (parts more : List Text) :
    followAll l (parts ++ more) = followAll (followAll l parts) more :=
  List.foldl_append

theorem follow_idle {part : Text} (h : Path.isIdle part = true) (l : Location) :
    follow l part = l :=
  if_pos h

/-- A part that is a name. -/
def IsName (part : Text) : Prop :=
  Path.isIdle part = false ∧ part ≠ ['.', '.']

theorem follow_name {part : Text} (h : IsName part) (l : Location) : follow l part = l ++ [part] := by
  simp [follow, h.1, h.2]

theorem followAll_filter (l : Location) (parts : List Text) :
    followAll l (parts.filter fun s => !Path.isIdle s) = followAll l parts := by
  induction parts generalizing l with
  | nil => rfl
  | cons part parts ih =>
    by_cases h : Path.isIdle part = true
    · simp [h, follow_idle h, ih]
    · simp [h, ih]

/-- Names lead straight down. -/
theorem followAll_names {parts : List Text} (h : ∀ part ∈ parts, IsName part) (l : Location) :
    followAll l parts = l ++ parts := by
  induction parts generalizing l with
  | nil => simp
  | cons part parts ih =>
    rw [followAll_cons, follow_name (h part (by simp)), ih fun s hs => h s (by simp [hs])]
    simp

end Location

open Location

namespace FileTree

variable {t t' : FileTree} {l : Location} {parts : List Text}

/-- Whether each `..` stands in a directory, when parts are followed from a location. -/
def climbs (t : FileTree) : Location → List Text → Bool
  | _, [] => true
  | l, part :: parts =>
    (part != ['.', '.'] || t.get? l == some .dir) && t.climbs (follow l part) parts

/-- Each part stands in a directory and has the length of a name, so that it can be followed. -/
def Leads (t : FileTree) : Location → List Text → Prop
  | _, [] => True
  | l, part :: parts =>
    t.get? l = some .dir ∧ part.isFileName = true ∧ t.Leads (follow l part) parts

theorem climbs_append (t : FileTree) (l : Location) (parts more : List Text) :
    t.climbs l (parts ++ more) = (t.climbs l parts && t.climbs (followAll l parts) more) := by
  induction parts generalizing l with
  | nil => simp [climbs]
  | cons part parts ih => simp [climbs, ih, Bool.and_assoc]

theorem climbs_filter (t : FileTree) (l : Location) (parts : List Text) :
    t.climbs l (parts.filter fun s => !Path.isIdle s) = t.climbs l parts := by
  induction parts generalizing l with
  | nil => rfl
  | cons part parts ih =>
    by_cases h : Path.isIdle part = true
    · have hup : part ≠ ['.', '.'] := by rintro rfl; simp [Path.isIdle] at h
      simp [climbs, h, hup, follow_idle h, ih]
    · simp [climbs, h, ih]

theorem climbs_of_dirs (h : ∀ k, t.get? k = some .dir → t'.get? k = some .dir)
    (hc : t.climbs l parts = true) : t'.climbs l parts = true := by
  induction parts generalizing l with
  | nil => rfl
  | cons part parts ih =>
    simp only [climbs, Bool.and_eq_true, Bool.or_eq_true, bne_iff_ne, beq_iff_eq] at hc ⊢
    exact ⟨hc.1.imp_right (h l), ih hc.2⟩

theorem leads_append {more : List Text} :
    t.Leads l (parts ++ more) ↔ t.Leads l parts ∧ t.Leads (followAll l parts) more := by
  induction parts generalizing l with
  | nil => simp [Leads]
  | cons part parts ih => simp [Leads, ih, and_assoc]

theorem Leads.isFileName (h : t.Leads l parts) : ∀ part ∈ parts, part.isFileName = true := by
  induction parts generalizing l with
  | nil => simp
  | cons part parts ih =>
    rintro s hs
    rcases List.mem_cons.1 hs with rfl | hs
    · exact h.2.1
    · exact ih h.2.2 s hs

theorem Leads.imp (h : t.Leads l parts)
    (hd : ∀ k, t.get? k = some .dir → t'.get? k = some .dir) : t'.Leads l parts := by
  induction parts generalizing l with
  | nil => trivial
  | cons part parts ih => exact ⟨hd l h.1, h.2.1, ih h.2.2⟩

/-- Parts that can be followed climb safely. -/
theorem Leads.climbs (h : t.Leads l parts) : t.climbs l parts = true := by
  induction parts generalizing l with
  | nil => rfl
  | cons part parts ih => simp [FileTree.climbs, h.1, ih h.2.2]

theorem walk_eq_ok_iff {l' : Location} :
    t.walk l parts = .ok l' ↔ t.Leads l parts ∧ l' = followAll l parts := by
  induction parts generalizing l with
  | nil => simp [walk, Leads, eq_comm]
  | cons part parts ih =>
    unfold walk
    rcases hl : t.get? l with _ | _ | c
    · simp [Leads, hl]
    · have hdots : Text.isFileName ['.', '.'] = true := by decide
      by_cases hi : Path.isIdle part = true
      · have hn : part.isFileName = true := by
          rcases (by simpa [Path.isIdle] using hi : part = [] ∨ part = ['.']) with rfl | rfl <;> rfl
        simp [Leads, hl, hi, hn, ih, follow]
      · by_cases hu : part = ['.', '.']
        · subst hu
          simp [Leads, hl, hi, hdots, ih, follow]
        · by_cases hn : part.isFileName = true <;> simp [Leads, hl, hi, hu, hn, ih, follow]
    · simp [Leads, hl]

/-- If parts climb safely and the place that they lead to is a directory, they can be followed.
The induction goes from the last part back, since the directory that a part stands in follows
from what lies behind it. -/
theorem leads_of_climbs (hc : t.climbs l parts = true) (hn : ∀ s ∈ parts, s.isFileName = true)
    (hd : t.get? (followAll l parts) = some .dir) : t.Leads l parts := by
  induction parts using List.reverseRecOn with
  | nil => trivial
  | append_singleton parts part ih =>
    simp only [climbs_append, climbs, Bool.and_true, Bool.and_eq_true, Bool.or_eq_true, bne_iff_ne,
      beq_iff_eq] at hc
    have hdir : t.get? (followAll l parts) = some .dir := by
      simp only [followAll_append, followAll_cons, followAll_nil] at hd
      by_cases hi : Path.isIdle part = true
      · rwa [follow_idle hi] at hd
      · by_cases hu : part = ['.', '.']
        · exact hc.2.resolve_left fun h => h hu
        · rw [follow_name ⟨by simpa using hi, hu⟩] at hd
          exact get?_parent hd
    exact leads_append.2 ⟨ih hc.1 (fun s hs => hn s (by simp [hs])) hdir,
      hdir, hn part (by simp), trivial⟩

/-- Whatever lies above a directory is a directory. -/
theorem get?_of_prefix {k : Location} (hk : t.get? k = some .dir) (h : l <+: k) :
    t.get? l = some .dir := by
  obtain ⟨rest, rfl⟩ := h
  induction rest using List.reverseRecOn with
  | nil => simpa using hk
  | append_singleton rest name ih =>
    rw [← List.append_assoc] at hk
    exact ih (get?_parent hk)

end FileTree

/-- The last part of a path is a name, as it has to be where a new entry goes. -/
def Path.EndsInName (p : Path) : Prop :=
  ∃ before name, p.segments = before ++ [name] ∧ IsName name

namespace Disk

variable {d d' : Disk} {p : Path} {l : Location} {node : Node}

/-- The location that the segments of a path lead to. -/
def place (d : Disk) (p : Path) : Location :=
  followAll (d.start p) p.segments

/-- Whether each `..` of a path stands in a directory. -/
def climbs (d : Disk) (p : Path) : Bool :=
  d.tree.climbs (d.start p) p.segments

theorem place_eq_steps (d : Disk) (p : Path) : d.place p = followAll (d.start p) p.steps :=
  (followAll_filter _ _).symm

theorem climbs_eq_steps (d : Disk) (p : Path) : d.climbs p = d.tree.climbs (d.start p) p.steps :=
  (FileTree.climbs_filter _ _ _).symm

theorem start_eq_of_here (h : d.here = d'.here) (p : Path) : d.start p = d'.start p := by
  simp [start, h]

theorem place_eq_of_here (h : d.here = d'.here) (p : Path) : d.place p = d'.place p := by
  simp [place, start_eq_of_here h]

theorem climbs_of_dirs (hh : d.here = d'.here)
    (h : ∀ k, d.tree.get? k = some .dir → d'.tree.get? k = some .dir) (hc : d.climbs p = true) :
    d'.climbs p = true := by
  rw [climbs, ← start_eq_of_here hh]
  exact FileTree.climbs_of_dirs h hc

theorem locate_eq_ok_iff :
    d.locate p = .ok l ↔ (p.isFollowable = true ∧ p.text ≠ [] ∧
      d.tree.Leads (d.start p) p.segments) ∧ l = d.place p := by
  unfold locate
  by_cases hf : p.isFollowable = true
  · by_cases he : p.text = []
    · simp [hf, he]
    · simp [hf, he, FileTree.walk_eq_ok_iff, place, Path.segments]
  · simp [hf]

theorem node?_eq_some_iff :
    d.node? p = some node ↔ d.locate p = .ok (d.place p) ∧ d.tree.get? (d.place p) = some node := by
  unfold node?
  cases hl : d.locate p with
  | error e => simp
  | ok l =>
    obtain ⟨-, rfl⟩ := locate_eq_ok_iff.1 hl
    simp

/-- A path that leads to something climbs safely. -/
theorem climbs_of_node? (h : d.node? p = some node) : d.climbs p = true := by
  obtain ⟨⟨-, -, hlead⟩, -⟩ := locate_eq_ok_iff.1 (node?_eq_some_iff.1 h).1
  exact hlead.climbs

theorem isSome_kind?_iff : (d.kind? p).isSome = true ↔ ∃ node, d.node? p = some node := by
  rw [kind?, Option.isSome_map, Option.isSome_iff_exists]

theorem kind?_eq_dir_iff : d.kind? p = some .dir ↔ d.node? p = some .dir := by
  rcases hn : d.node? p with _ | _ | _ <;> simp [kind?, hn, Node.kind]

/-- Paths lead where they led when directories are added. -/
theorem locate_of_dirs (hh : d.here = d'.here)
    (hd : ∀ k, d.tree.get? k = some .dir → d'.tree.get? k = some .dir)
    (h : d.locate p = .ok l) : d'.locate p = .ok l := by
  obtain ⟨⟨hf, he, hl⟩, rfl⟩ := locate_eq_ok_iff.1 h
  rw [locate_eq_ok_iff, ← start_eq_of_here hh, ← place_eq_of_here hh]
  exact ⟨⟨hf, he, hl.imp hd⟩, rfl⟩

theorem node?_of_le (hh : d.here = d'.here) (h : d.tree ≤ d'.tree) (hn : d.node? p = some node) :
    d'.node? p = some node := by
  obtain ⟨hl, hg⟩ := node?_eq_some_iff.1 hn
  rw [node?_eq_some_iff, ← place_eq_of_here hh]
  exact ⟨locate_of_dirs hh (fun _ => FileTree.get?_of_le h) hl, FileTree.get?_of_le h hg⟩

/-! ### Targets -/

theorem target?_eq_some_iff :
    d.target? p = some l ↔ p.EndsInName ∧ d.locate p = .ok l := by
  unfold Path.EndsInName
  obtain ⟨before, name, hs⟩ : ∃ before name, p.segments = before ++ [name] :=
    ⟨_, _, (List.dropLast_concat_getLast (Text.splitOn_ne_nil _ _)).symm⟩
  have hlast : (Text.splitOn '/' p.text).getLast? = some name := by
    simp [show Text.splitOn '/' p.text = before ++ [name] from hs]
  have hname : (∃ before' name', p.segments = before' ++ [name'] ∧ IsName name') ↔ IsName name := by
    refine ⟨?_, fun h => ⟨before, name, hs, h⟩⟩
    rintro ⟨before', name', hs', h⟩
    rw [hs] at hs'
    obtain ⟨-, hn⟩ := List.append_inj' hs' rfl
    simp_all
  unfold target?
  rw [hlast, hname]
  by_cases hn : IsName name
  · simp [hn, hn.1, hn.2, Except.toOption]
    cases d.locate p <;> simp
  · have : (Path.isIdle name || name == ['.', '.']) = true := by
      by_contra hc
      exact hn (by simpa [IsName] using hc)
    simp [this, hn]

theorem target?_of_dirs (hh : d.here = d'.here)
    (hd : ∀ k, d.tree.get? k = some .dir → d'.tree.get? k = some .dir)
    (h : d.target? p = some l) : d'.target? p = some l := by
  rw [target?_eq_some_iff] at h ⊢
  exact ⟨h.1, locate_of_dirs hh hd h.2⟩

theorem eq_place_of_target? (h : d.target? p = some l) : l = d.place p :=
  (locate_eq_ok_iff.1 (target?_eq_some_iff.1 h).2).2

/-- A target lies in a directory. -/
theorem get?_dropLast_of_target? (h : d.target? p = some l) :
    l ≠ [] ∧ d.tree.get? l.dropLast = some .dir := by
  obtain ⟨⟨before, name, hs, hn⟩, hloc⟩ := target?_eq_some_iff.1 h
  obtain ⟨⟨-, -, hlead⟩, rfl⟩ := locate_eq_ok_iff.1 hloc
  rw [hs, FileTree.leads_append] at hlead
  simpa [place, hs, follow_name hn] using hlead.2.1

/-- A path that leads to a file can be a target: what ends in no name leads to a directory. -/
theorem target?_of_file {content : ByteArray} (h : d.node? p = some (.file content)) :
    d.target? p = some (d.place p) := by
  obtain ⟨hloc, hg⟩ := node?_eq_some_iff.1 h
  obtain ⟨before, name, hs⟩ : ∃ before name, p.segments = before ++ [name] :=
    ⟨_, _, (List.dropLast_concat_getLast (Text.splitOn_ne_nil _ _)).symm⟩
  obtain ⟨⟨-, -, hlead⟩, -⟩ := locate_eq_ok_iff.1 hloc
  rw [hs, FileTree.leads_append] at hlead
  have hdir : d.tree.get? (followAll (d.start p) before) = some .dir := hlead.2.1
  rw [place, hs, followAll_append, followAll_cons, followAll_nil] at hg
  refine target?_eq_some_iff.2 ⟨⟨before, name, hs, ?_, ?_⟩, hloc⟩
  · rw [← Bool.not_eq_true]
    intro hi
    rw [follow_idle hi, hdir] at hg
    cases hg
  · rintro rfl
    have hup : follow (followAll (d.start p) before) ['.', '.'] =
        (followAll (d.start p) before).dropLast := rfl
    rw [hup, FileTree.get?_dropLast hdir] at hg
    cases hg

/-- If a path climbs safely and can be a target at all, then whatever lies at its place is found
by following it. -/
theorem target?_of_climbs (hc : d.climbs p = true) (hh : d'.here = d.here)
    (ht : d'.target? p = some l) (hl : d.tree.get? l = some node) :
    d.target? p = some l ∧ d.node? p = some node := by
  obtain ⟨⟨before, name, hs, hn⟩, hloc⟩ := target?_eq_some_iff.1 ht
  obtain ⟨⟨hf, he, hlead⟩, rfl⟩ := locate_eq_ok_iff.1 hloc
  rw [start_eq_of_here hh, hs] at hlead
  rw [place_eq_of_here hh] at hl ⊢
  rw [climbs, hs, FileTree.climbs_append, Bool.and_eq_true] at hc
  have hdir : d.tree.get? (followAll (d.start p) before) = some .dir := by
    simp only [place, hs, followAll_append, followAll_cons, followAll_nil, follow_name hn] at hl
    exact FileTree.get?_parent hl
  have hlead' : d.tree.Leads (d.start p) p.segments := by
    rw [hs, FileTree.leads_append]
    exact ⟨FileTree.leads_of_climbs hc.1
      (fun s hm => hlead.isFileName s (List.mem_append_left _ hm)) hdir,
      hdir, hlead.isFileName name (by simp), trivial⟩
  have hloc' := locate_eq_ok_iff.2 ⟨⟨hf, he, hlead'⟩, rfl⟩
  exact ⟨target?_eq_some_iff.2 ⟨⟨before, name, hs, hn⟩, hloc'⟩, node?_eq_some_iff.2 ⟨hloc', hl⟩⟩

/-- If a path climbs safely and can be followed when directories have been added, then it can be
followed as soon as something lies at its place. -/
theorem locate_of_climbs (hc : d.climbs p = true) (hh : d'.here = d.here) (hle : d.tree ≤ d'.tree)
    (hl : d'.locate p = .ok l) (hn : d.tree.get? l = some node) : d.locate p = .ok l := by
  obtain ⟨⟨hf, he, hlead⟩, rfl⟩ := locate_eq_ok_iff.1 hl
  rw [start_eq_of_here hh] at hlead
  rw [place_eq_of_here hh] at hn ⊢
  obtain ⟨before, last, hs⟩ : ∃ before last, p.segments = before ++ [last] :=
    ⟨_, _, (List.dropLast_concat_getLast (Text.splitOn_ne_nil _ _)).symm⟩
  rw [climbs, hs, FileTree.climbs_append, Bool.and_eq_true] at hc
  rw [hs, FileTree.leads_append] at hlead
  have hplace : d.place p = follow (followAll (d.start p) before) last := by
    rw [place, hs, followAll_append, followAll_cons, followAll_nil]
  -- the last part stands in a directory that was there before, whatever kind of part it is
  have hdir : d.tree.get? (followAll (d.start p) before) = some .dir := by
    by_cases hi : Path.isIdle last = true
    · rw [hplace, follow_idle hi] at hn
      have hnew := hle _ _ hn
      rw [hlead.2.1] at hnew
      rw [hn, hnew]
    · by_cases hu : last = ['.', '.']
      · simpa [FileTree.climbs, hu] using hc.2
      · rw [hplace, follow_name ⟨by simpa using hi, hu⟩] at hn
        exact FileTree.get?_parent hn
  refine locate_eq_ok_iff.2 ⟨⟨hf, he, ?_⟩, rfl⟩
  rw [hs, FileTree.leads_append]
  exact ⟨FileTree.leads_of_climbs hc.1 hlead.1.isFileName hdir, hdir, hlead.2.2.1, trivial⟩

/-! ### Names below a directory -/

/-- A text without slashes as a path of one name. -/
theorem steps_of_isName {s : Text} (hs : IsName s) (h : '/' ∉ s) :
    (⟨s⟩ : Path).steps = [s] ∧ (⟨s⟩ : Path).isAbsolute = false := by
  constructor
  · rw [Path.steps, Path.segments, Text.splitOn_of_not_mem h]
    simp [hs.1]
  · cases s with
    | nil => rfl
    | cons c s =>
      have hc : c ≠ '/' := by
        rintro rfl
        exact h List.mem_cons_self
      simpa [Path.isAbsolute] using hc

theorem place_join_name (d : Disk) (p : Path) {s : Text} (hs : IsName s) (h : '/' ∉ s) :
    d.place (p.join ⟨s⟩) = d.place p ++ [s] := by
  obtain ⟨hsteps, ha⟩ := steps_of_isName hs h
  rw [place_eq_steps, place_eq_steps, start, Path.isAbsolute_join p ha, Path.steps_join p ha,
    hsteps, followAll_append, followAll_cons, followAll_nil, follow_name hs, ← start]

theorem climbs_join_name (p : Path) {s : Text} (hs : IsName s) (h : '/' ∉ s)
    (hc : d.climbs p = true) : d.climbs (p.join ⟨s⟩) = true := by
  obtain ⟨hsteps, ha⟩ := steps_of_isName hs h
  rw [climbs_eq_steps] at hc ⊢
  rw [start, Path.isAbsolute_join p ha, ← start, Path.steps_join p ha, hsteps,
    FileTree.climbs_append, hc]
  simp [FileTree.climbs, hs.2]

end Disk
end Scaffold

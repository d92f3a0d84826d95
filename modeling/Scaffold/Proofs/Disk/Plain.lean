import Scaffold.Proofs.Disk.Place

/-! Plain paths: every part between their slashes is a name. A plain path is made up of these
names, leads straight down from where relative paths start, and the paths above it are the
beginnings of the list of names, down to the empty path. -/

namespace Scaffold

open Location

instance (s : Text) : Decidable (IsName s) :=
  inferInstanceAs (Decidable (_ ∧ _))

namespace Path

/-- Every part of a path is a name. -/
def Plain (p : Path) : Prop :=
  ∀ s ∈ p.segments, IsName s

instance (p : Path) : Decidable p.Plain :=
  inferInstanceAs (Decidable (∀ s ∈ p.segments, IsName s))

/-- The path that names make up. -/
def ofNames (names : List Text) : Path :=
  ⟨Text.join ['/'] names⟩

variable {p q : Path} {names : List Text}

/-! ### Names -/

theorem ofNames_segments (p : Path) : ofNames p.segments = p :=
  congrArg Path.mk (Text.join_splitOn '/' p.text)

theorem segments_ofNames (hs : ∀ s ∈ names, '/' ∉ s) (hne : names ≠ []) :
    (ofNames names).segments = names :=
  Text.splitOn_join hs hne

theorem segments_ne_nil (p : Path) : p.segments ≠ [] :=
  Text.splitOn_ne_nil _ _

theorem slash_not_mem_segments (p : Path) : ∀ s ∈ p.segments, '/' ∉ s :=
  fun _ hs => Text.not_mem_of_mem_splitOn hs

/-- The names before the last one. -/
theorem segments_eq_dropLast (p : Path) :
    p.segments = p.segments.dropLast ++ [p.segments.getLast p.segments_ne_nil] :=
  (List.dropLast_concat_getLast _).symm

theorem Plain.ne_nil (h : p.Plain) : p.text ≠ [] := by
  intro he
  have hseg : p.segments = [[]] := by rw [segments, he]; rfl
  have hname := h [] (by simp [hseg])
  exact absurd hname.1 (by decide)

/-- Nothing is written in front of the first name. -/
theorem Plain.front (h : p.Plain) : p.front = [] ∧ p.isAbsolute = false := by
  rcases p.front_cases with ⟨-, r, ht⟩ | ⟨-, ht | ⟨r, ht⟩⟩ | hfront
  · have hname := h [] (by simp [segments, ht])
    exact absurd hname.1 (by decide)
  · have hname := h ['.'] (by simp [segments, ht, Text.splitOn])
    exact absurd hname.1 (by decide)
  · have hs : Text.splitOn '/' ('.' :: '/' :: r) = ['.'] :: Text.splitOn '/' r :=
      Text.splitOn_append_cons '/' ['.'] r
    have hname := h ['.'] (by simp [segments, ht, hs])
    exact absurd hname.1 (by decide)
  · exact hfront

theorem Plain.parts (h : p.Plain) : p.parts = p.segments := by
  simp [Path.parts, segments, h.front.1]

theorem Plain.endsInName (h : p.Plain) : p.EndsInName :=
  ⟨_, _, p.segments_eq_dropLast, h _ (List.getLast_mem _)⟩

theorem plain_ofNames (hs : ∀ s ∈ names, '/' ∉ s) (hn : ∀ s ∈ names, IsName s) (hne : names ≠ []) :
    (ofNames names).Plain := by
  rw [Plain, segments_ofNames hs hne]
  exact hn

/-! ### Paths above -/

/-- Names are kept when a path is made of parts. -/
theorem ofParts_names (hn : ∀ s ∈ names, IsName s) : ofParts [] names = ofNames names := by
  rcases List.eq_nil_or_concat' names with rfl | ⟨init, last, rfl⟩
  · rfl
  · have hlast : isIdle last = false := (hn last (by simp)).1
    simp [ofParts, ofNames, hlast]

theorem ancestorsOf_concat (hn : ∀ s ∈ names, IsName s) {n : Text} (h : IsName n) :
    ancestorsOf [] (names ++ [n]).reverse = ofNames names :: ancestorsOf [] names.reverse := by
  rw [List.reverse_append, List.reverse_singleton, List.singleton_append, ancestorsOf,
    if_neg (by simp [h.1]), List.reverse_reverse, ofParts_names hn]

theorem Plain.properAncestors (h : p.Plain) :
    p.properAncestors = ancestorsOf [] p.segments.reverse := by
  rw [Path.properAncestors, h.front.1, h.parts]

theorem Plain.parent? (h : p.Plain) : p.parent? = some (ofNames p.segments.dropLast) := by
  have hn : ∀ s ∈ p.segments.dropLast, IsName s := fun s hs => h s (List.dropLast_subset _ hs)
  rw [Path.parent?, h.properAncestors, segments_eq_dropLast,
    ancestorsOf_concat hn (h _ (List.getLast_mem p.segments_ne_nil)), List.head?_cons,
    ← segments_eq_dropLast]

/-- The path of the first names of a plain path is plain. -/
theorem Plain.dropLast (h : p.Plain) (hne : p.segments.dropLast ≠ []) :
    (ofNames p.segments.dropLast).Plain ∧
      (ofNames p.segments.dropLast).segments = p.segments.dropLast := by
  have hs : ∀ s ∈ p.segments.dropLast, '/' ∉ s := fun s hm =>
    p.slash_not_mem_segments s (List.dropLast_subset _ hm)
  exact ⟨plain_ofNames hs (fun s hm => h s (List.dropLast_subset _ hm)) hne,
    segments_ofNames hs hne⟩

/-! ### Following -/

/-- A beginning of a path can be followed if the path is not too long. -/
theorem isFollowable_of_infix (h : q.text <:+: p.text) (hp : p.isFollowable = true) :
    q.isFollowable = true := by
  obtain ⟨before, after, ht⟩ := h
  simp only [isFollowable, Bool.and_eq_true, decide_eq_true_eq, Bool.not_eq_true',
    List.contains_eq_mem, decide_eq_false_iff_not, ← ht, Text.byteSize_append, List.mem_append,
    not_or] at hp ⊢
  exact ⟨by omega, hp.2.1.2⟩

theorem infix_join (h : q.isAbsolute = false) :
    p.text <:+: (p.join q).text ∧ q.text <:+: (p.join q).text := by
  unfold join
  rw [if_neg (by simp [h])]
  split
  · exact ⟨⟨[], q.text, rfl⟩, ⟨p.text, [], by simp⟩⟩
  · exact ⟨⟨[], '/' :: q.text, rfl⟩, ⟨p.text ++ ['/'], [], by simp⟩⟩

theorem isFollowable_of_concat {n : Text} (h : (ofNames (names ++ [n])).isFollowable = true) :
    (ofNames names).isFollowable = true :=
  isFollowable_of_infix (Text.join_prefix_join _ (List.prefix_append names [n])).isInfix h

end Path

namespace Disk

variable {d : Disk} {p q : Path} {names : List Text}

theorem start_of_plain (h : p.Plain) (d : Disk) : d.start p = d.here := by
  simp [start, h.front.2]

theorem place_of_plain (h : p.Plain) (d : Disk) : d.place p = d.here ++ p.segments := by
  rw [place, start_of_plain h, followAll_names h]

/-- Plain paths with one place are equal. -/
theorem eq_of_place_eq (hp : p.Plain) (hq : q.Plain) (h : d.place p = d.place q) : p = q := by
  rw [place_of_plain hp, place_of_plain hq, List.append_cancel_left_eq] at h
  rw [← p.ofNames_segments, h, q.ofNames_segments]

/-- A directory in which a temporary file can be made can be followed. -/
theorem isFollowable_of_temporaryPath (h : (d.temporaryPath q).isFollowable = true)
    (hq : q.isAbsolute = false) : q.isFollowable = true :=
  Path.isFollowable_of_infix ((Path.infix_join hq).2.trans (Path.infix_join rfl).1) h

theorem temporaryPath_eq_of_here {d' : Disk} (h : d'.here = d.here) (q : Path) :
    d'.temporaryPath q = d.temporaryPath q := by
  simp [temporaryPath, h]

/-- The directory that relative paths start from is found under its name. -/
theorem node?_dot (h : d.tree.get? d.here = some .dir) : d.node? "." = some .dir := by
  have hplace : d.place "." = d.here := rfl
  rw [node?_eq_some_iff, locate_eq_ok_iff, hplace]
  exact ⟨⟨⟨rfl, by decide, h, rfl, trivial⟩, rfl⟩, h⟩

theorem climbs_of_plain (h : p.Plain) (d : Disk) : d.climbs p = true := by
  have hnames : ∀ (l : Location) (parts : List Text), (∀ s ∈ parts, IsName s) →
      d.tree.climbs l parts = true := by
    intro l parts hn
    induction parts generalizing l with
    | nil => rfl
    | cons s parts ih =>
      have hs := hn s List.mem_cons_self
      simp [FileTree.climbs, hs.2, ih _ fun s hm => hn s (List.mem_cons_of_mem _ hm)]
  exact hnames _ _ h

/-- A plain path can be followed to a location in a directory. -/
theorem locate_of_plain (h : p.Plain) (hf : p.isFollowable = true)
    (hn : ∀ s ∈ p.segments, s.isFileName = true)
    (hd : d.tree.get? (d.here ++ p.segments.dropLast) = some .dir) :
    d.locate p = .ok (d.place p) := by
  refine locate_eq_ok_iff.2 ⟨⟨hf, h.ne_nil, ?_⟩, rfl⟩
  have hc := climbs_of_plain h d
  rw [climbs, start_of_plain h, p.segments_eq_dropLast, FileTree.climbs_append,
    Bool.and_eq_true] at hc
  have hinit : ∀ s ∈ p.segments.dropLast, IsName s := fun s hs => h s (List.dropLast_subset _ hs)
  rw [start_of_plain h, p.segments_eq_dropLast, FileTree.leads_append, followAll_names hinit]
  refine ⟨FileTree.leads_of_climbs hc.1 (fun s hs => hn s (List.dropLast_subset _ hs)) ?_, hd,
    hn _ (List.getLast_mem _), trivial⟩
  rwa [followAll_names hinit]

end Disk
end Scaffold

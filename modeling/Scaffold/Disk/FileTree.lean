import Scaffold.Text.Basic

/-! Trees of files and directories. A location is the list of names that leads to it from the
root. What lies at a location is told by `get?`; whatever lies somewhere lies in a directory,
and every operation keeps it so. Each operation has one lemma that says what it does to
`get?`. -/

namespace Scaffold

/-- The names that lead from the root to a place. -/
abbrev Location := List Text

/-- What lies at a location. -/
inductive Node where
  | dir
  | file (content : ByteArray)

-- Not derived, so that the test for bytes is this one whatever else is imported.
instance : DecidableEq Node
  | .dir, .dir => isTrue rfl
  | .dir, .file _ => isFalse nofun
  | .file _, .dir => isFalse nofun
  | .file b, .file b' =>
    match ByteArray.decEq b b' with
    | isTrue h => isTrue (congrArg Node.file h)
    | isFalse h => isFalse fun e => h (Node.file.inj e)

/-- What a list of entries says about a location; the root is always a directory. -/
def Node.find (entries : List (Location × Node)) (l : Location) : Option Node :=
  if l = [] then some .dir else entries.lookup l

/-- A tree of files and directories. -/
structure FileTree where
  entries : List (Location × Node)
  parent_eq_dir : ∀ l name node,
    Node.find entries (l ++ [name]) = some node → Node.find entries l = some .dir

namespace FileTree

/-- What lies at a location, if anything. -/
def get? (t : FileTree) (l : Location) : Option Node :=
  Node.find t.entries l

/-- A tree with nothing in it. -/
def empty : FileTree :=
  ⟨[], by simp [Node.find]⟩

@[simp] theorem get?_root (t : FileTree) : t.get? [] = some .dir := by
  simp [get?, Node.find]

theorem get?_parent {t : FileTree} {l : Location} {name : Text} {node : Node}
    (h : t.get? (l ++ [name]) = some node) : t.get? l = some .dir :=
  t.parent_eq_dir l name node h

theorem get?_dropLast {t : FileTree} {l : Location} {node : Node} (h : t.get? l = some node) :
    t.get? l.dropLast = some .dir := by
  rcases List.eq_nil_or_concat l with rfl | ⟨p, n, rfl⟩
  · simp
  · simpa using get?_parent (by simpa using h)

/-! ### Entries -/

theorem lookup_filter (keep : Location → Bool) (es : List (Location × Node)) (k : Location) :
    (es.filter fun e => keep e.1).lookup k = if keep k then es.lookup k else none := by
  induction es with
  | nil => simp
  | cons e es ih =>
    obtain ⟨a, n⟩ := e
    by_cases hk : k = a
    · subst hk
      by_cases hp : keep k
      · simp [List.filter_cons_of_pos, hp]
      · simpa [List.filter_cons_of_neg, hp] using ih
    · have hb : (k == a) = false := beq_eq_false_iff_ne.2 hk
      by_cases hp : keep a
      · simp [List.filter_cons_of_pos, hp, List.lookup_cons, hb, ih]
      · simp [List.filter_cons_of_neg, hp, List.lookup_cons, hb, ih]

/-- The entries with one location set anew. -/
def put (es : List (Location × Node)) (l : Location) (n : Node) : List (Location × Node) :=
  (l, n) :: es.filter fun e => e.1 != l

theorem find_put {es : List (Location × Node)} {l : Location} {n : Node} (h : l ≠ [])
    (k : Location) : Node.find (put es l n) k = if k = l then some n else Node.find es k := by
  by_cases hk : k = []
  · subst hk; simp [Node.find, Ne.symm h]
  · by_cases hl : k = l
    · simp [Node.find, put, hl, h]
    · simp [Node.find, put, hk, hl, List.lookup_cons, beq_eq_false_iff_ne.2 hl,
        lookup_filter (· != l)]

/-- The entries without one location. -/
def drop (es : List (Location × Node)) (l : Location) : List (Location × Node) :=
  es.filter fun e => e.1 != l

theorem find_drop {es : List (Location × Node)} {l : Location} (h : l ≠ []) (k : Location) :
    Node.find (drop es l) k = if k = l then none else Node.find es k := by
  by_cases hk : k = []
  · subst hk; simp [Node.find, Ne.symm h]
  · by_cases hl : k = l <;> simp [Node.find, drop, hk, hl, h, lookup_filter (· != l)]

/-! ### Operations -/

/-- Make a directory where nothing is, in a directory. -/
def makeDir? (t : FileTree) (l : Location) : Option FileTree :=
  if h : l ≠ [] ∧ t.get? l = none ∧ t.get? l.dropLast = some .dir then
    some ⟨put t.entries l .dir, by
      obtain ⟨hl, hnone, hdir⟩ := h
      intro p name node hn
      rw [find_put hl] at hn ⊢
      split
      · rfl
      · split at hn
        · next hp => rw [← hp] at hdir; simpa [get?] using hdir
        · exact t.parent_eq_dir p name node hn⟩
  else none

/-- Write a file where nothing or a file is, in a directory. -/
def writeFile? (t : FileTree) (l : Location) (content : ByteArray) : Option FileTree :=
  if h : l ≠ [] ∧ t.get? l ≠ some .dir ∧ t.get? l.dropLast = some .dir then
    some ⟨put t.entries l (.file content), by
      obtain ⟨hl, hfile, hdir⟩ := h
      intro p name node hn
      rw [find_put hl] at hn ⊢
      split at hn
      · next hp =>
        have hne : p ≠ l := by
          intro e
          have := congrArg List.length (hp.trans e.symm)
          simp at this
        rw [if_neg hne]
        rw [← hp] at hdir
        simpa [get?] using hdir
      · have hp := t.parent_eq_dir p name node hn
        have hne : p ≠ l := by rintro rfl; exact hfile hp
        rw [if_neg hne]
        exact hp⟩
  else none

/-- Whether nothing lies directly in a directory. -/
def isEmptyDir (t : FileTree) (l : Location) : Bool :=
  t.entries.all fun e => e.1 == [] || e.1.dropLast != l

theorem lookup_eq_none_of_isEmptyDir {t : FileTree} {l : Location} (h : t.isEmptyDir l = true)
    (name : Text) : t.get? (l ++ [name]) = none := by
  have hne : l ++ [name] ≠ [] := by simp
  simp only [get?, Node.find, hne, if_false]
  rw [List.lookup_eq_none_iff]
  rintro ⟨k, n⟩ hp
  have := List.all_eq_true.1 h _ hp
  simp only [Bool.or_eq_true, beq_iff_eq, bne_iff_ne, ne_eq] at this
  rw [bne_iff_ne]
  rintro rfl
  simp at this

/-- Remove a file. -/
def removeFile? (t : FileTree) (l : Location) : Option FileTree :=
  if h : t.get? l ≠ none ∧ t.get? l ≠ some .dir then
    some ⟨drop t.entries l, by
      obtain ⟨-, hfile⟩ := h
      have hl : l ≠ [] := by rintro rfl; simp at hfile
      intro p name node hn
      rw [find_drop hl] at hn ⊢
      split at hn
      · simp at hn
      · have hp := t.parent_eq_dir p name node hn
        have hne : p ≠ l := by
          rintro rfl
          exact hfile hp
        rw [if_neg hne]
        exact hp⟩
  else none

/-- Remove a directory with nothing in it. -/
def removeDir? (t : FileTree) (l : Location) : Option FileTree :=
  if h : l ≠ [] ∧ t.get? l = some .dir ∧ t.isEmptyDir l = true then
    some ⟨drop t.entries l, by
      obtain ⟨hl, -, hempty⟩ := h
      intro p name node hn
      rw [find_drop hl] at hn ⊢
      split at hn
      · simp at hn
      · have hne : p ≠ l := by
          rintro rfl
          have := lookup_eq_none_of_isEmptyDir hempty name
          rw [get?, hn] at this
          simp at this
        rw [if_neg hne]
        exact t.parent_eq_dir p name node hn⟩
  else none

/-- Remove a location with everything below it. -/
def erase (t : FileTree) (l : Location) : FileTree :=
  ⟨t.entries.filter fun e => !l.isPrefixOf e.1, by
    intro p name node hn
    have hne : p ++ [name] ≠ [] := by simp
    rw [Node.find, if_neg hne, lookup_filter fun k => !l.isPrefixOf k] at hn
    split at hn
    · next hpre =>
      have hp := t.parent_eq_dir p name node (by rw [Node.find, if_neg hne]; exact hn)
      by_cases hnil : p = []
      · simp [Node.find, hnil]
      · rw [Node.find, if_neg hnil] at hp ⊢
        rw [lookup_filter fun k => !l.isPrefixOf k, if_pos]
        · exact hp
        · simp only [Bool.not_eq_true', ← Bool.not_eq_true, List.isPrefixOf_iff_prefix] at hpre ⊢
          exact fun hpp => hpre (hpp.trans (List.prefix_append p [name]))
    · simp at hn⟩

/-! ### What the operations do -/

theorem get?_of_makeDir? {t t' : FileTree} {l : Location} (h : t.makeDir? l = some t')
    (k : Location) : t'.get? k = if k = l then some .dir else t.get? k := by
  unfold makeDir? at h
  split at h
  · next hl => cases h; exact find_put hl.1 k
  · simp at h

theorem get?_of_writeFile? {t t' : FileTree} {l : Location} {content : ByteArray}
    (h : t.writeFile? l content = some t') (k : Location) :
    t'.get? k = if k = l then some (.file content) else t.get? k := by
  unfold writeFile? at h
  split at h
  · next hl => cases h; exact find_put hl.1 k
  · simp at h

theorem get?_of_removeFile? {t t' : FileTree} {l : Location} (h : t.removeFile? l = some t')
    (k : Location) : t'.get? k = if k = l then none else t.get? k := by
  unfold removeFile? at h
  split at h
  · next hl =>
    cases h
    exact find_drop (by rintro rfl; exact hl.2 (get?_root t)) k
  · simp at h

theorem get?_of_removeDir? {t t' : FileTree} {l : Location} (h : t.removeDir? l = some t')
    (k : Location) : t'.get? k = if k = l then none else t.get? k := by
  unfold removeDir? at h
  split at h
  · next hl => cases h; exact find_drop hl.1 k
  · simp at h

end FileTree
end Scaffold

import Scaffold.Proofs.Path.Steps

/-! The components of a path are what its front stands for and then its steps. Joining a relative
path adds its steps at the end, so a path that is cut off another one leads back to it when it is
joined to the base again. Main statements: `components_join` and `components_join_stripPrefix?`. -/

namespace Scaffold.Path

variable {base p q r : Path} {t u : Text} {bs : List Text}

/-! ### Front and steps -/

/-- The component that a step stands for. -/
def Component.ofStep (s : Text) : Component :=
  if s = ("..": Text) then .up else .name s

theorem filterMap_component? (bs : List Text) :
    bs.filterMap component? = (bs.filter fun s => !isIdle s).map Component.ofStep := by
  induction bs with
  | nil => rfl
  | cons s bs ih =>
    cases hs : isIdle s with
    | true => simp [component?, hs, ih]
    | false =>
      rw [List.filter_cons_of_pos (by simp [hs]), List.map_cons, ← ih]
      refine List.filterMap_cons_some ?_
      rw [component?, hs, if_neg Bool.false_ne_true, Component.ofStep]
      split <;> rfl

theorem components_eq (p : Path) :
    p.components = p.frontComponents ++ p.steps.map Component.ofStep := by
  rw [components, filterMap_component?, ← steps_eq_parts]

theorem length_frontComponents_le (p : Path) : p.frontComponents.length ≤ 1 := by
  unfold frontComponents
  split_ifs <;> simp

/-- What comes behind the start of a text does not change the front, unless it goes on with the name
that a dot begins. -/
theorem front_append (ht : t ≠ []) (h : t = ['.'] → ∀ c ∈ u.head?, c = '/') :
    front ⟨t ++ u⟩ = front ⟨t⟩ := by
  obtain ⟨c, t, rfl⟩ := List.exists_cons_of_ne_nil ht
  by_cases hs : c = '/'
  · subst hs
    rfl
  · by_cases hd : c = '.'
    · subst hd
      rcases t with _ | ⟨d, t⟩
      · rcases u with _ | ⟨d, u⟩
        · rfl
        · obtain rfl := h rfl d rfl
          rfl
      · by_cases hd : d = '/'
        · subst hd
          rfl
        · simp [front, hd]
    · simp [front, hs, hd]

theorem frontComponents_congr (h : p.front = q.front) :
    p.frontComponents = q.frontComponents := by
  rw [frontComponents, h, ← frontComponents]

/-- A path without a front begins with a step, if it is not empty. -/
theorem steps_ne_nil (hf : p.front = []) (hne : p.text ≠ []) : p.steps ≠ [] := by
  obtain ⟨s, ss, hs⟩ := List.exists_cons_of_ne_nil (Text.splitOn_ne_nil '/' p.text)
  have ht : p.text = Text.join ['/'] (s :: ss) := by rw [← hs, Text.join_splitOn]
  have hstep : isIdle s = false := by
    rw [← Bool.not_eq_true]
    intro hidle
    obtain rfl | rfl : s = [] ∨ s = ['.'] := by simpa [isIdle] using hidle
    · rcases ss with _ | ⟨s', ss⟩
      · exact hne (by simpa [Text.join] using ht)
      · rw [Text.join_cons_cons] at ht
        simp [front, ht] at hf
    · rcases ss with _ | ⟨s', ss⟩
      · simp [Text.join] at ht
        simp [front, ht] at hf
      · rw [Text.join_cons_cons] at ht
        simp [front, ht] at hf
  rw [steps, segments, hs, List.filter_cons_of_pos (by simp [hstep])]
  exact List.cons_ne_nil _ _

/-- Only the empty path has no components. -/
theorem components_eq_nil_iff : p.components = [] ↔ p.text = [] := by
  constructor
  · intro h
    rw [components_eq, List.append_eq_nil_iff, List.map_eq_nil_iff] at h
    obtain ⟨hfront, hsteps⟩ := h
    by_contra hne
    rcases p.front_cases with ⟨hf, -⟩ | ⟨hf, -⟩ | ⟨hf, -⟩
    · simp [frontComponents, hf] at hfront
    · simp [frontComponents, hf] at hfront
    · exact steps_ne_nil hf hne hsteps
  · intro h
    obtain ⟨t⟩ := p
    subst h
    rfl

/-! ### Joined paths -/

theorem front_join (hp : p.text ≠ []) (hq : q.isAbsolute = false) : (p.join q).front = p.front := by
  unfold join
  rw [if_neg (by simp [hq])]
  split
  · next h =>
    refine front_append hp fun hd => ?_
    simp [hd] at h
  · exact front_append hp fun _ c hc => (Option.some.inj hc).symm

/-- The components of a relative path that is joined to another one are its steps. -/
theorem components_join (hp : p.text ≠ []) (hq : q.isAbsolute = false) :
    (p.join q).components = p.components ++ q.steps.map Component.ofStep := by
  rw [components_eq, components_eq, frontComponents_congr (front_join hp hq), steps_join p hq,
    List.map_append, List.append_assoc]

/-- A joined path lies below the first one, or it is the second one. -/
theorem prefix_components_join (p : Path) (hq : q.isAbsolute = false) :
    p.components <+: (p.join q).components := by
  by_cases hp : p.text = []
  · rw [components_eq_nil_iff.2 hp]
    exact List.nil_prefix
  · rw [components_join hp hq]
    exact List.prefix_append _ _

/-! ### Paths that are cut -/

/-- A path of which a dot is left when its end is cut off goes on with a slash behind it. -/
theorem slash_of_ofParts_append (h : (ofParts p.front p.parts).text ++ u = p.text)
    (hd : (ofParts p.front p.parts).text = ['.']) : ∀ c ∈ u.head?, c = '/' := by
  rw [hd] at h
  rcases p.front_cases with ⟨hf, r, ht⟩ | ⟨-, ht | ⟨r, ht⟩⟩ | ⟨hf, -⟩
  · rw [ht] at h
    cases h
  · rw [ht] at h
    simp [List.append_cancel_left (h : ['.'] ++ u = ['.'] ++ [])]
  · rw [ht] at h
    simp [List.append_cancel_left (h : ['.'] ++ u = ['.'] ++ '/' :: r)]
  · -- the last part that is left would be the dot, which is idle
    exfalso
    rw [ofParts_text, hf, List.nil_append] at hd
    have hslash : ∀ s ∈ trimmed p.parts, '/' ∉ s := fun s hs =>
      Text.not_mem_of_mem_splitOn ((trimmed_prefix_self p.parts).subset hs)
    have hne : trimmed p.parts ≠ [] := by
      intro hnil
      rw [hnil] at hd
      cases hd
    have hparts := Text.splitOn_join hslash hne
    rw [hd] at hparts
    have hlast : (trimmed p.parts).getLast? = some ['.'] := by
      rw [← hparts]
      rfl
    exact absurd (getLast_trimmed hlast) (by decide)

/-- Idle parts at the end do not count. -/
theorem components_ofParts (p : Path) : (ofParts p.front p.parts).components = p.components := by
  have hsteps : (ofParts p.front p.parts).steps = p.steps := by
    rw [steps_ofParts (List.prefix_refl _), steps_eq_parts]
  by_cases hne : (ofParts p.front p.parts).text = []
  · have hfront : p.front = [] := (List.append_eq_nil_iff.1 hne).1
    have hnil := components_eq_nil_iff.2 hne
    rw [components_eq, List.append_eq_nil_iff, hsteps] at hnil
    rw [components_eq_nil_iff.2 hne, components_eq, hnil.2, List.append_nil, frontComponents,
      hfront]
    rfl
  · obtain ⟨u, hu⟩ := ofParts_prefix_text (List.prefix_refl p.parts)
    have hfront : p.front = (ofParts p.front p.parts).front := by
      have happend := front_append (u := u) hne ?_
      · rwa [hu] at happend
      · exact slash_of_ofParts_append hu
    rw [components_eq, components_eq, hsteps, frontComponents_congr hfront]

theorem steps_ofParts_nil (h : ∀ s ∈ bs, '/' ∉ s) :
    (ofParts [] bs).steps = bs.filter fun s => !isIdle s := by
  have hslash : ∀ s ∈ trimmed bs, '/' ∉ s := fun s hs => h s ((trimmed_prefix_self bs).subset hs)
  rw [← filter_trimmed, steps, segments, ofParts_text, List.nil_append]
  by_cases hne : trimmed bs = []
  · rw [hne]
    rfl
  · rw [Text.splitOn_join hslash hne]

theorem dropComponents_suffix (n : Nat) (bs : List Text) : dropComponents n bs <:+ bs := by
  induction bs generalizing n with
  | nil => simp [dropComponents]
  | cons s bs ih =>
    cases n with
    | zero => exact List.suffix_refl _
    | succ n =>
      rw [dropComponents]
      split
      · exact (ih _).trans (List.suffix_cons s bs)
      · exact (ih _).trans (List.suffix_cons s bs)

theorem filter_dropComponents (n : Nat) (bs : List Text) :
    (dropComponents n bs).filter (fun s => !isIdle s) = (bs.filter fun s => !isIdle s).drop n := by
  induction bs generalizing n with
  | nil => simp [dropComponents]
  | cons s bs ih =>
    cases n with
    | zero => rfl
    | succ n =>
      rw [dropComponents]
      cases hs : isIdle s with
      | true => simp [hs, ih]
      | false => simp [hs, ih]

theorem filter_dropWhile_isIdle (bs : List Text) :
    (bs.dropWhile isIdle).filter (fun s => !isIdle s) = bs.filter fun s => !isIdle s := by
  induction bs with
  | nil => rfl
  | cons s bs ih => cases hs : isIdle s <;> simp [hs, ih]

theorem stripPrefix?_isSome_iff :
    (stripPrefix? base p).isSome = true ↔ base.components <+: p.components := by
  rw [← List.isPrefixOf_iff_prefix, stripPrefix?]
  cases base.components.isPrefixOf p.components <;> simp
  split <;> rfl

/-- Parts that begin with a step make a relative path. -/
theorem isAbsolute_ofParts_nil (h : ∀ s ∈ bs, '/' ∉ s) (hidle : ∀ s ∈ bs.head?, isIdle s = false) :
    (ofParts [] bs).isAbsolute = false := by
  rw [isAbsolute, ofParts_text, List.nil_append, beq_eq_false_iff_ne]
  obtain ⟨rest, hbs⟩ := trimmed_prefix_self bs
  rcases ht : trimmed bs with _ | ⟨s, ss⟩
  · simp [Text.join]
  · rw [ht] at hbs
    have hs : isIdle s = false := hidle s (by rw [← hbs]; rfl)
    have hslash : '/' ∉ s := h s (by rw [← hbs]; exact List.mem_cons_self)
    rcases s with _ | ⟨c, s⟩
    · cases hs
    · have hc : c ≠ '/' := fun hc => hslash (hc ▸ List.mem_cons_self)
      rcases ss with _ | ⟨s', ss⟩
      · simpa [Text.join] using hc
      · rw [Text.join_cons_cons]
        simpa using hc

theorem join_of_text_eq_nil (h : base.text = []) (q : Path) : base.join q = q := by
  simp [join, h]

/-- The parts behind the first steps of a path make a relative path with the other steps. -/
theorem ofParts_behind (n : Nat) (p : Path) {bs : List Text}
    (h : bs = (dropComponents n p.parts).dropWhile isIdle) :
    (ofParts [] bs).isAbsolute = false ∧ (ofParts [] bs).steps = p.steps.drop n := by
  have hslash : ∀ s ∈ bs, '/' ∉ s := by
    intro s hs
    rw [h] at hs
    exact Text.not_mem_of_mem_splitOn
      ((dropComponents_suffix n p.parts).subset ((List.dropWhile_suffix isIdle).subset hs))
  refine ⟨isAbsolute_ofParts_nil hslash fun s hs => ?_, ?_⟩
  · have hhead := List.head?_dropWhile_not isIdle (dropComponents n p.parts)
    rw [← h, hs] at hhead
    simpa using hhead
  · rw [steps_ofParts_nil hslash, h, filter_dropWhile_isIdle, filter_dropComponents,
      ← steps_eq_parts]

/-- Behind a base that is not empty a relative path is left, with the components behind those of the
base. -/
theorem of_stripPrefix? (hb : base.components ≠ []) (h : stripPrefix? base p = some r) :
    r.isAbsolute = false ∧ p.components = base.components ++ r.steps.map Component.ofStep := by
  obtain ⟨rest, hrest⟩ := stripPrefix?_isSome_iff.1 (Option.isSome_of_eq_some h)
  have hpos : base.components.length ≠ 0 := fun hz => hb (List.length_eq_zero_iff.1 hz)
  rw [stripPrefix?, if_pos (List.isPrefixOf_iff_prefix.2 ⟨rest, hrest⟩)] at h
  dsimp only at h
  rw [if_neg hpos] at h
  obtain rfl := Option.some.inj h
  obtain ⟨habs, hsteps⟩ := ofParts_behind (base.components.length - p.frontComponents.length) p rfl
  refine ⟨habs, ?_⟩
  -- the front of the path is among the components of the base, so only steps are left
  have hfront := p.length_frontComponents_le
  have hdrop := congrArg (List.drop base.components.length) (components_eq p)
  rw [← hrest, List.drop_left, List.drop_append, List.drop_eq_nil_of_le (by omega),
    List.nil_append, ← List.map_drop, ← hsteps] at hdrop
  rw [← hdrop, hrest]

/-- What is left of a path behind another one, joined to the other one, is the path again. -/
theorem components_join_stripPrefix? (h : stripPrefix? base p = some r) :
    (base.join r).components = p.components := by
  by_cases hb : base.components = []
  · rw [stripPrefix?, hb] at h
    obtain rfl := Option.some.inj h
    rw [join_of_text_eq_nil (components_eq_nil_iff.1 hb), components_ofParts]
  · obtain ⟨habs, hp⟩ := of_stripPrefix? hb h
    rw [components_join (fun ht => hb (components_eq_nil_iff.2 ht)) habs, hp]

end Scaffold.Path

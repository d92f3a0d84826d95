import Scaffold.Naming
import Scaffold.Proofs.Text.Split

/-! Words: texts of ASCII letters, digits and underscores. The names in a model are expected to be
words, and every change of case that the naming rules make turns a word into a word. No change of
case makes a line feed, whatever the text (`newline_not_mem_capitalize`, `newline_not_mem_lower`). -/

namespace Scaffold.Text

def isWordChar (c : Char) : Bool :=
  c.isAlphanum || c == '_'

/-- A text of at least one ASCII letter, digit or underscore, and of nothing else. -/
structure IsWord (t : Text) : Prop where
  ne_nil : t ≠ []
  chars : ∀ c ∈ t, isWordChar c = true

instance (t : Text) : Decidable t.IsWord :=
  decidable_of_iff (t ≠ [] ∧ t.all isWordChar = true)
    ⟨fun h => ⟨h.1, List.all_eq_true.1 h.2⟩, fun h => ⟨h.1, List.all_eq_true.2 h.2⟩⟩

theorem IsWord.not_mem {t : Text} (h : t.IsWord) {c : Char} (hc : isWordChar c = false) :
    c ∉ t := by
  intro hm
  rw [h.chars c hm] at hc
  cases hc

/-- A word is read off the front of a text up to a character that is in no word. -/
theorem IsWord.append_cons_inj {s t a b : Text} {c : Char} (hs : s.IsWord) (ht : t.IsWord)
    (hc : isWordChar c = false) (h : s ++ c :: a = t ++ c :: b) : s = t ∧ a = b :=
  cons_inj_of_not_mem (hs.not_mem hc) (ht.not_mem hc) h

theorem lt_of_isWordChar {c : Char} (h : isWordChar c = true) : c.toNat < 128 := by
  delta isWordChar Char.isAlphanum Char.isAlpha Char.isUpper Char.isLower Char.isDigit at h
  simp only [Bool.or_eq_true, Bool.and_eq_true, decide_eq_true_eq, beq_iff_eq,
    UInt32.le_iff_toNat_le, ge_iff_le] at h
  change ((((65 ≤ c.toNat ∧ c.toNat ≤ 90) ∨ (97 ≤ c.toNat ∧ c.toNat ≤ 122)) ∨
    (48 ≤ c.toNat ∧ c.toNat ≤ 57)) ∨ c = '_') at h
  rcases h with h | rfl
  · omega
  · decide

theorem isBlankChar_of_isWordChar {c : Char} (h : isWordChar c = true) : isBlankChar c = false := by
  have table : ∀ n : Fin 128, isWordChar (Char.ofNat n) = true →
      isBlankChar (Char.ofNat n) = false := by
    decide +kernel
  have hc := table ⟨c.toNat, lt_of_isWordChar h⟩
  rw [Char.ofNat_toNat] at hc
  exact hc h

/-! ### Case -/

/-- Where all runs of a table but the first one start later, the first one is the whole table. -/
theorem CaseRun.apply_take_one {rs : List CaseRun} {n : Nat} (h : ∀ r ∈ rs.tail, n < r.first) :
    CaseRun.apply rs n = CaseRun.apply (rs.take 1) n := by
  rcases rs with _ | ⟨r, rs⟩
  · rfl
  · have hrest : rs.find? (·.covers n) = none := by
      refine List.find?_eq_none.2 fun r' hr' => ?_
      rw [CaseRun.covers, decide_eq_false (Nat.not_le.2 (h r' hr'))]
      exact Bool.false_ne_true
    simp only [CaseRun.apply, List.take_succ_cons, List.take_zero, List.find?_cons, hrest,
      List.find?_nil]

theorem upperChar_of_lt {c : Char} (h : c.toNat < 128) :
    upperChar c = [Char.ofNat (CaseRun.apply (upperRuns.take 1) c.toNat)] := by
  have hkeys : ∀ e ∈ upperExpansions, 128 ≤ e.1 := by decide +kernel
  have hruns : ∀ r ∈ upperRuns.tail, 128 ≤ r.first := by decide +kernel
  have hlookup : upperExpansions.lookup c.toNat = none :=
    List.lookup_eq_none_iff.2 fun e he =>
      bne_iff_ne.2 (Nat.ne_of_lt (Nat.lt_of_lt_of_le h (hkeys e he)))
  rw [upperChar, hlookup]
  exact congrArg (fun n => [Char.ofNat n])
    (CaseRun.apply_take_one fun r hr => Nat.lt_of_lt_of_le h (hruns r hr))

theorem lowerChar_of_lt {c : Char} (h : c.toNat < 128) :
    lowerChar c = [Char.ofNat (CaseRun.apply (lowerRuns.take 1) c.toNat)] := by
  have hruns : ∀ r ∈ lowerRuns.tail, 128 ≤ r.first := by decide +kernel
  have hdotted : c ≠ '\u0130' := by
    rintro rfl
    exact absurd h (by decide)
  rw [lowerChar, if_neg hdotted,
    CaseRun.apply_take_one fun r hr => Nat.lt_of_lt_of_le h (hruns r hr)]

/-- Both changes of case make one word character of one. -/
theorem exists_images {c : Char} (h : isWordChar c = true) : ∃ d e, lowerChar c = [d] ∧
    upperChar c = [e] ∧ isWordChar d = true ∧ isWordChar e = true := by
  have table : ∀ n : Fin 128, isWordChar (Char.ofNat n) = true →
      isWordChar (Char.ofNat (CaseRun.apply (lowerRuns.take 1) n)) = true ∧
      isWordChar (Char.ofNat (CaseRun.apply (upperRuns.take 1) n)) = true := by
    decide +kernel
  have hlt := lt_of_isWordChar h
  have hc := table ⟨c.toNat, hlt⟩
  rw [Char.ofNat_toNat] at hc
  obtain ⟨hd, he⟩ := hc h
  exact ⟨_, _, lowerChar_of_lt hlt, upperChar_of_lt hlt, hd, he⟩

theorem IsWord.capitalize {t : Text} (h : t.IsWord) : (capitalize t).IsWord := by
  rcases t with _ | ⟨c, t⟩
  · exact absurd rfl h.ne_nil
  · obtain ⟨hc, ht⟩ := List.forall_mem_cons.1 h.chars
    obtain ⟨-, e, -, hu, -, he⟩ := exists_images hc
    rw [Text.capitalize, hu]
    exact ⟨List.cons_ne_nil e t, List.forall_mem_cons.2 ⟨he, ht⟩⟩

theorem lowerAfter_chars {before t : Text} (h : ∀ c ∈ t, isWordChar c = true) :
    ∀ c ∈ lowerAfter before t, isWordChar c = true := by
  induction t generalizing before with
  | nil => exact h
  | cons c t ih =>
    obtain ⟨hc, ht⟩ := List.forall_mem_cons.1 h
    have hsigma : c ≠ 'Σ' := by
      rintro rfl
      exact absurd hc (by decide)
    obtain ⟨d, -, hl, -, hd, -⟩ := exists_images hc
    rw [lowerAfter, if_neg hsigma, hl]
    exact List.forall_mem_cons.2 ⟨hd, ih ht⟩

theorem lower_chars {t : Text} (h : ∀ c ∈ t, isWordChar c = true) :
    ∀ c ∈ lower t, isWordChar c = true :=
  lowerAfter_chars h

/-! ### Line feeds -/

theorem eq_newline_of_ofNat {n : Nat} (h : Char.ofNat n = '\n') : n = 10 := by
  by_cases hv : n.isValidChar
  · have hn : Char.ofNat n = Char.ofNatAux n hv := dif_pos hv
    exact congrArg Char.toNat (hn.symm.trans h)
  · have hn : Char.ofNat n = '\x00' := dif_neg hv
    cases hn.symm.trans h

/-- Where no run reaches down to a code point, only the code point itself is mapped to it. -/
theorem CaseRun.eq_of_apply_eq {rs : List CaseRun} {n k : Nat}
    (h : ∀ r ∈ rs, (k : Int) < r.first + r.shift) (hn : CaseRun.apply rs n = k) : n = k := by
  unfold CaseRun.apply at hn
  split at hn
  · next r hr =>
    have hcovers := List.find?_some hr
    have hfirst : r.first ≤ n := by
      simp only [covers, Bool.and_eq_true, decide_eq_true_eq] at hcovers
      exact hcovers.1.1
    have hrun := h r (List.mem_of_find?_eq_some hr)
    omega
  · exact hn

theorem newline_not_mem_upperChar {c : Char} (h : c ≠ '\n') : '\n' ∉ upperChar c := by
  have hruns : ∀ r ∈ upperRuns, ((10 : Nat) : Int) < r.first + r.shift := by decide +kernel
  have hexp : ∀ e ∈ upperExpansions, 10 ∉ e.2 := by decide +kernel
  intro hm
  unfold upperChar at hm
  split at hm
  · next ns hns =>
    obtain ⟨n, hmem, hn⟩ := List.mem_map.1 hm
    obtain ⟨before, after, heq, -⟩ := List.lookup_eq_some_iff.1 hns
    refine hexp (c.toNat, ns) (by rw [heq]; simp) ?_
    rwa [← eq_newline_of_ofNat hn]
  · have hn := CaseRun.eq_of_apply_eq hruns (eq_newline_of_ofNat (List.mem_singleton.1 hm).symm)
    exact h (Char.toNat_inj.1 hn)

theorem newline_not_mem_lowerChar {c : Char} (h : c ≠ '\n') : '\n' ∉ lowerChar c := by
  have hruns : ∀ r ∈ lowerRuns, ((10 : Nat) : Int) < r.first + r.shift := by decide +kernel
  intro hm
  unfold lowerChar at hm
  split at hm
  · revert hm
    decide
  · have hn := CaseRun.eq_of_apply_eq hruns (eq_newline_of_ofNat (List.mem_singleton.1 hm).symm)
    exact h (Char.toNat_inj.1 hn)

theorem newline_not_mem_capitalize {t : Text} (h : '\n' ∉ t) : '\n' ∉ capitalize t := by
  cases t with
  | nil => exact h
  | cons c t =>
    obtain ⟨hc, ht⟩ := List.ne_and_not_mem_of_not_mem_cons h
    exact fun hm => (List.mem_append.1 hm).elim (newline_not_mem_upperChar hc.symm) ht

theorem newline_not_mem_lowerAfter {before t : Text} (h : '\n' ∉ t) :
    '\n' ∉ lowerAfter before t := by
  induction t generalizing before with
  | nil => exact h
  | cons c t ih =>
    obtain ⟨hc, ht⟩ := List.ne_and_not_mem_of_not_mem_cons h
    refine fun hm => (List.mem_append.1 hm).elim (fun hm => ?_) (ih ht)
    split at hm
    · split at hm <;> exact absurd hm (by decide)
    · exact newline_not_mem_lowerChar hc.symm hm

theorem newline_not_mem_lower {t : Text} (h : '\n' ∉ t) : '\n' ∉ lower t :=
  newline_not_mem_lowerAfter h

end Scaffold.Text

namespace Scaffold

/-- The name of the table of a model has word characters only, as the name of the model has. -/
theorem Naming.entityName_chars {naming : Naming} {name entity : Text} (h : name.IsWord)
    (he : naming.entityName name = some entity) : ∀ c ∈ entity, Text.isWordChar c = true := by
  unfold entityName at he
  split at he
  · cases he
  · cases he
    unfold Text.plural
    split
    · simp
    · exact List.forall_mem_append.2 ⟨Text.lower_chars h.chars, List.forall_mem_singleton.2 rfl⟩

/-- Nor does the name of the table have a line feed. -/
theorem Naming.newline_not_mem_entityName {naming : Naming} {name entity : Text} (h : '\n' ∉ name)
    (he : naming.entityName name = some entity) : '\n' ∉ entity := by
  unfold entityName at he
  split at he
  · cases he
  · cases he
    unfold Text.plural
    split
    · exact List.not_mem_nil
    · exact fun hm => (List.mem_append.1 hm).elim (Text.newline_not_mem_lower h) (by decide)

end Scaffold

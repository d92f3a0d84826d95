import Scaffold.Proofs.Registration.Splice

/-! How often models are registered in a setup file. All statements of a file that closes with two
braces stand above the inner brace, so the lines that are added there are all that counts. The
models that a file lacks are those whose statements will be added, each at its first turn. -/

namespace Scaffold.Registration

variable {text text' inner outer : Text} {above added : List Text}

/-- How many lines of a file are the statement of a model. -/
def occurrences (text model : Text) : Nat :=
  (fileLines text).countP fun line => Text.trim line == statement model

theorem occurrences_eq_zero_iff {model : Text} :
    occurrences text model = 0 ↔ ∀ line ∈ fileLines text, Text.trim line ≠ statement model := by
  simp [occurrences]

theorem present_iff_occurrences {indent : Indent} {n : Text} :
    splice indent (statement n) text = .ok .present ↔ occurrences text n ≠ 0 := by
  rw [splice_eq_present_iff, Ne, occurrences_eq_zero_iff]
  simp

theorem Closes.occurrences_eq (hc : Closes text above inner outer) (model : Text) :
    occurrences text model = (above.map Text.trim).count (statement model) := by
  obtain ⟨below, hl, hb⟩ := hc.lines
  have hbrace : ∀ line, isBrace line = true → Text.trim line ≠ statement model := by
    intro line h he
    rw [eq_of_beq h] at he
    exact statement_ne_brace model he.symm
  have hbelow : ∀ line ∈ inner :: below, ¬ (Text.trim line == statement model) = true := by
    intro line hm he
    rw [beq_iff_eq] at he
    rcases List.mem_cons.1 hm with rfl | hm
    · exact hbrace line hc.inner he
    · have hsolid : line ∈ solid below := by
        rw [solid, List.mem_filter, Text.isBlank_eq_false_of_trim]
        · exact ⟨hm, rfl⟩
        · rw [he]
          exact statement_ne_nil model
      rw [hb, List.mem_singleton] at hsolid
      subst hsolid
      exact hbrace line hc.outer he
  rw [occurrences, hl, List.countP_append, List.countP_eq_zero.2 hbelow, Nat.add_zero, List.count,
    List.countP_map]
  rfl

/-- Added lines are all that changes the number of registrations. -/
theorem Closes.occurrences_append (hc : Closes text above inner outer)
    (hc' : Closes text' (above ++ added) inner outer) (model : Text) :
    occurrences text' model =
      occurrences text model + (added.map Text.trim).count (statement model) := by
  rw [hc.occurrences_eq, hc'.occurrences_eq, List.map_append, List.count_append]

theorem Closes.occurrences_of_added {n : Text} (hc : Closes text above inner outer)
    (hc' : Closes text' (above ++ added) inner outer)
    (ha : added.map Text.trim = if occurrences text n = 0 then [statement n] else []) (m : Text) :
    occurrences text' m =
      occurrences text m + (if m = n ∧ occurrences text n = 0 then 1 else 0) := by
  rw [hc.occurrences_append hc', ha]
  by_cases hz : occurrences text n = 0
  · by_cases hm : m = n
    · simp [hz, hm]
    · have hne : statement n ≠ statement m := fun he => hm (statement_injective he).symm
      simp [hz, hm, hne]
  · simp [hz]

/-- The lines that are not blank stay, in their order. -/
theorem Closes.solid_sublist (hc : Closes text above inner outer)
    (hc' : Closes text' (above ++ added) inner outer) :
    (solid (fileLines text)).Sublist (fileLines text') := by
  obtain ⟨below', hl', hb'⟩ := hc'.lines
  have htail : (inner :: solid below').Sublist (inner :: below') :=
    List.Sublist.cons_cons inner List.filter_sublist
  rw [hb'] at htail
  rw [hc.solid_eq, hl', List.append_assoc]
  exact List.Sublist.append List.filter_sublist
    (htail.trans (List.sublist_append_right added (inner :: below')))

/-! ### Missing statements -/

theorem eraseDups_filter (q : Text → Bool) : ∀ ns : List Text,
    (ns.filter q).eraseDups = ns.eraseDups.filter q
  | [] => rfl
  | n :: ns => by
    have hlen : (ns.filter fun m => !m == n).length < ns.length + 1 :=
      Nat.lt_succ_of_le (List.length_filter_le _ _)
    have ih := eraseDups_filter q (ns.filter fun m => !m == n)
    rw [List.eraseDups_cons]
    by_cases hq : q n = true
    · rw [List.filter_cons_of_pos hq, List.filter_cons_of_pos hq, List.eraseDups_cons, ← ih,
        List.filter_filter, List.filter_filter]
      simp only [Bool.and_comm]
    · rw [List.filter_cons_of_neg hq, List.filter_cons_of_neg hq, ← ih, List.filter_filter]
      congr 1
      apply List.filter_congr
      intro m _
      by_cases hm : m = n
      · simp [hm, hq]
      · simp [hm]
termination_by ns => ns.length

/-- The models of a list that are not registered in a file, in the order of their first turns. -/
def missing (text : Text) (names : List Text) : List Text :=
  names.eraseDups.filter fun n => occurrences text n = 0

/-- Once the first model is registered, what is missing is missing from the new file. -/
theorem missing_cons {n : Text} (ns : List Text)
    (h : ∀ m, occurrences text' m =
      occurrences text m + (if m = n ∧ occurrences text n = 0 then 1 else 0)) :
    missing text (n :: ns) =
      (if occurrences text n = 0 then [n] else []) ++ missing text' ns := by
  have hfilter : (ns.filter fun m => !m == n).eraseDups.filter (fun m => occurrences text m = 0) =
      missing text' ns := by
    rw [eraseDups_filter, List.filter_filter, missing]
    apply List.filter_congr
    intro m _
    rw [h]
    by_cases hm : m = n
    · subst hm
      by_cases hz : occurrences text m = 0 <;> simp [hz]
    · simp [hm]
  rw [missing, List.eraseDups_cons]
  by_cases hz : occurrences text n = 0
  · rw [List.filter_cons_of_pos (by simp [hz]), hfilter, if_pos hz]
    rfl
  · rw [List.filter_cons_of_neg (by simp [hz]), hfilter, if_neg hz]
    rfl

end Scaffold.Registration

import Mathlib.Data.List.Basic
import Scaffold.CommandLine.Basic

/-! Options among the tokens of a model. Tokens fall into options, each with its value if it takes
one, and arguments; an option that waits for a value and comes last counts as an argument. An option
may be put in wherever it does not become the value of another one: the arguments stay, and of the
options only that one changes. Main statement: `split_options`. -/

namespace Scaffold.CommandLine

/-- An option among the tokens of a model, with its value. -/
inductive Setting where
  | dryRun
  | force
  | verbose
  | project (folder : Text)
  | templates (folder : Text)
  deriving DecidableEq, Repr

namespace Setting

/-- The ways to write an option: in one token, or with the value in the token behind. -/
def spellings : Setting → List (List Text)
  | .dryRun => [["--dry-run"]]
  | .force => [["--force"]]
  | .verbose => [["-v"], ["--verbose"]]
  | .project v => [["--project=" ++ v], ["-p", v], ["--project", v]]
  | .templates v => [["--templates=" ++ v], ["--templates", v]]

/-- The tokens that take the token behind them for their value. -/
def openers : List Text :=
  ["-p", "--project", "--templates"]

/-- A token that is no option and no part of one, wherever it stands. -/
def IsArgument (t : Text) : Prop :=
  t ∉ openers ∧ ∀ c : Setting, [t] ∉ c.spellings

theorem exists_spelling {t : Text} (h : t ∈ openers) (v : Text) :
    ∃ c : Setting, [t, v] ∈ c.spellings := by
  simp only [openers, List.mem_cons, List.not_mem_nil, or_false] at h
  rcases h with rfl | rfl | rfl
  · exact ⟨.project v, by simp [spellings]⟩
  · exact ⟨.project v, by simp [spellings]⟩
  · exact ⟨.templates v, by simp [spellings]⟩

/-- Every list of tokens is read from its front: an option, an argument, or at the end a token that
waits for a value. -/
theorem tokens_induction {P : List Text → Prop} (nil : P [])
    (option : ∀ (c : Setting) (group ts : List Text), group ∈ c.spellings → P ts → P (group ++ ts))
    (argument : ∀ (t : Text) (ts : List Text), IsArgument t → P ts → P (t :: ts))
    (opener : ∀ t ∈ openers, P [t]) (ts : List Text) : P ts := by
  induction hn : ts.length using Nat.strongRecOn generalizing ts with
  | ind n ih =>
    subst hn
    rcases ts with _ | ⟨t, ts⟩
    · exact nil
    · by_cases ho : t ∈ openers
      · rcases ts with _ | ⟨v, ts⟩
        · exact opener t ho
        · obtain ⟨c, hc⟩ := exists_spelling ho v
          exact option c [t, v] ts hc (ih _ (by simp only [List.length_cons]; omega) ts rfl)
      · by_cases ha : ∀ c : Setting, [t] ∉ c.spellings
        · exact argument t ts ⟨ho, ha⟩ (ih _ (by simp) ts rfl)
        · simp only [not_forall, not_not] at ha
          obtain ⟨c, hc⟩ := ha
          exact option c [t] ts hc (ih _ (by simp) ts rfl)

end Setting

namespace Trailing

open Setting

variable {s : Trailing} {c : Setting} {t : Text} {group ts before after : List Text}

/-! ### Options one after the other -/

/-- Give an option in front of tokens that give the options `later`. A value that they give to the
same option counts more. -/
def put (s later : Trailing) : Setting → Trailing
  | .dryRun => { s with dryRun := true }
  | .force => { s with force := true }
  | .verbose => { s with verbose := true }
  | .project v => { s with project := later.project.or (some ⟨v⟩) }
  | .templates v => { s with templates := later.templates.or (some ⟨v⟩) }

/-- Options, and further ones behind them. -/
def followedBy (s later : Trailing) : Trailing where
  dryRun := s.dryRun || later.dryRun
  force := s.force || later.force
  verbose := s.verbose || later.verbose
  project := later.project.or s.project
  templates := later.templates.or s.templates

@[simp] theorem followedBy_empty (s : Trailing) : s.followedBy {} = s := by
  simp [followedBy]

theorem followedBy_put (s later : Trailing) (c : Setting) :
    s.followedBy ((put {} {} c).followedBy later) = (s.put {} c).followedBy later := by
  cases c <;> simp [followedBy, put]

theorem put_followedBy (s later : Trailing) (c : Setting) :
    (s.put {} c).followedBy later = (s.followedBy later).put later c := by
  cases c <;> simp [followedBy, put]

/-! ### Reading from the front -/

theorem split_option (h : group ∈ c.spellings) (s : Trailing) (ts : List Text) :
    split s (group ++ ts) = split (s.put {} c) ts := by
  cases c with
  | dryRun =>
    obtain rfl := List.mem_singleton.1 h
    rfl
  | force =>
    obtain rfl := List.mem_singleton.1 h
    rfl
  | verbose =>
    simp only [spellings, List.mem_cons, List.not_mem_nil, or_false] at h
    rcases h with rfl | rfl <;> rfl
  | project v =>
    simp only [spellings, List.mem_cons, List.not_mem_nil, or_false] at h
    rcases h with rfl | rfl | rfl <;> cases ts <;> rfl
  | templates v =>
    simp only [spellings, List.mem_cons, List.not_mem_nil, or_false] at h
    rcases h with rfl | rfl <;> cases ts <;> rfl

theorem flag?_eq_none (h : IsArgument t) : s.flag? t = none := by
  have hd : t ≠ "--dry-run".toList := fun he => h.2 .dryRun (he ▸ List.mem_cons_self)
  have hf : t ≠ "--force".toList := fun he => h.2 .force (he ▸ List.mem_cons_self)
  have hv : t ≠ "-v".toList := fun he => h.2 .verbose (he ▸ List.mem_cons_self)
  have hverbose : t ≠ "--verbose".toList := fun he =>
    h.2 .verbose (he ▸ List.mem_cons_of_mem _ List.mem_cons_self)
  rw [flag?, if_neg hd, if_neg hf, decide_eq_false hv, decide_eq_false hverbose]
  rfl

theorem withNext?_eq_none (h : IsArgument t) (v : Text) : s.withNext? t v = none := by
  obtain ⟨hp, hproject, htemplates⟩ : t ≠ "-p".toList ∧ t ≠ "--project".toList ∧
      t ≠ "--templates".toList := by
    simpa only [openers, List.mem_cons, List.not_mem_nil, or_false, not_or] using h.1
  rw [withNext?, decide_eq_false hp, decide_eq_false hproject, if_neg htemplates]
  rfl

theorem withValue?_eq_none (h : IsArgument t) : s.withValue? t = none := by
  have hnone : ∀ start : Text, (∀ v, t ≠ start ++ v) → Text.stripPrefix? start t = none := by
    intro start hs
    refine Option.eq_none_iff_forall_ne_some.2 fun v hv => hs v ?_
    exact (List.isPrefixOf?_eq_some_iff_append_eq.1 hv).symm
  have hproject := hnone "--project=" fun v he =>
    h.2 (.project v) (by simp [spellings, he])
  have htemplates := hnone "--templates=" fun v he =>
    h.2 (.templates v) (by simp [spellings, he])
  rw [withValue?, hproject, htemplates]
  rfl

theorem split_argument (h : IsArgument t) (s : Trailing) (ts : List Text) :
    split s (t :: ts) = (t :: (split s ts).1, (split s ts).2) := by
  cases ts with
  | nil =>
    have hnil : split s [] = ([], s) := rfl
    rw [hnil, split, flag?_eq_none h, withValue?_eq_none h]
  | cons v ts => rw [split, flag?_eq_none h, withNext?_eq_none h, withValue?_eq_none h]

theorem split_opener (h : t ∈ openers) (s : Trailing) : split s [t] = ([t], s) := by
  simp only [openers, List.mem_cons, List.not_mem_nil, or_false] at h
  rcases h with rfl | rfl | rfl <;> rfl

/-! ### Whole lists -/

/-- What was given before is kept, but for what is given again. -/
theorem split_eq (s : Trailing) (ts : List Text) :
    split s ts = ((split {} ts).1, s.followedBy (split {} ts).2) := by
  induction ts using tokens_induction generalizing s with
  | nil => simp [split]
  | option c group ts hg ih =>
    rw [split_option hg, split_option hg, ih, ih (put {} {} c), followedBy_put]
  | argument t ts ht ih => rw [split_argument ht, split_argument ht, ih]
  | opener t ht => simp [split_opener ht]

/-- Tokens are read up to any place where no value is awaited, and then on from there. -/
theorem split_append (h : ∀ t ∈ before.getLast?, t ∉ openers) (s : Trailing) (after : List Text) :
    split s (before ++ after) = ((split s before).1 ++ (split {} after).1,
      (split s before).2.followedBy (split {} after).2) := by
  induction before using tokens_induction generalizing s with
  | nil => exact split_eq s after
  | option c group ts hg ih =>
    have hts : ∀ t ∈ ts.getLast?, t ∉ openers := fun t ht =>
      h t (List.mem_getLast?_append_of_mem_getLast? ht)
    rw [List.append_assoc, split_option hg, split_option hg, ih hts]
  | argument t ts ht ih =>
    have hts : ∀ u ∈ ts.getLast?, u ∉ openers := by
      intro u hu
      have hmem : u ∈ ([t] ++ ts).getLast? := List.mem_getLast?_append_of_mem_getLast? hu
      exact h u hmem
    rw [List.cons_append, split_argument ht, split_argument ht, ih hts]
    rfl
  | opener t ht => exact absurd ht (h t rfl)

theorem sublist_split (s : Trailing) (ts : List Text) : (split s ts).1.Sublist ts := by
  induction ts using tokens_induction generalizing s with
  | nil => exact List.Sublist.refl _
  | option c group ts hg ih =>
    rw [split_option hg]
    exact (ih _).trans (List.sublist_append_right group ts)
  | argument t ts ht ih =>
    rw [split_argument ht]
    exact (ih s).cons_cons t
  | opener t ht => rw [split_opener ht]

/-- No option is left among the arguments. -/
theorem split_arguments (s s' : Trailing) (ts : List Text) :
    split s' (split s ts).1 = ((split s ts).1, s') := by
  induction ts using tokens_induction generalizing s with
  | nil => rfl
  | option c group ts hg ih => rw [split_option hg, ih]
  | argument t ts ht ih => rw [split_argument ht, split_argument ht, ih]
  | opener t ht => rw [split_opener ht, split_opener ht]

/-- The arguments are some of the tokens, and no option is among them any more. An option may be put
in at any place that is not directly behind a token that waits for a value. The arguments stay, and
the option is given, with the value of the last place that gives one; everything else stays too. -/
theorem split_options (tokens : List Text) :
    (split {} tokens).1.Sublist tokens ∧
    split {} (split {} tokens).1 = ((split {} tokens).1, {}) ∧
    ∀ before after, tokens = before ++ after → (∀ t ∈ before.getLast?, t ∉ openers) →
      ∀ c : Setting, ∀ group ∈ c.spellings, split {} (before ++ group ++ after) =
        ((split {} tokens).1, (split {} tokens).2.put (split {} after).2 c) := by
  refine ⟨sublist_split _ _, split_arguments _ _ _, ?_⟩
  rintro before after rfl hplace c group hg
  rw [List.append_assoc, split_append hplace, split_append hplace, split_option hg,
    split_eq (put {} {} c)]
  exact Prod.ext rfl ((followedBy_put _ _ _).trans (put_followedBy _ _ _))

/-- The value of an option may look like an option, and the last token waits for a value in vain. -/
def noteFront : List Text := ["Note", "--templates", "--force"]

def noteBack : List Text := ["-p", "App", "text:string", "--project"]

def noteArguments : List Text := ["Note", "text:string", "--project"]

/-- Put in between, a project does not count, as one is given further on, but a directory of
templates does, as the one that is given stands before it. -/
theorem split_options_note :
    (∀ t ∈ noteFront.getLast?, t ∉ openers) ∧
    ["--project".toList, "-v".toList] ∈ (Setting.project "-v").spellings ∧
    ["--templates=".toList] ∈ (Setting.templates []).spellings ∧
    split {} (noteFront ++ noteBack) = (noteArguments,
      { project := some "App", templates := some "--force" }) ∧
    split {} (noteFront ++ ["--project".toList, "-v".toList] ++ noteBack) =
      split {} (noteFront ++ noteBack) ∧
    split {} (noteFront ++ ["--templates=".toList] ++ noteBack) =
      (noteArguments, { project := some "App", templates := some "" }) := by
  have hplace : ∀ t ∈ noteFront.getLast?, t ∉ openers := by decide +kernel
  have hp : ["--project".toList, "-v".toList] ∈ (Setting.project "-v").spellings := by
    decide +kernel
  have ht : ["--templates=".toList] ∈ (Setting.templates []).spellings := by decide +kernel
  obtain ⟨-, -, hput⟩ := split_options (noteFront ++ noteBack)
  refine ⟨hplace, hp, ht, by decide +kernel, ?_, ?_⟩
  · rw [hput noteFront noteBack rfl hplace _ _ hp]
    decide +kernel
  · rw [hput noteFront noteBack rfl hplace _ _ ht]
    decide +kernel

end Trailing
end Scaffold.CommandLine
